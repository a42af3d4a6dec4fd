import Pergamon.CryptoContext
import Pergamon.Pull
import Pergamon.Statements

/-!
Pulling from a relay that is not trusted. It may leave out events of the log, repeat them, put
them in any order and alter any field of them, and it may answer each request as it likes. The
device looks at each event by itself: whose it is, whether it is recorded, whether the key of the
device that it names verifies the signature over its header and ciphertext, and whether it opens.

Signatures cover the whole header and are told apart from all else that the same key signs
(`Signs.event_made`). So whatever the relay sends, a device applies nothing but what the named devices
have encrypted under these change ids, each change once and in the order of its coming, and its
cursor passes no page with an event that it has refused (`pull_untrusted`).
-/
namespace Pergamon
open Fallible

namespace Untrusted

/-- A page as it travels. -/
structure PullResponse where
  events : List StoredEvent
  next_cursor : ℕ

/-- What a device finds around it during one call of `pull`: the keys of the devices, and by the
    event where a blob or the database fails and what time it is. -/
structure Around where
  directory : String → Option (Bytes KEY_LEN)
  fetch_blobs : StoredEvent → ChangeBody → Except SyncError Unit
  transaction : StoredEvent → Except StorageError Unit
  save_cursor : ℕ → Except StorageError Unit
  now_millis : StoredEvent → UInt64

section
variable (p : Primitives) (base64 : Base64) (format : BodyFormat) (ctx : CryptoContext) (around : Around)

/-- An event that travels as one of the log. -/
def record (ev : StoredEvent) : StoredEventRecord where
  protocol_version := ev.protocol_version
  device_id := ev.device_id
  change_id := ev.change_id
  entity_ref := ev.entity_ref
  key_epoch := ev.key_epoch
  blob_refs := ev.blob_refs
  ciphertext := (base64.decode ev.ciphertext_b64).getD []
  signature := (base64.decode ev.sig_b64).getD []
  account_id := ev.account_id
  payload_bytes := ((base64.decode ev.ciphertext_b64).getD []).length
  server_seq := ev.server_seq

/-- The surroundings of one event, whose signature and ciphertext are read from what travels. -/
def Around.at (ev : StoredEvent) : Surroundings where
  server _ := .error .Transport
  directory device_id := (around.directory device_id).map List.Vector.toList
  verify_event_sig _ pub :=
    if size : pub.length = KEY_LEN then CryptoContext.verify_event_sig p base64 ev ⟨pub,size⟩ else .error .Crypto
  decrypt_change _ := ctx.decrypt_change p base64 format ev
  fetch_blobs _ body := around.fetch_blobs ev body
  transaction _ := around.transaction ev
  save_cursor := around.save_cursor
  now_millis _ := around.now_millis ev

variable [Sqlite] [Scheduler]

/-- Take up one event of a page. -/
def take_up (progress : Progress) (ev : StoredEvent) : Except (Progress × SyncError) Progress :=
  receive (around.at p base64 format ctx ev) ctx.account_id_hex ctx.device_id progress (record base64 ev)

/-- The loop over the pages, by the answers of the relay. A request without an answer fails. -/
def pull_answers : List (Except SyncError PullResponse) → Progress → Except (Progress × SyncError) Progress
  | [],progress => .error (progress,.Transport)
  | .error e :: _,progress => .error (progress,e)
  | .ok page :: answers,progress =>
    if page.events.isEmpty then .ok progress
    else
      match page.events.foldlM (take_up p base64 format ctx around) progress with
      | .error failed => .error failed
      | .ok progress =>
        match around.save_cursor page.next_cursor with
        | .error e => .error (progress,.Storage e)
        | .ok () =>
          let progress := { progress with db := progress.db.set_sync_cursor page.next_cursor }
          if page.events.length < BATCH then .ok progress else pull_answers answers progress

end

/-! ### What devices sign -/

/-- A call of `encrypt_change`, with the nonce that it draws. -/
structure Encryption where
  ctx : CryptoContext
  nonce : Option (Bytes NONCE_LEN)
  change_id : String
  body : ChangeBody

section
variable (p : Primitives) (base64 : Base64) (format : BodyFormat) (made : List Encryption)

/-- What the device signs: the events that it encrypts, its own record, attestations and what
    the server asks of it. -/
inductive Signs (device_id : String) : List UInt8 → Prop where
  | event {call : Encryption} {ciphertext : List UInt8} : call ∈ made → call.ctx.device_id = device_id →
      call.ctx.encrypt_body p format call.nonce call.change_id call.body = .ok ciphertext →
      Signs device_id (event_signing_bytes (call.ctx.header p call.change_id call.body) ciphertext)
  | record (r : DeviceRecord) : Signs device_id r.signing_bytes
  | attestation (a : Attestation) : Signs device_id a.signing_bytes
  | binding {challenge : ChallengeRecord} {bytes : List UInt8} :
      Client.binding_signing_bytes base64 challenge = .ok bytes → Signs device_id bytes
  | mint_pop (login_id : String) (credential_finalization : List UInt8) (id : String) (pub : Bytes ED25519_PUB_LEN) :
      Signs device_id (Client.mint_pop_message p login_id credential_finalization id pub)
  | refresh_pop (refresh_token_id : String) (nonce : List UInt8) (id : String) (pub : Bytes ED25519_PUB_LEN) :
      Signs device_id (Client.refresh_pop_message refresh_token_id nonce id pub)

/-- The calls of the account's devices: each body is read as it was written, the lengths in each
    header are written as they are, and all have the root key of the account. -/
structure Family (ctx : CryptoContext) : Prop where
  exact : ∀ call ∈ made, format.Exact call.body
  short : ∀ call ∈ made, (call.ctx.header p call.change_id call.body).Short
  same_key : ∀ call ∈ made, call.ctx.ark = ctx.ark

/-- Where a signature of what was sent verifies under a key of the directory, the device has signed that. -/
def Unforged (sent : Set StoredEvent) (directory : String → Option (Bytes KEY_LEN)) : Prop :=
  ∀ ev ∈ sent, ∀ pub, directory ev.device_id = some pub → ∀ ciphertext (sig : Bytes SIG_LEN),
    base64.decode ev.ciphertext_b64 = some ciphertext → base64.decode ev.sig_b64 = some sig.toList →
    p.ed25519_verify pub (event_signing_bytes ev.header_for ciphertext) sig = .ok () →
    Signs p base64 format made ev.device_id (event_signing_bytes ev.header_for ciphertext)

/-- The device that the event names has encrypted the body under the change id of the event. -/
def Genuine (ev : StoredEventRecord) (body : ChangeBody) : Prop :=
  ∃ call ∈ made, call.ctx.device_id = ev.device_id ∧ call.change_id = ev.change_id ∧ call.body = body

end

section
variable {p : Primitives} {base64 : Base64} {format : BodyFormat} {made : List Encryption} {ctx : CryptoContext}
  {device_id : String} {header : EventHeader} {ciphertext : List UInt8}

/-- Signed bytes of an event are those of the one call that has encrypted it. -/
theorem Signs.event_made (family : Family p format made ctx)
    (signs : Signs p base64 format made device_id (event_signing_bytes header ciphertext)) :
    ∃ call ∈ made, call.ctx.device_id = device_id ∧ call.ctx.header p call.change_id call.body = header ∧
      call.ctx.encrypt_body p format call.nonce call.change_id call.body = .ok ciphertext := by
  generalize bytes : event_signing_bytes header ciphertext = signed at signs
  cases signs with
  | event inside named encrypted =>
    obtain ⟨rfl,rfl⟩ := event_signing_bytes_inj (family.short _ inside) bytes.symm
    exact ⟨_,inside,named,rfl,encrypted⟩
  | record r => exact absurd bytes.symm (event_signing_bytes_ne_record header ciphertext r)
  | attestation a => exact absurd bytes.symm (event_signing_bytes_ne_attestation header ciphertext a)
  | binding stated =>
    obtain ⟨nonce,key,-,-,-,statement⟩ := client_statement_ok.mp stated
    rw [statement] at bytes
    simp only [BindingChallenge.statement,event_signing_bytes,List.append_assoc] at bytes
    exact absurd bytes (tag_apart (by decide +kernel))
  | mint_pop login_id ke3 id pub =>
    simp only [Client.mint_pop_message,Client.push_len_prefixed,event_signing_bytes,List.append_assoc] at bytes
    exact absurd bytes (tag_apart (by decide +kernel))
  | refresh_pop token nonce id pub =>
    simp only [Client.refresh_pop_message,Client.push_len_prefixed,event_signing_bytes,List.append_assoc] at bytes
    exact absurd bytes (tag_apart (by decide +kernel))

end

/-! ### One event -/

section
variable [Sqlite] [Scheduler] {p : Primitives} {base64 : Base64} {format : BodyFormat} {made : List Encryption} {ctx : CryptoContext}
  {around : Around} {sent : Set StoredEvent} {ev : StoredEvent} {body : ChangeBody} {a b c : Progress}

omit [Sqlite] [Scheduler] in
/-- An event that is opened was encrypted by the device that it names. -/
theorem open_event_genuine (lawful : p.Lawful) (family : Family p format made ctx)
    (unforged : Unforged p base64 format made sent around.directory) (inside : ev ∈ sent) (ours : ev.account_id = ctx.account_id_hex)
    (opened : (around.at p base64 format ctx ev).open_event (record base64 ev) = .ok body) :
    Genuine made (record base64 ev) body := by
  simp only [Surroundings.open_event,bind_ok,Except.ok.injEq] at opened
  obtain ⟨_,verified,b,decrypted,_,-,rfl⟩ := opened
  unfold Surroundings.verify_signature at verified
  split at verified
  · cases verified
  next signer known =>
  obtain ⟨pub,listed,rfl⟩ := Option.map_eq_some_iff.mp known
  obtain ⟨valid,verifies,accepted⟩ := bind_ok.mp verified
  cases valid with
  | false => cases accepted
  | true =>
    replace verifies : CryptoContext.verify_event_sig p base64 ev pub = .ok true := by
      simp only [Around.at,List.Vector.toList_length,dif_pos] at verifies
      exact verifies
    obtain ⟨ciphertext,decoded,sig,decoded',signed⟩ := CryptoContext.verify_event_sig_ok verifies
    obtain ⟨call,called,named,shown,encrypted⟩ :=
      Signs.event_made family (unforged ev inside pub listed ciphertext sig decoded decoded' signed)
    obtain ⟨plaintext,written,read⟩ := (CryptoContext.decrypt_change_made lawful ours (family.same_key call called) decoded encrypted
      shown.symm).mp decrypted
    have same : call.body = b := Option.some.inj ((family.exact call called plaintext written).symm.trans read)
    exact ⟨call,called,named,congrArg EventHeader.change_id shown,same⟩

/-- From one state of a device to a later one it has applied bodies that were encrypted by the devices
    which their events name, each under a change id that was not recorded, and has recorded them. -/
structure Advances (made : List Encryption) (took : List (StoredEventRecord × ChangeBody)) (a b : Progress) : Prop where
  applied : b.applied = a.applied ++ took.map Prod.fst
  genuine : ∀ t ∈ took, Genuine made t.1 t.2
  rows : took.foldlM (fun r t => r.apply_change t.2) a.db.replica = .ok b.db.replica
  records : ∀ id, b.db.is_change_applied id ↔ a.db.is_change_applied id ∨ ∃ t ∈ took, t.1.change_id = id
  fresh : ∀ t ∈ took, a.db.is_change_applied t.1.change_id = false
  once : (took.map (fun t => t.1.change_id)).Nodup

theorem Advances.refl (a : Progress) : Advances made [] a a :=
  ⟨(List.append_nil _).symm,nofun,rfl,by simp,nofun,List.nodup_nil⟩

theorem Advances.trans {took took' : List (StoredEventRecord × ChangeBody)} (first : Advances made took a b)
    (second : Advances made took' b c) : Advances made (took ++ took') a c where
  applied := by rw [second.applied,first.applied,List.map_append,List.append_assoc]
  genuine t inside := (List.mem_append.mp inside).elim (first.genuine t) (second.genuine t)
  rows := foldlM_append_ok.mpr ⟨_,first.rows,second.rows⟩
  records id := by
    rw [second.records,first.records]
    simp only [List.mem_append,or_and_right,exists_or,or_assoc]
  fresh t inside := by
    rcases List.mem_append.mp inside with inside | inside
    · exact first.fresh t inside
    · have unknown := second.fresh t inside
      by_contra known
      rw [(first.records _).mpr (.inl (Bool.not_eq_false _ ▸ known))] at unknown
      cases unknown
  once := by
    rw [List.map_append,List.nodup_append]
    refine ⟨first.once,second.once,?_⟩
    rintro _ old _ new rfl
    obtain ⟨t,inside,same⟩ := List.mem_map.mp old
    obtain ⟨t',inside',same'⟩ := List.mem_map.mp new
    have unknown := second.fresh t' inside'
    rw [same',(first.records _).mpr (.inr ⟨t,inside,same⟩)] at unknown
    cases unknown

/-- The device has no need of the event: it is its own or recorded. -/
def Settled (ctx : CryptoContext) (progress : Progress) (ev : StoredEvent) : Prop :=
  ev.device_id = ctx.device_id ∨ progress.db.is_change_applied ev.change_id

theorem Advances.settled {took : List (StoredEventRecord × ChangeBody)} (advances : Advances made took a b) (settled : Settled ctx a ev) :
    Settled ctx b ev := settled.imp_right (fun known => (advances.records _).mpr (.inl known))

/-- An event that is taken up is skipped or its body is applied. -/
theorem take_up_ok (lawful : p.Lawful) (family : Family p format made ctx)
    (unforged : Unforged p base64 format made sent around.directory) (inside : ev ∈ sent)
    (ok : take_up p base64 format ctx around a ev = .ok b) :
    (∃ took, Advances made took a b) ∧ b.db.sync_cursor = a.db.sync_cursor ∧ Settled ctx b ev := by
  rcases receive_cases ok with ⟨rfl,settled⟩ | ⟨ours,-,unknown,body,db,opened,applied,rfl⟩
  · exact ⟨⟨[],.refl _⟩,rfl,settled⟩
  · obtain ⟨changed,cursor,inserted⟩ := apply_event_ok applied
    have records (id : String) : db.is_change_applied id ↔ a.db.is_change_applied id ∨ ev.change_id = id := by
      simp only [Database.is_change_applied,inserted,Std.ExtTreeMap.contains_insertIfNew]
      simp [record,or_comm]
    refine ⟨⟨[(record base64 ev,body)],rfl,?_,?_,?_,?_,List.nodup_singleton _⟩,cursor,.inr ((records _).mpr (.inr rfl))⟩
    · rintro t here
      rw [List.mem_singleton.mp here]
      exact open_event_genuine lawful family unforged inside ours opened
    · rw [foldlM_cons_ok]
      exact ⟨_,changed,foldlM_nil_ok.mpr rfl⟩
    · intro id
      rw [records]
      simp [record]
    · rintro t here
      rw [List.mem_singleton.mp here]
      exact unknown

/-! ### Pages -/

/-- A page is taken up to its end, or up to an event that is refused; the cursor stays. -/
theorem page_advances (lawful : p.Lawful) (family : Family p format made ctx)
    (unforged : Unforged p base64 format made sent around.directory) {events : List StoredEvent} (from_ : ∀ ev ∈ events, ev ∈ sent)
    (a : Progress) : (∃ took, Advances made took a (left (events.foldlM (take_up p base64 format ctx around) a))) ∧
      (left (events.foldlM (take_up p base64 format ctx around) a)).db.sync_cursor = a.db.sync_cursor ∧
      ∀ b, events.foldlM (take_up p base64 format ctx around) a = .ok b → ∀ ev ∈ events, Settled ctx b ev := by
  induction events generalizing a with
  | nil => exact ⟨⟨[],.refl a⟩,rfl,fun _ _ => nofun⟩
  | cons ev events ih =>
    rw [List.foldlM_cons]
    cases took : take_up p base64 format ctx around a ev with
    | error failed =>
      have same : failed.1 = a := receive_error took
      refine ⟨⟨[],?_⟩,congrArg (fun progress => progress.db.sync_cursor) same,nofun⟩
      change Advances made [] a failed.1
      rw [same]
      exact .refl a
    | ok b =>
      obtain ⟨⟨first,one⟩,cursor,settled⟩ := take_up_ok lawful family unforged (from_ ev (.head _)) took
      obtain ⟨⟨rest,others⟩,cursor',all⟩ := ih (fun later inside => from_ later (.tail _ inside)) b
      refine ⟨⟨first ++ rest,one.trans others⟩,cursor'.trans cursor,fun c done later inside => ?_⟩
      have done : events.foldlM (take_up p base64 format ctx around) b = .ok c := done
      rcases List.mem_cons.mp inside with rfl | inside
      · rw [done] at others
        exact others.settled settled
      · exact all c done later inside

/-- The cursor is where it was, or behind a page that the relay has sent and whose events are all settled. -/
def Passed (ctx : CryptoContext) (answers : List (Except SyncError PullResponse)) (a b : Progress) : Prop :=
  b.db.sync_cursor = a.db.sync_cursor ∨ ∃ page, .ok page ∈ answers ∧ b.db.sync_cursor = min page.next_cursor i64Max ∧
    ∀ ev ∈ page.events, Settled ctx b ev

/-- One call of `pull`, whether it fails or not. -/
theorem pull_advances (lawful : p.Lawful) (family : Family p format made ctx)
    (unforged : Unforged p base64 format made sent around.directory) {answers : List (Except SyncError PullResponse)}
    (from_ : ∀ page, .ok page ∈ answers → ∀ ev ∈ page.events, ev ∈ sent) (a : Progress) :
    (∃ took, Advances made took a (left (pull_answers p base64 format ctx around answers a))) ∧
      Passed ctx answers a (left (pull_answers p base64 format ctx around answers a)) := by
  induction answers generalizing a with
  | nil => exact ⟨⟨[],.refl a⟩,.inl rfl⟩
  | cons answer answers ih =>
    cases answer with
    | error e => exact ⟨⟨[],.refl a⟩,.inl rfl⟩
    | ok page =>
      unfold pull_answers
      split
      · exact ⟨⟨[],.refl a⟩,.inl rfl⟩
      obtain ⟨⟨took,advances⟩,cursor,settled⟩ := page_advances lawful family unforged (from_ page (.head _)) a
      cases done : page.events.foldlM (take_up p base64 format ctx around) a with
      | error failed =>
        rw [done] at advances cursor
        exact ⟨⟨took,advances⟩,.inl cursor⟩
      | ok b =>
        rw [done] at advances cursor
        cases saved : around.save_cursor page.next_cursor with
        | error e => exact ⟨⟨took,advances⟩,.inl cursor⟩
        | ok u =>
          -- the state behind the page
          have behind : Advances made took a { b with db := b.db.set_sync_cursor page.next_cursor } :=
            ⟨advances.applied,advances.genuine,advances.rows,advances.records,advances.fresh,advances.once⟩
          have here : ∀ ev ∈ page.events, Settled ctx { b with db := b.db.set_sync_cursor page.next_cursor } ev := settled b done
          simp only
          split
          · exact ⟨⟨took,behind⟩,.inr ⟨page,.head _,rfl,here⟩⟩
          · obtain ⟨⟨more,later⟩,passed⟩ := ih (fun next inside => from_ next (.tail _ inside))
              { b with db := b.db.set_sync_cursor page.next_cursor }
            refine ⟨⟨took ++ more,behind.trans later⟩,.inr ?_⟩
            rcases passed with stays | ⟨next,inside,moved,all⟩
            · exact ⟨page,.head _,stays,fun ev there => later.settled (here ev there)⟩
            · exact ⟨next,.tail _ inside,moved,all⟩

/-! ### Runs -/

/-- What a device does: it pulls, or it changes its database in some other way, which leaves the
    records of pulled changes and the cursor. -/
inductive Deed where
  | pull (around : Around) (answers : List (Except SyncError PullResponse))
  | work (db : Database)

/-- The state of the device after a deed, with all that it has applied so far. -/
def Deed.done (p : Primitives) (base64 : Base64) (format : BodyFormat) (ctx : CryptoContext) (progress : Progress) : Deed → Progress
  | .pull around answers => left (pull_answers p base64 format ctx around answers progress)
  | .work db => { progress with
      db := { db with
        sync_applied := progress.db.sync_applied
        sync_state := { db.sync_state with cursor_seq := progress.db.sync_state.cursor_seq } } }

/-- A pull from a relay that sends events of the set and cannot forge signatures. -/
def Deed.Unforged (p : Primitives) (base64 : Base64) (format : BodyFormat) (made : List Encryption) (sent : Set StoredEvent) : Deed → Prop
  | .pull around answers => Untrusted.Unforged p base64 format made sent around.directory ∧
      ∀ page, .ok page ∈ answers → ∀ ev ∈ page.events, ev ∈ sent
  | .work _ => True

/-- What has been applied since the start: genuine changes, each once and none of those that were
    recorded then. -/
structure Sound (made : List Encryption) (start : Database) (progress : Progress) : Prop where
  genuine : ∀ ev ∈ progress.applied, ∃ body, Genuine made ev body
  once : (progress.applied.map (fun ev => ev.change_id)).Nodup
  recorded : ∀ ev ∈ progress.applied, progress.db.is_change_applied ev.change_id
  fresh : ∀ ev ∈ progress.applied, start.is_change_applied ev.change_id = false
  kept : ∀ id, start.is_change_applied id → progress.db.is_change_applied id

theorem Sound.advances {start : Database} {took : List (StoredEventRecord × ChangeBody)} (sound : Sound made start a)
    (advances : Advances made took a b) : Sound made start b := by
  have parts {ev : StoredEventRecord} (inside : ev ∈ b.applied) : ev ∈ a.applied ∨ ∃ t ∈ took, t.1 = ev := by
    rw [advances.applied] at inside
    exact (List.mem_append.mp inside).imp_right List.mem_map.mp
  refine ⟨fun ev inside => ?_,?_,fun ev inside => ?_,fun ev inside => ?_,fun id known => ?_⟩
  · rcases parts inside with old | ⟨t,new,rfl⟩
    · exact sound.genuine ev old
    · exact ⟨t.2,advances.genuine t new⟩
  · rw [advances.applied,List.map_append,List.map_map,List.nodup_append]
    refine ⟨sound.once,advances.once,?_⟩
    rintro _ old _ new rfl
    obtain ⟨ev,inside,same⟩ := List.mem_map.mp old
    obtain ⟨t,inside',same'⟩ := List.mem_map.mp new
    have unknown := advances.fresh t inside'
    rw [show t.1.change_id = ev.change_id from same'.trans same.symm,sound.recorded ev inside] at unknown
    cases unknown
  · rcases parts inside with old | ⟨t,new,rfl⟩
    · exact (advances.records _).mpr (.inl (sound.recorded ev old))
    · exact (advances.records _).mpr (.inr ⟨t,new,rfl⟩)
  · rcases parts inside with old | ⟨t,new,rfl⟩
    · exact sound.fresh ev old
    · by_contra known
      have unknown := advances.fresh t new
      rw [sound.kept _ (Bool.not_eq_false _ ▸ known)] at unknown
      cases unknown
  · exact (advances.records id).mpr (.inl (sound.kept id known))

theorem sound_run (lawful : p.Lawful) (family : Family p format made ctx) {deeds : List Deed}
    (unforged : ∀ deed ∈ deeds, deed.Unforged p base64 format made sent) {start : Database} (sound : Sound made start a) :
    Sound made start (deeds.foldl (Deed.done p base64 format ctx) a) := by
  induction deeds generalizing a with
  | nil => exact sound
  | cons deed deeds ih =>
    refine ih (fun later inside => unforged later (.tail _ inside)) ?_
    cases deed with
    | pull around answers =>
      obtain ⟨honest,from_⟩ := unforged _ (.head _)
      obtain ⟨⟨took,advances⟩,-⟩ := pull_advances lawful family honest from_ a
      exact sound.advances advances
    | work db => exact ⟨sound.genuine,sound.once,sound.recorded,sound.fresh,sound.kept⟩

/-- Whatever a relay sends that cannot forge signatures, over any run of pulls and other work: a device
    applies only changes that the named devices have encrypted under these ids, each once and none that
    was recorded before. In each pull the rows become what these bodies make of them, one after the other,
    and the cursor passes only pages whose events are the device's own or recorded; an event that is
    refused leaves everything as it is. -/
theorem pull_untrusted (lawful : p.Lawful) (family : Family p format made ctx) {deeds : List Deed}
    (unforged : ∀ deed ∈ deeds, deed.Unforged p base64 format made sent) (start : Database) :
    let progress := deeds.foldl (Deed.done p base64 format ctx) ⟨start,[]⟩
    (∀ ev ∈ progress.applied, ∃ body, Genuine made ev body) ∧ (progress.applied.map (fun ev => ev.change_id)).Nodup ∧
    (∀ ev ∈ progress.applied, start.is_change_applied ev.change_id = false) ∧
    (∀ around answers, (Deed.pull around answers).Unforged p base64 format made sent →
      let after := left (pull_answers p base64 format ctx around answers progress)
      (∃ took : List (StoredEventRecord × ChangeBody), after.applied = progress.applied ++ took.map Prod.fst ∧
        (∀ t ∈ took, Genuine made t.1 t.2) ∧
        took.foldlM (fun r t => r.apply_change t.2) progress.db.replica = .ok after.db.replica) ∧
      Passed ctx answers progress after) ∧
    ∀ around ev refused, take_up p base64 format ctx around progress ev = .error refused → refused.1 = progress := by
  intro progress
  have sound : Sound made start progress := by
    exact sound_run lawful family unforged ⟨nofun,List.nodup_nil,nofun,nofun,fun _ => id⟩
  refine ⟨sound.genuine,sound.once,sound.fresh,?_,fun around ev refused failed => receive_error failed⟩
  rintro around answers ⟨honest,from_⟩
  obtain ⟨⟨took,advances⟩,passed⟩ := pull_advances lawful family honest from_ progress
  exact ⟨⟨took,advances.applied,advances.genuine,advances.rows⟩,passed⟩

end

section
attribute [local instance] plainSqlite plainScheduler

def phone : CryptoContext := ⟨⟨.replicate KEY_LEN 6⟩,"a","phone",.replicate KEY_LEN 1,4⟩
def tablet : CryptoContext := { phone with device_id := "tablet", ed25519_signing := .replicate KEY_LEN 2 }

def tagDeleted : ChangeBody := ⟨.Tag,"t",.Delete,⟨1,0,"phone"⟩,none,∅,[]⟩

/-- A format for this body alone. -/
def oneBody : BodyFormat := ⟨fun _ => some [1],fun _ => some tagDeleted⟩

def deletion : Encryption := ⟨phone,some (.replicate NONCE_LEN 3),"x",tagDeleted⟩

def deletionBytes : List UInt8 := (phone.encrypt_body plainPrimitives oneBody deletion.nonce "x" tagDeleted).toOption.getD []

def deletionEvent : StoredEvent where
  protocol_version := PROTOCOL_VERSION
  account_id := "a"
  device_id := "phone"
  change_id := "x"
  entity_ref := (phone.header plainPrimitives "x" tagDeleted).entity_ref
  key_epoch := 4
  blob_refs := []
  ciphertext_b64 := plainBase64.encode deletionBytes
  sig_b64 := plainBase64.encode (plainPrimitives.sign_event phone.ed25519_signing (phone.header plainPrimitives "x" tagDeleted)
    deletionBytes).toList
  server_seq := 1

/-- The event under another change id. -/
def renamedEvent : StoredEvent := { deletionEvent with change_id := "y", server_seq := 2 }

def phoneListed : Around where
  directory device_id := if device_id = "phone" then some (plainPrimitives.ed25519_public phone.ed25519_signing) else none
  fetch_blobs _ _ := .ok ()
  transaction _ := .ok ()
  save_cursor _ := .ok ()
  now_millis _ := 0

def forgedPage : PullResponse := ⟨[deletionEvent,deletionEvent,renamedEvent],9⟩

theorem deletion_family : Family plainPrimitives oneBody [deletion] tablet where
  exact call inside bytes written := by rw [List.mem_singleton.mp inside]; rfl
  short call inside := by
    rw [List.mem_singleton.mp inside]
    refine ⟨by decide +kernel,by decide +kernel,by decide +kernel,fun r here => ?_,nofun,by decide +kernel⟩
    cases here
    rw [Primitives.length_entity_ref]
    decide
  same_key call inside := by rw [List.mem_singleton.mp inside]; rfl

theorem deletion_encrypted : phone.encrypt_body plainPrimitives oneBody deletion.nonce "x" tagDeleted = .ok deletionBytes := by
  have ran : (phone.encrypt_body plainPrimitives oneBody deletion.nonce "x" tagDeleted).isOk = true := by decide +kernel
  unfold deletionBytes
  cases encrypted : phone.encrypt_body plainPrimitives oneBody deletion.nonce "x" tagDeleted with
  | ok bytes => rfl
  | error e => rw [encrypted] at ran; cases ran

/-- The signature of the event is one of its maker, and under the other change id it does not verify. -/
theorem deletion_unforged : Unforged plainPrimitives plainBase64 oneBody [deletion] {deletionEvent,renamedEvent} phoneListed.directory := by
  have bad : plainPrimitives.ed25519_verify (plainPrimitives.ed25519_public phone.ed25519_signing)
      (event_signing_bytes renamedEvent.header_for deletionBytes)
      (plainPrimitives.sign_event phone.ed25519_signing (phone.header plainPrimitives "x" tagDeleted) deletionBytes) =
      .error .BadSignature := by decide +kernel
  rintro ev (rfl | rfl) pub listed ciphertext sig decoded decoded' verifies
  · obtain rfl : deletionBytes = ciphertext := Option.some.inj ((plainBase64.decode_encode deletionBytes).symm.trans decoded)
    have signs : Signs plainPrimitives plainBase64 oneBody [deletion] "phone" (event_signing_bytes
        (deletion.ctx.header plainPrimitives deletion.change_id deletion.body) deletionBytes) := .event (.head _) rfl deletion_encrypted
    exact signs
  · obtain rfl : deletionBytes = ciphertext := Option.some.inj ((plainBase64.decode_encode deletionBytes).symm.trans decoded)
    obtain rfl : plainPrimitives.sign_event phone.ed25519_signing (phone.header plainPrimitives "x" tagDeleted) deletionBytes = sig :=
      Subtype.ext (Option.some.inj ((plainBase64.decode_encode _).symm.trans decoded'))
    obtain rfl : plainPrimitives.ed25519_public phone.ed25519_signing = pub := Option.some.inj listed
    cases bad.symm.trans verifies

/-- A page has the event of a phone twice and then once more under another change id, which its
    signature does not cover. -/
theorem pull_untrusted_forged : ∃ deeds : List Deed,
    let progress := deeds.foldl (Deed.done plainPrimitives plainBase64 oneBody tablet) ⟨freshDevice,[]⟩
    progress.applied.map (fun ev => ev.change_id) = ["x"] ∧ progress.db.sync_cursor = 0 ∧
      ∀ ev ∈ progress.applied, ∃ body, Genuine [deletion] ev body := by
  have unforged : ∀ deed ∈ [Deed.pull phoneListed [.ok forgedPage]],
      deed.Unforged plainPrimitives plainBase64 oneBody [deletion] {deletionEvent,renamedEvent} := by
    intro deed inside
    rw [List.mem_singleton.mp inside]
    refine ⟨deletion_unforged,fun page answered ev here => ?_⟩
    cases List.mem_singleton.mp answered
    simpa [forgedPage] using here
  have ran : let progress := Deed.done plainPrimitives plainBase64 oneBody tablet ⟨freshDevice,[]⟩ (.pull phoneListed [.ok forgedPage])
      progress.applied.map (fun ev => ev.change_id) = ["x"] ∧ progress.db.sync_cursor = 0 := by decide +kernel
  exact ⟨[.pull phoneListed [.ok forgedPage]],ran.1,ran.2,
    (pull_untrusted plainPrimitives_lawful deletion_family unforged freshDevice).1⟩

end

end Untrusted

end Pergamon
