import Pergamon.Push

/-!
Pulling the event log. A device reads the log page by page from its cursor, skips its
own changes and those it has recorded, and applies each other one in a transaction that
also records it; the cursor follows once a page is done. A page request, a signature, a
decryption, a blob, a transaction or the save of the cursor may fail, which ends the
pull.

At any time the device has applied the changes of the other devices up to some event of
the log that is not before the cursor, each once and in order, and a pull that is run
again after others that failed ends where one that is not interrupted does
(`pull_exactly_once`).
-/
namespace Pergamon
open Fallible NumberedLog

namespace Database

def sync_cursor (db : Database) : ℕ := db.sync_state.cursor_seq

/-- Persist the pull cursor. -/
def set_sync_cursor (db : Database) (seq : ℕ) : Database :=
  { db with sync_state := { db.sync_state with cursor_seq := min seq i64Max } }

def is_change_applied (db : Database) (change_id : String) : Bool := db.sync_applied.contains change_id

/-- Record a pulled change as applied; a record stays as it is. -/
def mark_change_applied (db : Database) (change_id : String) (server_seq : ℕ) : Database :=
  { db with sync_applied := db.sync_applied.insertIfNew change_id (min server_seq i64Max) }

/-- A transaction leaves what its body leaves, or nothing. -/
def in_transaction (db : Database) (f : Database → Except SyncError Database) : Database × Option SyncError :=
  match f db with
  | .ok db => (db,none)
  | .error e => (db,some e)

end Database

/-- What a device finds around it during one call of `pull`: how the server answers, by
    the cursor that is asked for, the keys of the devices, its cryptography and blobs, and
    where its database fails and what time it is, by the event. -/
structure Surroundings where
  server : ℕ → Except SyncError Store
  directory : String → Option (List UInt8)
  verify_event_sig : StoredEventRecord → List UInt8 → Except SyncError Bool
  decrypt_change : StoredEventRecord → Except SyncError ChangeBody
  fetch_blobs : UInt32 → ChangeBody → Except SyncError Unit
  transaction : StoredEventRecord → Except StorageError Unit
  save_cursor : ℕ → Except StorageError Unit
  now_millis : StoredEventRecord → UInt64

/-- The state of a device during a pull and the events that the pull has applied; the
    source counts these. -/
structure Progress where
  db : Database
  applied : List StoredEventRecord

namespace Surroundings

/-- Authenticate a pulled event against the device roster. -/
def verify_signature (s : Surroundings) (ev : StoredEventRecord) : Except SyncError Unit :=
  match s.directory ev.device_id with
  | none => .error (.UnknownSigner ev.device_id)
  | some signer_pub => do
    let valid ← s.verify_event_sig ev signer_pub
    if valid then .ok () else .error (.BadEventSignature ev.change_id ev.device_id)

/-- What comes before the transaction of an event. -/
def open_event (s : Surroundings) (ev : StoredEventRecord) : Except SyncError ChangeBody := do
  s.verify_signature ev
  let body ← s.decrypt_change ev
  s.fetch_blobs ev.key_epoch body
  .ok body

end Surroundings

section
variable [Sqlite] [Scheduler]

/-- The body of the transaction of an event. -/
def apply_event (s : Surroundings) (ev : StoredEventRecord) (body : ChangeBody) (db : Database) :
    Except SyncError Database := do
  let db := db.observe_remote_hlc body.clock (s.now_millis ev)
  let replica ← (db.replica.apply_change body).mapError SyncError.Storage
  (s.transaction ev).mapError SyncError.Storage
  .ok ({ db with replica := replica }.mark_change_applied ev.change_id ev.server_seq)

/-- Take up one event of a page. -/
def receive (s : Surroundings) (account_id device_id : String) (p : Progress) (ev : StoredEventRecord) :
    Except (Progress × SyncError) Progress :=
  if ev.account_id ≠ account_id then
    .error (p,.Protocol "relay returned an event for a different content account")
  else if ev.device_id = device_id then .ok p
  else if p.db.is_change_applied ev.change_id then .ok p
  else
    match s.open_event ev with
    | .error e => .error (p,e)
    | .ok body =>
      match p.db.in_transaction (apply_event s ev body) with
      | (db,none) => .ok ⟨db,p.applied ++ [ev]⟩
      | (db,some e) => .error ({ p with db := db },e)

/-- The loop over the pages, for at most `fuel` requests. An error comes with the state
    that it leaves. -/
def pull_pages (s : Surroundings) (account_id device_id : String) (limit : ℕ) :
    ℕ → Progress → Option (Except (Progress × SyncError) Progress)
  | 0,_ => none
  | fuel + 1,p =>
    match s.server p.db.sync_cursor with
    | .error e => some (.error (p,e))
    | .ok store =>
      let page := Pergamon.pull store account_id p.db.sync_cursor (some limit)
      if page.events.isEmpty then some (.ok p)
      else
        match page.events.foldlM (receive s account_id device_id) p with
        | .error failed => some (.error failed)
        | .ok p =>
          match s.save_cursor page.next_cursor with
          | .error e => some (.error (p,.Storage e))
          | .ok () =>
            let p := { p with db := p.db.set_sync_cursor page.next_cursor }
            if page.events.length < limit then some (.ok p) else pull_pages s account_id device_id limit fuel p

/-- Pull and apply all events past the local cursor. -/
def Database.pull (db : Database) (s : Surroundings) (account_id device_id : String) (limit fuel : ℕ) :
    Option (Except (Progress × SyncError) Progress) :=
  pull_pages s account_id device_id limit fuel ⟨db,[]⟩

end

/-! ### One event -/

/-- The events that other devices wrote. -/
def foreign (device_id : String) (l : List StoredEventRecord) : List StoredEventRecord :=
  l.filter (fun ev => ev.device_id ≠ device_id)

/-- The records of a device are those of the events in the list. -/
def Recorded (db : Database) (l : List StoredEventRecord) : Prop :=
  ∀ id n, db.sync_applied[id]? = some n ↔ ∃ ev ∈ l, ev.change_id = id ∧ ev.server_seq = n

/-- Decryption, where it succeeds, gives the body of an event. -/
def Surroundings.Decrypts (s : Surroundings) (body : StoredEventRecord → ChangeBody) : Prop :=
  ∀ ev b, s.decrypt_change ev = .ok b → b = body ev

section
variable [Sqlite] [Scheduler] {s : Surroundings} {body : StoredEventRecord → ChangeBody}
  {account_id device_id : String} {p p' : Progress} {ev : StoredEventRecord}

/-- Apply the changes of some events, one after the other. -/
def apply_events (body : StoredEventRecord → ChangeBody) (events : List StoredEventRecord) (r : Replica) :
    Except StorageError Replica := events.foldlM (fun r ev => r.apply_change (body ev)) r

omit [Sqlite] [Scheduler] in
theorem open_event_ok {b : ChangeBody} (decrypts : s.Decrypts body) (opened : s.open_event ev = .ok b) : b = body ev := by
  simp only [Surroundings.open_event,bind_ok,Except.ok.injEq] at opened
  obtain ⟨-,-,b',decrypted,-,-,rfl⟩ := opened
  exact decrypts ev b' decrypted

theorem apply_event_ok {b : ChangeBody} {db db' : Database} (applied : apply_event s ev b db = .ok db') :
    db.replica.apply_change b = .ok db'.replica ∧ db'.sync_cursor = db.sync_cursor ∧
      db'.sync_applied = db.sync_applied.insertIfNew ev.change_id (min ev.server_seq i64Max) := by
  simp only [apply_event,bind_ok,Except.ok.injEq] at applied
  obtain ⟨replica,changed,-,-,rfl⟩ := applied
  refine ⟨?_,rfl,rfl⟩
  change (db.replica.apply_change b).mapError SyncError.Storage = .ok replica at changed
  cases result : db.replica.apply_change b with
  | ok r =>
    rw [result] at changed
    exact congrArg _ (Except.ok.inj changed)
  | error e =>
    rw [result] at changed
    cases changed

/-- An event that is not applied changes nothing. -/
theorem receive_error {failed : Progress × SyncError} (error : receive s account_id device_id p ev = .error failed) :
    failed.1 = p := by
  simp only [receive,Database.in_transaction] at error
  split at error
  · exact (Except.error.inj error) ▸ rfl
  split at error
  · cases error
  split at error
  · cases error
  split at error
  · exact (Except.error.inj error) ▸ rfl
  · split at error
    · cases error
    · next left =>
      split at left
      · cases left
      · obtain ⟨rfl,-⟩ := Prod.mk.inj left
        exact (Except.error.inj error) ▸ rfl

/-- An event is skipped as the device's own or as recorded, or it is opened and its transaction succeeds. -/
theorem receive_cases (ok : receive s account_id device_id p ev = .ok p') :
    p' = p ∧ (ev.device_id = device_id ∨ p.db.is_change_applied ev.change_id) ∨
    (ev.account_id = account_id ∧ ev.device_id ≠ device_id ∧ p.db.is_change_applied ev.change_id = false ∧
      ∃ b db, s.open_event ev = .ok b ∧ apply_event s ev b p.db = .ok db ∧ p' = ⟨db,p.applied ++ [ev]⟩) := by
  simp only [receive,Database.in_transaction] at ok
  split at ok
  · cases ok
  next owned =>
  split at ok
  · next own => exact .inl ⟨(Except.ok.inj ok).symm,.inl own⟩
  split at ok
  · next known => exact .inl ⟨(Except.ok.inj ok).symm,.inr known⟩
  split at ok
  · cases ok
  · next other unknown _ b opened =>
    split at ok
    · next left =>
      split at left
      · next db applied =>
        obtain ⟨rfl,-⟩ := Prod.mk.inj left
        exact .inr ⟨not_not.mp owned,other,by simpa using unknown,b,db,opened,applied,(Except.ok.inj ok).symm⟩
      · cases (Prod.mk.inj left).2
    · cases ok

/-- An event is skipped as the device's own or as recorded, or it is applied. -/
theorem receive_ok (decrypts : s.Decrypts body) (ok : receive s account_id device_id p ev = .ok p') :
    p' = p ∧ (ev.device_id = device_id ∨ p.db.is_change_applied ev.change_id) ∨
    (ev.device_id ≠ device_id ∧ p.db.is_change_applied ev.change_id = false ∧ p'.applied = p.applied ++ [ev] ∧
      p.db.replica.apply_change (body ev) = .ok p'.db.replica ∧ p'.db.sync_cursor = p.db.sync_cursor ∧
      p'.db.sync_applied = p.db.sync_applied.insertIfNew ev.change_id (min ev.server_seq i64Max)) := by
  rcases receive_cases ok with skipped | ⟨-,other,unknown,b,db,opened,applied,rfl⟩
  · exact .inl skipped
  · obtain rfl := open_event_ok decrypts opened
    obtain ⟨changed,cursor,records⟩ := apply_event_ok applied
    exact .inr ⟨other,unknown,rfl,changed,cursor,records⟩

/-! ### Pages -/

/-- A log that a server holds for an account. -/
structure WellLog (account_id : String) (l : List StoredEventRecord) : Prop where
  numbered : Numbered StoredEventRecord.server_seq l
  distinct : (l.map fun ev => ev.change_id).Nodup
  fits : l.length ≤ i64Max
  owned : ∀ ev ∈ l, ev.account_id = account_id

omit [Sqlite] [Scheduler] in
theorem Store.WellNumbered.wellLog {store : Store} (well : store.WellNumbered) (account_id : String) :
    WellLog account_id (store.log account_id) :=
  ⟨(well account_id).1,(well account_id).2.1,(well account_id).2.2,
    fun _ inside => of_decide_eq_true (List.mem_filter.mp inside).2⟩

/-- A device that has applied the changes of other devices among the first `k` events of
    a log: those in `seen` before, and those of the pull since. -/
structure Stage (body : StoredEventRecord → ChangeBody) (device_id : String) (l seen : List StoredEventRecord)
    (r : Replica) (k : ℕ) (p : Progress) : Prop where
  within : k ≤ l.length
  recorded : Recorded p.db (foreign device_id (l.take k))
  history : seen ++ p.applied = foreign device_id (l.take k)
  replica : apply_events body p.applied r = .ok p.db.replica

variable {l seen : List StoredEventRecord} {r : Replica} {k : ℕ}

omit [Sqlite] [Scheduler] in
theorem foreign_append (l l' : List StoredEventRecord) :
    foreign device_id (l ++ l') = foreign device_id l ++ foreign device_id l' := List.filter_append ..

omit [Sqlite] [Scheduler] in
theorem Recorded.known {db : Database} (recorded : Recorded db l) (inside : ev ∈ l) :
    db.is_change_applied ev.change_id := by
  have held : db.sync_applied[ev.change_id]? = some ev.server_seq := (recorded _ _).mpr ⟨ev,inside,rfl,rfl⟩
  simp [Database.is_change_applied,Std.ExtTreeMap.contains_eq_isSome_getElem?,held]

omit [Sqlite] [Scheduler] in
theorem Recorded.unknown {db : Database} (recorded : Recorded db l) (fresh : ∀ old ∈ l, old.change_id ≠ ev.change_id) :
    db.is_change_applied ev.change_id = false := by
  have missing : db.sync_applied[ev.change_id]? = none := by
    rw [Option.eq_none_iff_forall_ne_some]
    intro n held
    obtain ⟨old,inside,same,-⟩ := (recorded _ _).mp held
    exact fresh old inside same
  simp [Database.is_change_applied,Std.ExtTreeMap.contains_eq_isSome_getElem?,missing]

omit [Sqlite] [Scheduler] in
theorem Recorded.concat {db db' : Database} (recorded : Recorded db l)
    (fresh : ∀ old ∈ l, old.change_id ≠ ev.change_id)
    (inserted : db'.sync_applied = db.sync_applied.insertIfNew ev.change_id ev.server_seq) :
    Recorded db' (l ++ [ev]) := by
  intro id n
  have missing : ev.change_id ∉ db.sync_applied := by
    have unknown := recorded.unknown fresh
    rwa [Database.is_change_applied,← Bool.not_eq_true,Std.ExtTreeMap.contains_iff_mem] at unknown
  rw [inserted,Std.ExtTreeMap.getElem?_insertIfNew]
  by_cases same : ev.change_id = id
  · subst same
    simp only [Std.ReflCmp.compare_self,missing,not_false_eq_true,and_self,if_true,Option.some.injEq,List.mem_append,
      List.mem_singleton,or_and_right,exists_or,exists_eq_left,true_and]
    refine ⟨.inr,?_⟩
    rintro (⟨old,inside,twin,-⟩ | number)
    · exact absurd twin (fresh old inside)
    · exact number
  · simp [same,or_and_right,exists_or,recorded id n]

/-- One event moves a device at most past it. -/
theorem Stage.receive (stage : Stage body device_id l seen r k p) (well : WellLog account_id l) (decrypts : s.Decrypts body) {i : ℕ} (reached : i ≤ k)
    (here : l[i]? = some ev) (ok : receive s account_id device_id p ev = .ok p') :
    Stage body device_id l seen r (max k (i + 1)) p' ∧ p'.db.sync_cursor = p.db.sync_cursor := by
  obtain ⟨inside,rfl⟩ := List.getElem?_eq_some_iff.mp here
  rcases Nat.lt_or_eq_of_le reached with before | rfl
  · -- an event that was taken up before
    rw [max_eq_left before]
    rcases receive_ok decrypts ok with ⟨rfl,-⟩ | ⟨other,unknown,-⟩
    · exact ⟨stage,rfl⟩
    · have old : l[i] ∈ foreign device_id (l.take k) :=
        List.mem_filter.mpr ⟨List.mem_take_iff_getElem.mpr ⟨i,by omega,rfl⟩,by simpa using other⟩
      rw [stage.recorded.known old] at unknown
      cases unknown
  · rw [max_eq_right (Nat.le_succ i)]
    have longer : l.take (i + 1) = l.take i ++ [l[i]] := List.take_succ_eq_append_getElem inside
    have fresh : ∀ old ∈ foreign device_id (l.take i), old.change_id ≠ l[i].change_id := by
      intro old there
      have distinct := (List.nodup_append.mp (List.map_append ▸ longer ▸ (List.take_sublist (i + 1) l).map _ |>.nodup well.distinct)).2.2
      exact distinct _ (List.mem_map.mpr ⟨old,List.mem_of_mem_filter there,rfl⟩) _ (by simp)
    rcases receive_ok decrypts ok with ⟨rfl,skipped⟩ | ⟨other,-,applied,changed,cursor,inserted⟩
    · rcases skipped with own | known
      · have same : foreign device_id (l.take (i + 1)) = foreign device_id (l.take i) := by
          rw [longer,foreign_append]
          simp [foreign,own]
        refine ⟨⟨inside,?_,?_,stage.replica⟩,rfl⟩
        · rw [same]; exact stage.recorded
        · rw [same]; exact stage.history
      · rw [stage.recorded.unknown fresh] at known
        cases known
    · have grown : foreign device_id (l.take (i + 1)) = foreign device_id (l.take i) ++ [l[i]] := by
        rw [longer,foreign_append]
        simp [foreign,other]
      rw [min_eq_left ((seq_le well.numbered (List.getElem_mem _)).trans well.fits)] at inserted
      refine ⟨⟨inside,?_,?_,?_⟩,cursor⟩
      · rw [grown]; exact stage.recorded.concat fresh inserted
      · rw [grown,applied,← List.append_assoc,stage.history]
      · rw [applied,apply_events,foldlM_concat_ok]
        exact ⟨_,stage.replica,changed⟩

/-- The state that a pull leaves, whether it fails or not. -/
def left : Except (Progress × SyncError) Progress → Progress
  | .ok p => p
  | .error (p,_) => p

/-- A page moves a device at most past its end, and there if nothing fails. -/
theorem Stage.events (stage : Stage body device_id l seen r k p) (well : WellLog account_id l) (decrypts : s.Decrypts body) {i : ℕ} (reached : i ≤ k)
    {events rest : List StoredEventRecord} (here : l.drop i = events ++ rest) :
    ∃ k', k ≤ k' ∧ k' ≤ max k (i + events.length) ∧
      Stage body device_id l seen r k' (left (events.foldlM (Pergamon.receive s account_id device_id) p)) ∧
      (left (events.foldlM (Pergamon.receive s account_id device_id) p)).db.sync_cursor = p.db.sync_cursor ∧
      ∀ p', events.foldlM (Pergamon.receive s account_id device_id) p = .ok p' → k' = max k (i + events.length) := by
  induction events generalizing i k p with
  | nil => exact ⟨k,le_refl _,le_max_left _ _,stage,rfl,fun _ _ => (max_eq_left reached).symm⟩
  | cons ev events ih =>
    have first : l[i]? = some ev := by
      rw [← List.head?_drop,here]
      rfl
    have next : l.drop (i + 1) = events ++ rest := by
      rw [← List.tail_drop,here]
      rfl
    rw [List.foldlM_cons]
    cases result : Pergamon.receive s account_id device_id p ev with
    | error failed =>
      have same := receive_error result
      refine ⟨k,le_refl _,le_max_left _ _,?_,?_,?_⟩
      · change Stage body device_id l seen r k failed.1
        exact same ▸ stage
      · change failed.1.db.sync_cursor = _
        rw [same]
      · rintro p' ⟨⟩
    | ok q =>
      obtain ⟨moved,cursor⟩ := stage.receive well decrypts reached first result
      obtain ⟨k',lower,upper,final,same,whole⟩ := ih moved (le_max_right _ _) next
      refine ⟨k',(le_max_left _ _).trans lower,?_,final,same.trans cursor,fun p' ok => ?_⟩
      · rw [List.length_cons]
        omega
      · rw [whole p' ok,List.length_cons]
        omega

/-- The server answers with logs that go no further than the given one. -/
def Surroundings.Honest (s : Surroundings) (account_id : String) (l : List StoredEventRecord) : Prop :=
  ∀ c store, s.server c = .ok store → store.WellNumbered ∧ store.log account_id <+: l

/-- Where a pull from a cursor stops: a client that asks for more than the server gives
    takes every page for the last. -/
def stop (limit c : ℕ) (l : List StoredEventRecord) : ℕ :=
  if limit ≤ MAX_LIMIT then l.length else min (c + MAX_LIMIT) l.length

omit [Sqlite] [Scheduler] in
/-- A page of an honest server is the next part of the log. -/
theorem honest_page {store : Store} (well : store.WellNumbered) (older : store.log account_id <+: l) {c limit : ℕ}
    (fits : c ≤ i64Max) (more : (Pergamon.pull store account_id c (some limit)).events ≠ []) :
    (∃ rest, l.drop c = (Pergamon.pull store account_id c (some limit)).events ++ rest) ∧
      (Pergamon.pull store account_id c (some limit)).next_cursor =
        c + (Pergamon.pull store account_id c (some limit)).events.length ∧
      (Pergamon.pull store account_id c (some limit)).events.length =
        min (max 1 (min limit MAX_LIMIT)) ((store.log account_id).length - c) := by
  have events : (Pergamon.pull store account_id c (some limit)).events =
      page (store.log account_id) c (max 1 (min limit MAX_LIMIT)) := Store.pull_eq well fits (some limit)
  refine ⟨?_,Store.next_cursor_eq well fits (some limit),by rw [events,length_page]⟩
  obtain ⟨new,rfl⟩ := older
  have inside : c ≤ (store.log account_id).length := by
    by_contra past
    refine more (List.eq_nil_of_length_eq_zero ?_)
    rw [events,length_page]
    omega
  rw [events,List.drop_append_of_le_length inside,page]
  refine ⟨((store.log account_id).drop c).drop (max 1 (min limit MAX_LIMIT)) ++ new,?_⟩
  rw [← List.append_assoc,List.take_append_drop]

/-- How a pull from the cursor `c` ends for a device that was at `k`. -/
structure Ends (limit c k : ℕ) (l : List StoredEventRecord) (result : Except (Progress × SyncError) Progress)
    (k' : ℕ) : Prop where
  forward : k ≤ k'
  bounded : k' ≤ max k (stop limit c l)
  behind : (left result).db.sync_cursor ≤ k'
  onward : c ≤ (left result).db.sync_cursor
  resumes : ∀ failed, result = .error failed → stop limit (left result).db.sync_cursor l = stop limit c l

omit [Sqlite] [Scheduler] in
/-- A pull that fails before its cursor moves. -/
theorem Ends.failed {limit c k k' : ℕ} {p : Progress} {e : SyncError} (forward : k ≤ k')
    (bounded : k' ≤ max k (stop limit c l)) (cursor : p.db.sync_cursor = c) (reached : c ≤ k) :
    Ends limit c k l (.error (p,e)) k' := by
  refine ⟨forward,bounded,?_,?_,fun _ _ => ?_⟩
  · exact cursor.le.trans (reached.trans forward)
  · exact cursor.ge
  · exact congrArg (stop limit · l) cursor

omit [Sqlite] [Scheduler] in
theorem page_within_stop {limit c n m : ℕ} (older : m ≤ l.length) (size : n = min (max 1 (min limit MAX_LIMIT)) (m - c))
    (some_event : n ≠ 0) : c + n ≤ stop limit c l := by
  have cap : MAX_LIMIT = 1000 := rfl
  unfold stop
  split <;> omega

omit [Sqlite] [Scheduler] in
theorem stop_le {limit c : ℕ} : stop limit c l ≤ l.length := by
  unfold stop
  split
  · exact le_rfl
  · exact min_le_right _ _

omit [Sqlite] [Scheduler] in
/-- A pull that reads on from the end of the log stops there. -/
theorem stop_finished {limit c : ℕ} (finished : l.length ≤ c) : stop limit c l = l.length := by
  unfold stop
  split
  · rfl
  · exact min_eq_right (finished.trans (Nat.le_add_right _ _))

omit [Sqlite] [Scheduler] in
/-- A short page is the last one. -/
theorem stop_short {limit c n : ℕ} (within : c ≤ l.length) (size : n = min (max 1 (min limit MAX_LIMIT)) (l.length - c))
    (short : n < limit) : stop limit c l = c + n := by
  have cap : MAX_LIMIT = 1000 := rfl
  unfold stop
  split <;> omega

/-- Each page goes on from where the one before it stopped, and a pull that fails leaves
    a cursor from which a later one goes as far as this would have. -/
theorem Stage.pages (stage : Stage body device_id l seen r k p) (well : WellLog account_id l)
    (decrypts : s.Decrypts body) (honest : s.Honest account_id l) (reached : p.db.sync_cursor ≤ k) {limit fuel : ℕ}
    {result : Except (Progress × SyncError) Progress}
    (done : pull_pages s account_id device_id limit fuel p = some result) :
    ∃ k', Stage body device_id l seen r k' (left result) ∧ Ends limit p.db.sync_cursor k l result k' ∧
      ((∀ c store, s.server c = .ok store → store.log account_id = l) → ∀ p', result = .ok p' →
        k' = max k (stop limit p.db.sync_cursor l) ∧ p'.db.sync_cursor = stop limit p.db.sync_cursor l) := by
  induction fuel generalizing k p with
  | zero => cases done
  | succ fuel ih =>
    have fits : p.db.sync_cursor ≤ i64Max := reached.trans (stage.within.trans well.fits)
    unfold pull_pages at done
    split at done
    · obtain rfl := Option.some.inj done
      exact ⟨k,stage,.failed le_rfl (le_max_left _ _) rfl reached,fun _ _ ok => nomatch ok⟩
    next store answered =>
    obtain ⟨numbered,older⟩ := honest _ _ answered
    simp only at done
    split at done
    · next nothing =>
      obtain rfl := Option.some.inj done
      refine ⟨k,stage,⟨le_rfl,le_max_left _ _,reached,le_rfl,fun _ failed => nomatch failed⟩,?_⟩
      intro same p' ok
      obtain rfl := Except.ok.inj ok
      -- an empty page is asked for at the end of the log only
      have finished : l.length ≤ p.db.sync_cursor := by
        have events : (Pergamon.pull store account_id p.db.sync_cursor (some limit)).events = _ :=
          Store.pull_eq numbered fits (some limit)
        rw [List.isEmpty_iff.mp nothing,same _ _ answered] at events
        have size := (congrArg List.length events).trans (length_page ..)
        rw [List.length_nil] at size
        omega
      have bound := stage.within
      rw [stop_finished finished]
      omega
    next more =>
    obtain ⟨⟨rest,here⟩,next,size⟩ := honest_page numbered older fits (by simpa using more)
    set page := Pergamon.pull store account_id p.db.sync_cursor (some limit)
    have inside : p.db.sync_cursor + page.events.length ≤ stop limit p.db.sync_cursor l :=
      page_within_stop older.length_le size (by simpa using more)
    obtain ⟨k',forward,bounded,final,cursor,whole⟩ := stage.events well decrypts reached here
    have limited : k' ≤ max k (stop limit p.db.sync_cursor l) := bounded.trans (max_le_max le_rfl inside)
    split at done
    · next failed broken =>
      obtain rfl := Option.some.inj done
      rw [broken] at final cursor
      exact ⟨k',final,.failed forward limited cursor reached,fun _ _ ok => nomatch ok⟩
    next q finished =>
    rw [finished] at final cursor
    replace whole := whole q finished
    change Stage body device_id l seen r k' q at final
    split at done
    · obtain rfl := Option.some.inj done
      exact ⟨k',final,.failed forward limited cursor reached,fun _ _ ok => nomatch ok⟩
    have moved : min page.next_cursor i64Max = p.db.sync_cursor + page.events.length := by
      rw [next]
      exact min_eq_left (inside.trans (stop_le.trans well.fits))
    have saved : Stage body device_id l seen r k' { q with db := q.db.set_sync_cursor page.next_cursor } :=
      ⟨final.within,final.recorded,final.history,final.replica⟩
    have behind : p.db.sync_cursor + page.events.length ≤ k' := whole ▸ le_max_right _ _
    have cap : MAX_LIMIT = 1000 := rfl
    split at done
    · next short =>
      obtain rfl := Option.some.inj done
      refine ⟨k',saved,⟨forward,limited,moved.le.trans behind,(Nat.le_add_right _ _).trans moved.ge,
        fun _ failed => nomatch failed⟩,fun same p' ok => ?_⟩
      obtain rfl := Except.ok.inj ok
      have last : stop limit p.db.sync_cursor l = p.db.sync_cursor + page.events.length := by
        rw [same _ _ answered] at size
        exact stop_short (reached.trans stage.within) size (by simpa using short)
      exact ⟨by rw [last,whole],moved.trans last.symm⟩
    · next full =>
      have same_stop (c : ℕ) : stop limit c l = l.length := if_pos (by omega)
      obtain ⟨k'',ended,ends,finish⟩ := ih saved (moved.le.trans behind) done
      refine ⟨k'',ended,⟨forward.trans ends.forward,?_,ends.behind,?_,?_⟩,fun same p' ok => ?_⟩
      · have bound := ended.within
        rw [same_stop]
        exact bound.trans (le_max_right _ _)
      · exact (Nat.le_add_right _ _).trans (moved.ge.trans ends.onward)
      · intro failed broken
        rw [same_stop,same_stop]
      · obtain ⟨reaches,stops⟩ := finish same p' ok
        rw [same_stop] at reaches stops ⊢
        have bound := stage.within
        exact ⟨by rw [reaches,max_eq_right final.within,max_eq_right bound],stops⟩

/-- A pull comes to an end. -/
theorem Stage.returns (fuel : ℕ) (stage : Stage body device_id l seen r k p) (well : WellLog account_id l)
    (decrypts : s.Decrypts body) (honest : s.Honest account_id l) (reached : p.db.sync_cursor ≤ k) (limit : ℕ)
    (enough : l.length < p.db.sync_cursor + fuel) :
    ∃ result, pull_pages s account_id device_id limit fuel p = some result := by
  induction fuel generalizing k p with
  | zero =>
    have bound := stage.within
    omega
  | succ fuel ih =>
    have fits : p.db.sync_cursor ≤ i64Max := reached.trans (stage.within.trans well.fits)
    unfold pull_pages
    split
    · exact ⟨_,rfl⟩
    next store answered =>
    obtain ⟨numbered,older⟩ := honest _ _ answered
    simp only
    split
    · exact ⟨_,rfl⟩
    next more =>
    obtain ⟨⟨rest,here⟩,next,size⟩ := honest_page numbered older fits (by simpa using more)
    set page := Pergamon.pull store account_id p.db.sync_cursor (some limit)
    have inside : p.db.sync_cursor + page.events.length ≤ l.length :=
      (page_within_stop older.length_le size (by simpa using more)).trans stop_le
    obtain ⟨k',-,-,final,cursor,whole⟩ := stage.events well decrypts reached here
    split
    · exact ⟨_,rfl⟩
    next q finished =>
    rw [finished] at final cursor
    replace whole := whole q finished
    split
    · exact ⟨_,rfl⟩
    split
    · exact ⟨_,rfl⟩
    -- each full page takes the cursor on
    have moved : min page.next_cursor i64Max = p.db.sync_cursor + page.events.length := by
      rw [next]
      exact min_eq_left (inside.trans well.fits)
    have progress : 0 < page.events.length := by
      rw [List.length_pos_iff]
      simpa using more
    refine ih (k := k') ⟨final.within,final.recorded,final.history,final.replica⟩ ?_ ?_
    · exact moved.le.trans (whole ▸ le_max_right _ _)
    · change l.length < min page.next_cursor i64Max + fuel
      omega

/-! ### Going on after a failure -/

theorem Stage.restart (stage : Stage body device_id l seen r k p) :
    Stage body device_id l (seen ++ p.applied) p.db.replica k ⟨p.db,[]⟩ :=
  ⟨stage.within,stage.recorded,by rw [List.append_nil]; exact stage.history,foldlM_nil_ok.mpr rfl⟩

theorem Stage.join {k' : ℕ} (stage : Stage body device_id l seen r k p)
    (later : Stage body device_id l (seen ++ p.applied) p.db.replica k' p') :
    Stage body device_id l seen r k' ⟨p'.db,p.applied ++ p'.applied⟩ :=
  ⟨later.within,later.recorded,by rw [← List.append_assoc]; exact later.history,
    foldlM_append_ok.mpr ⟨_,stage.replica,later.replica⟩⟩

omit [Sqlite] [Scheduler] in
theorem foreign_take {k' : ℕ} (before : k ≤ k') : foreign device_id (l.take k') =
    foreign device_id (l.take k) ++ foreign device_id ((l.take k').drop k) := by
  conv_lhs => rw [← List.take_append_drop k (l.take k')]
  rw [foreign_append,List.take_take,min_eq_left before]

/-- A device that is further has applied the same changes and others after them. -/
theorem Stage.split {k' : ℕ} {q : Progress} (stage : Stage body device_id l seen r k p)
    (further : Stage body device_id l seen r k' q) (before : k ≤ k') :
    ∃ more, more = foreign device_id ((l.take k').drop k) ∧
      Stage body device_id l (seen ++ p.applied) p.db.replica k' ⟨q.db,more⟩ := by
  have tail : q.applied = p.applied ++ foreign device_id ((l.take k').drop k) := by
    have history := further.history
    rw [foreign_take before,← stage.history,List.append_assoc] at history
    exact List.append_cancel_left history
  refine ⟨_,rfl,further.within,further.recorded,?_,?_⟩
  · rw [List.append_assoc,← tail]
    exact further.history
  · have whole := further.replica
    rw [tail,apply_events,foldlM_append_ok] at whole
    obtain ⟨middle,first,second⟩ := whole
    obtain rfl := Except.ok.inj (stage.replica.symm.trans first)
    exact second

/-- Two devices that went from one state to the same place in the log are in one state. -/
theorem Stage.unique {q : Progress} (stage : Stage body device_id l seen r k p)
    (twin : Stage body device_id l seen r k q) :
    p.db.replica = q.db.replica ∧ p.db.sync_applied = q.db.sync_applied := by
  have same : p.applied = q.applied := List.append_cancel_left (stage.history.trans twin.history.symm)
  refine ⟨Except.ok.inj (stage.replica.symm.trans (same ▸ twin.replica)),?_⟩
  ext id n
  rw [stage.recorded id n,twin.recorded id n]

/-- Surroundings in which nothing fails. -/
structure Healthy (s : Surroundings) (account_id : String) (store : Store) (body : StoredEventRecord → ChangeBody) :
    Prop where
  answers : ∀ c, s.server c = .ok store
  opens : ∀ ev ∈ store.log account_id, s.open_event ev = .ok (body ev)
  commits : ∀ ev, s.transaction ev = .ok ()
  saves : ∀ c, s.save_cursor c = .ok ()

/-- Where another device got past an event, this one does. -/
theorem Stage.healthy_receive {store : Store} {k' : ℕ} {q : Progress} (healthy : Healthy s account_id store body)
    (stage : Stage body device_id (store.log account_id) seen r k p)
    (further : Stage body device_id (store.log account_id) seen r k' q) {i : ℕ} (reached : i ≤ k) (before : i < k')
    (here : (store.log account_id)[i]? = some ev) : ∃ p', Pergamon.receive s account_id device_id p ev = .ok p' := by
  have inside := List.mem_of_getElem? here
  have owned : ev.account_id = account_id := of_decide_eq_true (List.mem_filter.mp inside).2
  simp only [Pergamon.receive,owned,ne_eq,not_true_eq_false,if_false]
  split
  · exact ⟨_,rfl⟩
  next other =>
  split
  · exact ⟨_,rfl⟩
  next unknown =>
  have here' : i = k := by
    by_contra apart
    obtain ⟨bound,same⟩ := List.getElem?_eq_some_iff.mp here
    have old : ev ∈ foreign device_id ((store.log account_id).take k) :=
      List.mem_filter.mpr ⟨List.mem_take_iff_getElem.mpr ⟨i,by omega,same⟩,by simpa using other⟩
    exact unknown (stage.recorded.known old)
  subst here'
  obtain ⟨more,rest,later⟩ := stage.split further before.le
  -- the event is the first that the other device applied from here on
  have first : more = ev :: foreign device_id (((store.log account_id).take k').drop (i + 1)) := by
    have next : ((store.log account_id).take k')[i]? = some ev := by rw [List.getElem?_take_of_lt before,here]
    obtain ⟨bound,same⟩ := List.getElem?_eq_some_iff.mp next
    rw [rest,List.drop_eq_getElem_cons bound,same,foreign,List.filter_cons_of_pos (by simpa using other)]
    rfl
  have applies := later.replica
  rw [first,apply_events,foldlM_cons_ok] at applies
  obtain ⟨r',changed,-⟩ := applies
  rw [healthy.opens ev inside]
  have done : ∃ db, apply_event s ev (body ev) p.db = .ok db := by
    refine ⟨_,bind_ok.mpr ⟨r',?_,bind_ok.mpr ⟨(),?_,rfl⟩⟩⟩
    · change (p.db.replica.apply_change (body ev)).mapError SyncError.Storage = .ok r'
      change p.db.replica.apply_change (body ev) = .ok r' at changed
      rw [changed]
      rfl
    · rw [healthy.commits]
      rfl
  obtain ⟨db,done⟩ := done
  simp only [Database.in_transaction,done]
  exact ⟨_,rfl⟩

theorem Stage.healthy_events {store : Store} {k' : ℕ} {q : Progress} (healthy : Healthy s account_id store body)
    (well : WellLog account_id (store.log account_id)) (decrypts : s.Decrypts body)
    (stage : Stage body device_id (store.log account_id) seen r k p)
    (further : Stage body device_id (store.log account_id) seen r k' q) {i : ℕ} (reached : i ≤ k)
    {events rest : List StoredEventRecord} (here : (store.log account_id).drop i = events ++ rest)
    (before : i + events.length ≤ k') :
    ∃ p', events.foldlM (Pergamon.receive s account_id device_id) p = .ok p' := by
  induction events generalizing i k p with
  | nil => exact ⟨p,rfl⟩
  | cons ev events ih =>
    rw [List.length_cons] at before
    have first : (store.log account_id)[i]? = some ev := by
      rw [← List.head?_drop,here]
      rfl
    have next : (store.log account_id).drop (i + 1) = events ++ rest := by
      rw [← List.tail_drop,here]
      rfl
    obtain ⟨p₁,taken⟩ := stage.healthy_receive healthy further reached (by omega) first
    obtain ⟨moved,-⟩ := stage.receive well decrypts reached first taken
    obtain ⟨p',done⟩ := ih moved (le_max_right _ _) next (by omega)
    exact ⟨p',foldlM_cons_ok.mpr ⟨p₁,taken,done⟩⟩

omit [Sqlite] [Scheduler] in
theorem Healthy.honest {store : Store} (healthy : Healthy s account_id store body) (well : store.WellNumbered) :
    s.Honest account_id (store.log account_id) := by
  intro c store' answered
  obtain rfl := Except.ok.inj ((healthy.answers c).symm.trans answered)
  exact ⟨well,List.prefix_refl _⟩

/-- Where another pull got, one in which nothing else fails gets. -/
theorem Stage.healthy_pages {store : Store} {k' : ℕ} {q : Progress} (healthy : Healthy s account_id store body)
    (well : store.WellNumbered) (decrypts : s.Decrypts body)
    (stage : Stage body device_id (store.log account_id) seen r k p)
    (further : Stage body device_id (store.log account_id) seen r k' q) (reached : p.db.sync_cursor ≤ k)
    {limit fuel : ℕ} (before : stop limit p.db.sync_cursor (store.log account_id) ≤ k')
    {result : Except (Progress × SyncError) Progress}
    (done : pull_pages s account_id device_id limit fuel p = some result) : ∃ p', result = .ok p' := by
  have log := well.wellLog account_id
  induction fuel generalizing k p with
  | zero => cases done
  | succ fuel ih =>
    have fits : p.db.sync_cursor ≤ i64Max := reached.trans (stage.within.trans log.fits)
    simp only [pull_pages,healthy.answers,healthy.saves] at done
    split at done
    · exact ⟨_,(Option.some.inj done).symm⟩
    next more =>
    obtain ⟨⟨rest,here⟩,next,size⟩ := honest_page well (List.prefix_refl _) fits (by simpa using more)
    set page := Pergamon.pull store account_id p.db.sync_cursor (some limit)
    have inside : p.db.sync_cursor + page.events.length ≤ stop limit p.db.sync_cursor (store.log account_id) :=
      page_within_stop le_rfl size (by simpa using more)
    obtain ⟨p₁,taken⟩ := stage.healthy_events healthy log decrypts further reached here (inside.trans before)
    obtain ⟨k₁,-,-,final,-,whole⟩ := stage.events log decrypts reached here
    rw [taken] at done final
    simp only at done
    split at done
    · exact ⟨_,(Option.some.inj done).symm⟩
    next full =>
    have cap : MAX_LIMIT = 1000 := rfl
    have small : limit ≤ MAX_LIMIT := by omega
    have moved : min page.next_cursor i64Max = p.db.sync_cursor + page.events.length := by
      rw [next]
      exact min_eq_left (inside.trans (stop_le.trans log.fits))
    have saved : Stage body device_id (store.log account_id) seen r k₁
        { p₁ with db := p₁.db.set_sync_cursor page.next_cursor } :=
      ⟨final.within,final.recorded,final.history,final.replica⟩
    refine ih saved ?_ ?_ done
    · exact moved.le.trans (whole p₁ taken ▸ le_max_right _ _)
    · rw [stop,if_pos small] at before ⊢
      exact before

/-- The device tried to pull, under surroundings that go no further than the log, and
    failed. -/
def Failed (body : StoredEventRecord → ChangeBody) (account_id device_id : String) (limit : ℕ)
    (l : List StoredEventRecord) (db db' : Database) : Prop :=
  ∃ s fuel failed, s.Decrypts body ∧ s.Honest account_id l ∧
    db.pull s account_id device_id limit fuel = some (.error failed) ∧ failed.1.db = db'

/-- What failed pulls did before the pull that succeeds. -/
theorem failed_stage {limit : ℕ} {db db' : Database} (well : WellLog account_id l)
    (stage : Stage body device_id l seen db.replica k ⟨db,[]⟩) (reached : db.sync_cursor ≤ k)
    (tries : Relation.ReflTransGen (Failed body account_id device_id limit l) db db') :
    ∃ k' applied, Stage body device_id l seen db.replica k' ⟨db',applied⟩ ∧ k ≤ k' ∧
      k' ≤ max k (stop limit db.sync_cursor l) ∧ db'.sync_cursor ≤ k' ∧
      stop limit db'.sync_cursor l = stop limit db.sync_cursor l := by
  induction tries with
  | refl => exact ⟨k,[],stage,le_rfl,le_max_left _ _,reached,rfl⟩
  | tail _ attempt ih =>
    obtain ⟨k₁,applied,before,forward,bounded,behind,same⟩ := ih
    obtain ⟨s,fuel,failed,decrypts,honest,done,rfl⟩ := attempt
    obtain ⟨k₂,ended,ends,-⟩ := before.restart.pages well decrypts honest behind done
    refine ⟨k₂,_,before.join ended,forward.trans ends.forward,?_,ends.behind,?_⟩
    · have further := ends.bounded
      simp only [same] at further
      exact further.trans (max_le bounded (le_max_right _ _))
    · exact (ends.resumes failed rfl).trans same

/-! ### Runs -/

/-- The runs of a device: the store, the device and all that its pulls have applied. The
    store goes on serving, also during a pull, whose requests may be answered from the
    logs of before; a moment inside a pull is the end of one that fails there. -/
inductive Pulling (body : StoredEventRecord → ChangeBody) (account_id device_id : String) :
    Store → Database → List StoredEventRecord → Prop where
  | start {db : Database} (blobs : List BlobRow) (quota : QuotaConfig) : db.sync_applied = ∅ → db.sync_cursor = 0 →
      Pulling body account_id device_id ⟨[],blobs,quota⟩ db []
  | serve {store store' : Store} {db : Database} {history : List StoredEventRecord} :
      Pulling body account_id device_id store db history → Serves store store' →
      Pulling body account_id device_id store' db history
  /-- The device does something else to its database. -/
  | work {store : Store} {db db' : Database} {history : List StoredEventRecord} :
      Pulling body account_id device_id store db history → db'.sync_applied = db.sync_applied →
      db'.sync_cursor = db.sync_cursor → Pulling body account_id device_id store db' history
  /-- The device pulls, and fails or not. -/
  | pull {store : Store} {db : Database} {history : List StoredEventRecord} {s : Surroundings} {limit fuel : ℕ}
      {result : Except (Progress × SyncError) Progress} : Pulling body account_id device_id store db history →
      s.Decrypts body → s.Honest account_id (store.log account_id) →
      db.pull s account_id device_id limit fuel = some result →
      Pulling body account_id device_id store (left result).db (history ++ (left result).applied)

/-- At any time a device is at some place of the log that is not before its cursor. -/
theorem Pulling.stage {store : Store} {db : Database} {history : List StoredEventRecord}
    (run : Pulling body account_id device_id store db history) :
    store.WellNumbered ∧ ∃ k, db.sync_cursor ≤ k ∧
      Stage body device_id (store.log account_id) history db.replica k ⟨db,[]⟩ := by
  induction run with
  | @start db blobs quota unmarked zero =>
    refine ⟨fun _ => ⟨numbered_nil,List.nodup_nil,Nat.zero_le _⟩,0,zero.le,Nat.zero_le _,?_,rfl,foldlM_nil_ok.mpr rfl⟩
    intro id n
    simp [unmarked,foreign]
  | serve _ serves ih =>
    obtain ⟨well,k,behind,stage⟩ := ih
    obtain ⟨well',grows⟩ := serves.kept well
    obtain ⟨new,longer⟩ := grows account_id
    have same : (_ ++ new).take k = _ := List.take_append_of_le_length stage.within
    rw [longer] at same
    exact ⟨well',k,behind,stage.within.trans (grows account_id).length_le,by rw [same]; exact stage.recorded,
      by rw [same]; exact stage.history,stage.replica⟩
  | work _ marks cursor ih =>
    obtain ⟨well,k,behind,stage⟩ := ih
    refine ⟨well,k,cursor.le.trans behind,stage.within,?_,stage.history,foldlM_nil_ok.mpr rfl⟩
    intro id n
    simp only [marks]
    exact stage.recorded id n
  | pull _ decrypts honest done ih =>
    obtain ⟨well,k,behind,stage⟩ := ih
    obtain ⟨k',ended,ends,-⟩ := stage.pages (well.wellLog account_id) decrypts honest behind done
    exact ⟨well,k',ends.behind,ended.restart⟩

/-- A pull that fails some times and then succeeds ends where one that succeeds at once does. -/
theorem resumed {store : Store} {db db' : Database} {s' : Surroundings} {limit fuel : ℕ} {q : Progress}
    (well : store.WellNumbered) (behind : db.sync_cursor ≤ k)
    (stage : Stage body device_id (store.log account_id) seen db.replica k ⟨db,[]⟩)
    (healthy : Healthy s account_id store body) (decrypts : s.Decrypts body)
    (healthy' : Healthy s' account_id store body) (decrypts' : s'.Decrypts body)
    (done : db.pull s account_id device_id limit fuel = some (.ok q))
    (tries : Relation.ReflTransGen (Failed body account_id device_id limit (store.log account_id)) db db') :
    ∃ fuel' q', db'.pull s' account_id device_id limit fuel' = some (.ok q') ∧ q'.db.replica = q.db.replica ∧
      q'.db.sync_applied = q.db.sync_applied ∧ q'.db.sync_cursor = q.db.sync_cursor := by
  have log := well.wellLog account_id
  have answers {s : Surroundings} (healthy : Healthy s account_id store body) (c : ℕ) (store' : Store)
      (answered : s.server c = .ok store') : store'.log account_id = store.log account_id := by
    obtain rfl := Except.ok.inj ((healthy.answers c).symm.trans answered)
    rfl
  obtain ⟨k',whole,-,finish⟩ := stage.pages log decrypts (healthy.honest well) behind done
  obtain ⟨rfl,stops⟩ := finish (answers healthy) q rfl
  obtain ⟨k₁,applied,before,forward,bounded,behind₁,same⟩ := failed_stage log stage behind tries
  obtain ⟨more,-,rest⟩ := before.split whole bounded
  obtain ⟨result,ended⟩ := before.restart.returns ((store.log account_id).length + 1) log decrypts'
    (healthy'.honest well) behind₁ limit (by omega)
  obtain ⟨q',rfl⟩ := before.restart.healthy_pages healthy' well decrypts' rest behind₁
    (by rw [same]; exact le_max_right _ _) ended
  obtain ⟨k₂,again,-,finish'⟩ := before.restart.pages log decrypts' (healthy'.honest well) behind₁ ended
  obtain ⟨rfl,stops'⟩ := finish' (answers healthy') q' rfl
  have place : max k₁ (stop limit db'.sync_cursor (store.log account_id)) =
      max k (stop limit db.sync_cursor (store.log account_id)) := by
    rw [same]
    omega
  rw [place] at again
  obtain ⟨rows,records⟩ := again.unique rest
  exact ⟨_,q',ended,rows,records,stops'.trans (same.trans stops.symm)⟩

end

/-- The server with two changes of the phone and one of the tablet between them. -/
def threeEvents : Store :=
  ⟨[⟨⟨1,"phone","x",none,0,[],[],[]⟩,"a",0,1⟩,⟨⟨1,"tablet","y",none,0,[],[],[]⟩,"a",0,2⟩,
    ⟨⟨1,"phone","z",none,0,[],[],[]⟩,"a",0,3⟩],[],⟨0,0⟩⟩

/-- The change that an event of the witness carries. -/
def carriedDelete (ev : StoredEventRecord) : ChangeBody :=
  ⟨.Tag,ev.change_id,.Delete,⟨5,0,ev.device_id⟩,none,∅,[]⟩

/-- Surroundings that know the keys of some events only. -/
def knowing (store : Store) (known : String → Bool) : Surroundings where
  server := fun _ => .ok store
  directory := fun _ => some []
  verify_event_sig := fun ev _ => .ok (known ev.change_id)
  decrypt_change := fun ev => .ok (carriedDelete ev)
  fetch_blobs := fun _ _ => .ok ()
  transaction := fun _ => .ok ()
  save_cursor := fun _ => .ok ()
  now_millis := fun _ => 0

/-- A device that has pulled nothing. -/
def freshDevice : Database := ⟨.empty,⟨some "a",some "tablet",0,0,0,0,none,true⟩,[],0,∅⟩

section
attribute [local instance] plainSqlite plainScheduler

def blind : Surroundings := knowing threeEvents (fun id => id = "x")
def sighted : Surroundings := knowing threeEvents (fun _ => true)

/-- Whether a pull among `blind` surroundings stops after the first event, and one among
    `sighted` ones ends what it has left. -/
def retries : Bool :=
  match freshDevice.pull blind "a" "tablet" 1 9 with
  | some (.error failed) => decide (failed.1.applied.map (fun ev => ev.change_id) = ["x"]) &&
    (match failed.1.db.pull sighted "a" "tablet" 1 9 with
    | some (.ok q) => decide (q.db.sync_cursor = 3 ∧ q.applied.map (fun ev => ev.change_id) = ["z"])
    | _ => false)
  | _ => false

end
end Pergamon
