import Pergamon.HttpRelay

/-!
The current key epoch of an account, which a client finds by a scan of the attestations.
The scan gives the greatest epoch that a verifying attestation names among those that are
listed (`greatestEpoch_scan`), so it is right over a relay whose lists are complete.

The client over HTTP scans the first page. What it finds is right if and only if the page
is not too large and no later attestation names a greater epoch (`current_epoch_http`).
-/
namespace Pergamon
open Fallible

namespace Primitives
variable (p : Primitives)

/-- The epoch is the greatest one that a verifying attestation names, `0` if there is none. -/
def GreatestEpoch (history : List (List UInt8)) (epoch : UInt32) : Prop :=
  (∀ a ∈ history, ∀ signed, p.verified a = some signed → signed.attestation.key_epoch ≤ epoch) ∧
    (epoch = 0 ∨ ∃ a ∈ history, ∃ signed, p.verified a = some signed ∧ signed.attestation.key_epoch = epoch)

/-- What `current_epoch` makes of the attestations that it gets. -/
def scan (history : List (List UInt8)) : UInt32 := history.foldl p.advance 0

variable {p} {history : List (List UInt8)} {a : List UInt8} {epoch epoch' : UInt32}

theorem max_eq (a b : UInt32) : max a b = if a ≤ b then b else a := rfl

theorem advance_le {bound : UInt32} : p.advance epoch a ≤ bound ↔
    epoch ≤ bound ∧ ∀ signed, p.verified a = some signed → signed.attestation.key_epoch ≤ bound := by
  unfold advance
  cases p.verified a with
  | none => simp
  | some signed =>
    simp only [max_eq,Option.some.injEq,forall_eq']
    split
    · next grows => exact ⟨fun above => ⟨UInt32.le_trans grows above,above⟩,And.right⟩
    · next stays => exact ⟨fun above => ⟨above,UInt32.le_trans (UInt32.le_of_lt (UInt32.not_le.mp stays)) above⟩,And.left⟩

theorem advance_cases (epoch : UInt32) (a : List UInt8) : p.advance epoch a = epoch ∨
    ∃ signed, p.verified a = some signed ∧ p.advance epoch a = signed.attestation.key_epoch := by
  unfold advance
  cases p.verified a with
  | none => exact .inl rfl
  | some signed =>
    simp only [max_eq]
    split
    · exact .inr ⟨signed,rfl,rfl⟩
    · exact .inl rfl

theorem greatestEpoch_scan (history : List (List UInt8)) : p.GreatestEpoch history (p.scan history) := by
  have bounded (history : List (List UInt8)) (start : UInt32) : start ≤ history.foldl p.advance start ∧
      ∀ a ∈ history, ∀ signed, p.verified a = some signed → signed.attestation.key_epoch ≤ history.foldl p.advance start := by
    induction history generalizing start with
    | nil => simp
    | cons a history ih =>
      obtain ⟨above,rest⟩ := ih (p.advance start a)
      obtain ⟨first,here⟩ := advance_le.mp above
      refine ⟨first,fun b inside => ?_⟩
      rcases List.mem_cons.mp inside with rfl | later
      · exact here
      · exact rest b later
  have named (history : List (List UInt8)) (start : UInt32) : history.foldl p.advance start = start ∨
      ∃ a ∈ history, ∃ signed, p.verified a = some signed ∧
        signed.attestation.key_epoch = history.foldl p.advance start := by
    induction history generalizing start with
    | nil => exact .inl rfl
    | cons a history ih =>
      rcases ih (p.advance start a) with same | ⟨b,inside,signed,verifies,same⟩
      · rw [List.foldl_cons,same]
        rcases advance_cases (p := p) start a with kept | ⟨signed,verifies,taken⟩
        · exact .inl kept
        · exact .inr ⟨a,.head _,signed,verifies,taken.symm⟩
      · exact .inr ⟨b,.tail _ inside,signed,verifies,same⟩
  exact ⟨(bounded history 0).2,named history 0⟩

theorem GreatestEpoch.unique (greatest : p.GreatestEpoch history epoch) (greatest' : p.GreatestEpoch history epoch') :
    epoch = epoch' := by
  have below {e e' : UInt32} (g : p.GreatestEpoch history e) (g' : p.GreatestEpoch history e') : e ≤ e' := by
    rcases g.2 with rfl | ⟨a,inside,signed,verifies,rfl⟩
    · exact UInt32.zero_le
    · exact g'.1 a inside signed verifies
  exact UInt32.le_antisymm (below greatest greatest') (below greatest' greatest)

/-- The scan of a part is the scan of the whole if the rest names no greater epoch. -/
theorem greatestEpoch_scan_append (first rest : List (List UInt8)) : p.GreatestEpoch (first ++ rest) (p.scan first) ↔
    ∀ a ∈ rest, ∀ signed, p.verified a = some signed → signed.attestation.key_epoch = 0 ∨
      ∃ b ∈ first, ∃ signed', p.verified b = some signed' ∧
        signed.attestation.key_epoch ≤ signed'.attestation.key_epoch := by
  have greatest := greatestEpoch_scan (p := p) first
  constructor
  · intro whole a inside signed verifies
    have above := whole.1 a (List.mem_append_right _ inside) signed verifies
    rcases greatest.2 with zero | ⟨b,there,signed',verifies',same⟩
    · rw [zero] at above
      exact .inl (UInt32.le_zero_iff.mp above)
    · exact .inr ⟨b,there,signed',verifies',same ▸ above⟩
  · intro dominated
    refine ⟨fun a inside signed verifies => ?_,?_⟩
    · rcases List.mem_append.mp inside with here | later
      · exact greatest.1 a here signed verifies
      · rcases dominated a later signed verifies with zero | ⟨b,there,signed',verifies',above⟩
        · rw [zero]
          exact UInt32.zero_le
        · exact UInt32.le_trans above (greatest.1 b there signed' verifies')
    · rcases greatest.2 with zero | ⟨b,there,found⟩
      · exact .inl zero
      · exact .inr ⟨b,List.mem_append_left _ there,found⟩

end Primitives

/-! ### Over a relay -/

section
variable {σ : Type} {relay : RelayTransport σ} {p : Primitives} {account_id : AccountId} {view : σ → Shelf} {fine : σ → Prop}
  {s : σ}

/-- Over complete lists the epoch is the greatest one of the whole history. -/
theorem current_epoch_complete (complete : ListsAll relay account_id.to_hex view fine) (here : fine s) :
    relay.current_epoch p account_id s = .ok (p.scan (view s).attestations) s := by
  obtain ⟨l,listed,same⟩ := complete.attestations_list s here
  unfold RelayTransport.current_epoch
  rw [work_bind,listed,← same,Primitives.scan,List.foldl_map]
  rfl

end

open SyncStore HttpRelay in
/-- A client over HTTP scans the first page, if it is not too large. -/
theorem current_epoch_first_page {p : Primitives} {account_id : AccountId} {store : SyncStore}
    (filed : store.Filed p.ct_hash account_id.to_hex) :
    let rows := store.attestations_of account_id.to_hex
    (httpRelay p).current_epoch p account_id store =
      if attestations_len (rows.take HttpRelay.DEFAULT_LIMIT) (rows.take HttpRelay.DEFAULT_LIMIT).length ≤ RESPONSE_LIMIT then
        .ok (p.scan ((rows.map AttestationRow.bytes).take HttpRelay.DEFAULT_LIMIT)) store
      else .error (.Protocol "relay response exceeds the allowed size") store := by
  intro rows
  unfold RelayTransport.current_epoch
  rw [work_bind,http_attestations_list filed,Primitives.scan,← List.map_take,List.foldl_map]
  unfold response_json
  by_cases fits : attestations_len (rows.take HttpRelay.DEFAULT_LIMIT) (rows.take HttpRelay.DEFAULT_LIMIT).length ≤ RESPONSE_LIMIT
  · rw [if_pos fits,if_pos fits]
    show EStateM.Result.ok _ _ = _
    rw [List.foldl_map]
  · rw [if_neg fits,if_neg fits]
    rfl

open SyncStore HttpRelay in
/-- For every history that the server stores: a client over HTTP finds the greatest epoch
    if and only if the first page is not too large and no attestation after it names an
    epoch that is greater than all of the page. -/
theorem current_epoch_http (p : Primitives) (account_id : AccountId) (quota : QuotaConfig) (calls : List SyncStore.Call) :
    let store := calls.foldl (serve p.ct_hash) (fresh quota)
    let rows := store.attestations_of account_id.to_hex
    let history := rows.map AttestationRow.bytes
    (∃ epoch, (httpRelay p).current_epoch p account_id store = .ok epoch store ∧ p.GreatestEpoch history epoch) ↔
      attestations_len (rows.take HttpRelay.DEFAULT_LIMIT) (rows.take HttpRelay.DEFAULT_LIMIT).length ≤ RESPONSE_LIMIT ∧
      ∀ a ∈ history.drop HttpRelay.DEFAULT_LIMIT, ∀ signed, p.verified a = some signed → signed.attestation.key_epoch = 0 ∨
        ∃ b ∈ history.take HttpRelay.DEFAULT_LIMIT, ∃ signed', p.verified b = some signed' ∧
          signed.attestation.key_epoch ≤ signed'.attestation.key_epoch := by
  intro store rows history
  have filed : store.Filed p.ct_hash account_id.to_hex := filed_run (filed_fresh _ _ quota) calls
  have greatest := Primitives.greatestEpoch_scan_append (p := p) (history.take HttpRelay.DEFAULT_LIMIT) (history.drop HttpRelay.DEFAULT_LIMIT)
  rw [List.take_append_drop] at greatest
  rw [current_epoch_first_page filed,← greatest]
  by_cases fits : attestations_len (rows.take HttpRelay.DEFAULT_LIMIT) (rows.take HttpRelay.DEFAULT_LIMIT).length ≤ RESPONSE_LIMIT
  · rw [if_pos fits]
    simp only [EStateM.Result.ok.injEq,and_true,exists_eq_left',and_iff_right fits]
    rfl
  · rw [if_neg fits]
    simp only [reduceCtorEq,false_and,exists_false,fits]

/-! ### A history that is longer than a page -/

section
open SyncStore

def laptop : DeviceKeypairs := ⟨.replicate KEY_LEN 1,.replicate KEY_LEN 2⟩
def library : AccountId := ⟨.replicate ACCOUNT_ID_LEN 9⟩

/-- The laptop vouches for itself 500 times and then revokes itself in epoch 1. -/
def attestationAt (i : ℕ) : SignedAttestation :=
  plainPrimitives.sign_attestation laptop (if i < 500 then .Trust else .Revoke) (plainPrimitives.sign_record laptop 0).record
    (if i < 500 then 0 else 1) (.ofNat i)

def longHistory : List (List UInt8) := (List.range 501).map (fun i => (attestationAt i).to_bytes)

/-- The hash keeps the end of an attestation, and the signature the end of what is signed. -/
theorem ct_hash_attestationAt (i : ℕ) : ∃ bytes, bytes.length = 24 ∧
    plainPrimitives.ct_hash (attestationAt i).to_bytes = hex (bytes ++ i64_be_bytes (Int64.ofNat i).toInt) := by
  have ends {first : List UInt8} : ∃ bytes, bytes.length = 56 ∧
      (digest 56 (first ++ i64_be_bytes (Int64.ofNat i).toInt)).toList = bytes ++ i64_be_bytes (Int64.ofNat i).toInt :=
    digest_append (length_i64_be_bytes _) 56
  have signed : ∃ bytes, (attestationAt i).signature.toList = bytes ++ i64_be_bytes (Int64.ofNat i).toInt := by
    obtain ⟨bytes,-,same⟩ := ends
    refine ⟨bytes,Eq.trans ?_ same⟩
    show (digest 56 (_ ++ Attestation.signing_bytes _)).toList = _
    unfold Attestation.signing_bytes
    rw [← List.append_assoc]
  obtain ⟨bytes,same⟩ := signed
  obtain ⟨start,size,hashed⟩ := digest_append (length_i64_be_bytes (Int64.ofNat i).toInt) 24
  refine ⟨start,size,congrArg hex (Eq.trans ?_ hashed)⟩
  show (digest 24 (0 :: SignedAttestation.to_bytes _)).toList = _
  unfold SignedAttestation.to_bytes
  rw [same,← List.append_assoc,← List.cons_append]

theorem nodup_longHistory : (longHistory.map plainPrimitives.ct_hash).Nodup := by
  rw [longHistory,List.map_map]
  refine List.Nodup.map_on ?_ List.nodup_range
  intro i inside j inside' same
  obtain ⟨start,size,first⟩ := ct_hash_attestationAt i
  obtain ⟨start',size',second⟩ := ct_hash_attestationAt j
  have equal := hex_inj.mp (first.symm.trans (same.trans second))
  have numbers := i64_be_bytes_inj (List.append_inj equal (size.trans size'.symm)).2
  have small := List.mem_range.mp inside
  have small' := List.mem_range.mp inside'
  have := congrArg Int64.toInt numbers
  rw [Int64.toInt_ofNat_of_lt (by omega),Int64.toInt_ofNat_of_lt (by omega)] at this
  omega

theorem verified_attestationAt (i : ℕ) : plainPrimitives.verified (attestationAt i).to_bytes = some (attestationAt i) :=
  Primitives.verified_sign_attestation plainPrimitives_lawful _ _ rfl _ _

/-- After 500 attestations of epoch 0 a revocation to epoch 1 is not found. -/
theorem current_epoch_long_history :
    let store := (longHistory.map (.attestation_append library.to_hex)).foldl (serve plainPrimitives.ct_hash) (fresh ⟨0,0⟩)
    (httpRelay plainPrimitives).current_epoch plainPrimitives library store = .ok 0 store ∧
      ¬ plainPrimitives.GreatestEpoch ((store.attestations_of library.to_hex).map AttestationRow.bytes) 0 := by
  intro store
  have filed : store.Filed plainPrimitives.ct_hash library.to_hex := filed_run (filed_fresh _ _ _) _
  have stored : (store.attestations_of library.to_hex).map AttestationRow.bytes = longHistory :=
    attestations_of_appends nodup_longHistory library.to_hex ⟨0,0⟩
  have page : longHistory.take HttpRelay.DEFAULT_LIMIT = (List.range 500).map (fun i => (attestationAt i).to_bytes) := by
    rw [longHistory,← List.map_take,List.take_range]
    rfl
  constructor
  · have short : ∀ row ∈ store.attestations_of library.to_hex, row.bytes.length ≤ 1000 := by
      intro row inside
      obtain ⟨i,-,same⟩ := List.mem_map.mp (stored ▸ List.mem_map_of_mem inside : row.bytes ∈ longHistory)
      have ids : (utf8 (attestationAt i).attestation.signer_device_id).length = 32 ∧
          (utf8 (attestationAt i).attestation.subject_device_id).length = 32 :=
        ⟨Primitives.length_device_id _,Primitives.length_device_id _⟩
      rw [← same,SignedAttestation.length_to_bytes]
      omega
    have epochs : plainPrimitives.GreatestEpoch (longHistory.take HttpRelay.DEFAULT_LIMIT) 0 := by
      refine ⟨fun a inside signed verifies => ?_,.inl rfl⟩
      rw [page] at inside
      obtain ⟨i,there,rfl⟩ := List.mem_map.mp inside
      cases (verified_attestationAt i).symm.trans verifies
      show (if i < 500 then 0 else 1 : UInt32) ≤ 0
      rw [if_pos (List.mem_range.mp there)]
      exact UInt32.le_refl _
    have fits := HttpRelay.attestations_fit filed.attestations short
    rw [current_epoch_first_page filed,if_pos fits,stored,(Primitives.greatestEpoch_scan _).unique epochs]
  · rw [stored]
    intro greatest
    have last := greatest.1 (attestationAt 500).to_bytes (List.mem_map_of_mem (by simp)) _ (verified_attestationAt 500)
    revert last
    decide

end

end Pergamon
