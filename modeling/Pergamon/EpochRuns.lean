import Pergamon.DeviceRuns
import Pergamon.Handover
import Pergamon.Runs

/-!
The key epoch over runs of the `sync-device` commands on the devices of an account. Each
device advances its own stored epoch, and an approval hands over that of its approver.

No stored epoch and no epoch of a bundle exceeds the greatest attested one, which grows by
at most one with a revocation (`FitDevice`). So revocations advance the epoch of the account, and
no stored epoch decreases, as long as the device that revokes has stored the greatest
epoch and no device accepts a bundle that is behind it (`epochs_advance`).
-/
namespace Pergamon
open Fallible Runs

/-! ### The greatest epoch of a list to which an attestation is added -/

namespace Primitives
variable {p : Primitives} {hash : List UInt8 → String} {l : List (List UInt8)} {a : List UInt8} {signed : SignedAttestation}

theorem le_scan (inside : a ∈ l) (verifies : p.verified a = some signed) : signed.attestation.key_epoch ≤ p.scan l :=
  (greatestEpoch_scan l).1 a inside signed verifies

theorem scan_le {bound : UInt32} (all : ∀ a ∈ l, ∀ signed, p.verified a = some signed → signed.attestation.key_epoch ≤ bound) :
    p.scan l ≤ bound := by
  rcases (greatestEpoch_scan (p := p) l).2 with zero | ⟨a,inside,signed,verifies,same⟩
  · rw [zero]
    exact UInt32.zero_le
  · rw [← same]
    exact all a inside signed verifies

theorem scan_le_deposit : p.scan l ≤ p.scan (deposit hash l a) := by
  refine scan_le fun b inside signed verifies => le_scan ?_ verifies
  unfold deposit
  split
  · exact inside
  · exact List.mem_append_left _ inside

theorem scan_deposit_le {bound : UInt32} (before : p.scan l ≤ bound)
    (new : ∀ signed, p.verified a = some signed → signed.attestation.key_epoch ≤ bound) :
    p.scan (deposit hash l a) ≤ bound := by
  refine scan_le fun b inside signed verifies => ?_
  rcases mem_deposit inside with old | rfl
  · exact UInt32.le_trans (le_scan old verifies) before
  · exact new signed verifies

end Primitives

theorem RelayTransport.next_epoch_le (epoch : UInt32) : (RelayTransport.next_epoch epoch).toNat ≤ epoch.toNat + 1 := by
  unfold RelayTransport.next_epoch
  split
  · rw [UInt32.toNat_add]
    exact Nat.mod_le _ _
  · omega

theorem RelayTransport.le_next_epoch (epoch : UInt32) : epoch ≤ RelayTransport.next_epoch epoch := by
  unfold RelayTransport.next_epoch
  split
  · next small =>
    rw [UInt32.le_iff_toNat_le,UInt32.toNat_add,UInt32.toNat_one,Nat.mod_eq_of_lt (by omega)]
    omega
  · exact UInt32.le_refl _

theorem RelayTransport.lt_next_epoch {epoch : UInt32} (small : epoch.toNat < 2 ^ 32 - 1) : epoch < RelayTransport.next_epoch epoch := by
  rw [RelayTransport.next_epoch,if_pos small,UInt32.lt_iff_toNat_lt,UInt32.toNat_add,UInt32.toNat_one,Nat.mod_eq_of_lt (by omega)]
  omega

theorem mem_deposit_self {hash : List UInt8 → String} {l : List (List UInt8)} {bytes : List UInt8}
    (unlike : ∀ a ∈ l, hash a = hash bytes → a = bytes) : bytes ∈ deposit hash l bytes := by
  unfold deposit
  split
  · next there =>
    obtain ⟨old,inside,same⟩ := there
    exact unlike old inside same ▸ inside
  · simp

/-! ### What the helpers of the commands change -/

section
variable {σ α : Type} {p : Primitives} {w : σ × LocalDevice}

/-- The relay, the keys and the epoch are the same. -/
def SameKeys (w t : σ × LocalDevice) : Prop :=
  t.1 = w.1 ∧ t.2.store = w.2.store ∧ t.2.db.sync_state.key_epoch = w.2.db.sync_state.key_epoch

theorem SameKeys.refl (w : σ × LocalDevice) : SameKeys w w := ⟨rfl,rfl,rfl⟩

theorem SameKeys.trans (w t r : σ × LocalDevice) (first : SameKeys w t) (second : SameKeys t r) : SameKeys w r :=
  ⟨second.1.trans first.1,second.2.1.trans first.2.1,second.2.2.trans first.2.2⟩

/-- A command that writes nothing. -/
def Inspects (x : DeviceM σ α) : Prop := ∀ w, leaves (x w) = w

section
variable {β : Type} {x : DeviceM σ α} {f : α → DeviceM σ β}

theorem Inspects.pure (a : α) : Inspects (Pure.pure a : DeviceM σ α) := fun _ => rfl

theorem Inspects.bind (first : Inspects x) (rest : ∀ a, Inspects (f a)) : Inspects (x >>= f) := by
  intro w
  have same := first w
  rw [work_bind]
  cases ran : x w with
  | ok a t =>
    rw [ran] at same
    obtain rfl : t = w := same
    exact rest a t
  | error e t => rwa [ran] at same

theorem Inspects.relates {R : σ × LocalDevice → σ × LocalDevice → Prop} (reads : Inspects x) (refl : ∀ w, R w w) : Relates R x := by
  intro w
  rw [reads w]
  exact refl w

theorem Inspects.does (reads : Inspects x) (w : σ × LocalDevice) : Does x w (fun _ t => t = w) (fun t => t = w) := by
  have same := reads w
  unfold Does
  cases ran : x w with
  | ok a t => rwa [ran] at same
  | error e t => rwa [ran] at same

theorem reads_refuse (message : String) : Inspects (DeviceM.refuse message : DeviceM σ α) := fun _ => rfl

theorem reads_refuse_bind (message : String) : Inspects (DeviceM.refuse message >>= f) := fun _ => rfl

theorem reads_expect (a : Option α) (message : String) : Inspects (DeviceM.expect a message : DeviceM σ α) := by
  cases a <;> exact fun _ => rfl

theorem reads_device : Inspects (DeviceM.device : DeviceM σ LocalDevice) := fun _ => rfl

end

theorem reads_open_token_provider (p : Primitives) (server account : String) :
    Inspects (open_token_provider p server account : DeviceM σ (Option RemoteSession)) := by
  refine reads_device.bind fun d => ?_
  simp only
  by_cases other : d.db.remote_account_binding.any (fun b => b.relay_url ≠ trim_slashes server || b.local_label ≠ account) = true
  · rw [if_pos other]
    exact reads_refuse_bind _
  · rw [if_neg other]
    cases d.sessions account (trim_slashes server) with
    | none =>
      simp only
      split
      · exact reads_refuse_bind _
      · exact .pure _
    | some session =>
      refine (reads_expect _ _).bind fun keys => (reads_expect _ _).bind fun id => ?_
      split
      · exact reads_refuse_bind _
      · exact .pure _

theorem reads_open_account_relay (p : Primitives) (server account : String) :
    Inspects (open_account_relay p server account : DeviceM σ Unit) :=
  (reads_open_token_provider p server account).bind fun _ => .pure _

theorem reads_guard_cli_join (d : LocalDevice) (account server : String) (account_id : AccountId) :
    Inspects (guard_cli_join d account server account_id : DeviceM σ Unit) := by
  unfold guard_cli_join
  simp only
  split
  · exact reads_refuse_bind _
  · split
    · exact reads_refuse_bind _
    · split
      · exact reads_refuse _
      · exact .pure _

theorem reads_require_pending_creation_keys (p : Primitives) (d : LocalDevice) (pending : RemoteAccountBinding) :
    Inspects (require_pending_creation_keys p d pending : DeviceM σ Unit) := by
  refine (reads_expect _ _).bind fun keys => (reads_expect _ _).bind fun id => ?_
  split
  · exact reads_refuse _
  · exact .pure _

theorem reads_guard_cli_create (p : Primitives) (d : LocalDevice) (server account : String) (create_new_account : Bool)
    (auth : Option RelayAuth) : Inspects (guard_cli_create p d server account create_new_account auth : DeviceM σ Unit) := by
  unfold guard_cli_create
  simp only
  split
  · exact reads_require_pending_creation_keys p d _
  · split
    · exact reads_refuse _
    · exact .pure _

theorem sameKeys_on_db {call : EStateM StorageError BoundDatabase α}
    (same : ∀ db, (leaves (call db)).sync_state.key_epoch = db.sync_state.key_epoch) :
    Relates SameKeys (DeviceM.on_db call : DeviceM σ α) := by
  intro ⟨s,d⟩
  have here := same d.db
  simp only [DeviceM.on_db]
  cases ran : call d.db with
  | ok a db =>
    rw [ran] at here
    exact ⟨rfl,rfl,here⟩
  | error e db =>
    rw [ran] at here
    exact ⟨rfl,rfl,here⟩

theorem sameKeys_authenticated_attach (p : Primitives) (server account : String) (account_id : AccountId) (operation_id : String)
    (auth : RelayAuth) : Relates SameKeys (authenticated_attach p server account account_id operation_id auth : DeviceM σ Unit) := by
  have refl := SameKeys.refl (σ := σ)
  refine Relates.bind SameKeys.trans (reads_device.relates refl) fun d => ?_
  refine Relates.bind SameKeys.trans ((reads_expect _ _).relates refl) fun keys => ?_
  cases guard_attach_existing ⟨true,(d.store account).ark.isSome,true,false,false⟩ with
  | error block => exact (reads_refuse _).relates refl
  | ok _ =>
    refine Relates.bind SameKeys.trans (sameKeys_on_db fun db => ?_) fun _ => ?_
    · rcases db.begin_remote_binding_cases server account account_id.to_hex (p.device_id keys) operation_id "create" with
        ⟨intent,none,ran⟩ | ⟨old,ran⟩ | ⟨e,ran⟩ <;> rw [ran] <;> rfl
    refine Relates.bind SameKeys.trans ((reads_expect _ _).relates refl) fun (session,server_instance_id) => ?_
    refine Relates.bind SameKeys.trans (sameKeys_on_db fun db => ?_) fun _ => ?_
    · rcases db.identify_remote_binding_cases session.auth_tenant_id server_instance_id with
        ⟨pending,there,same,same',ran⟩ | ⟨e,ran⟩ <;> rw [ran] <;> rfl
    refine Relates.bind SameKeys.trans ((reads_expect _ _).relates refl) fun (tenant,version,session) => ?_
    simp only
    split
    · exact (reads_refuse_bind _).relates refl
    · exact fun w => ⟨rfl,rfl,rfl⟩

theorem sameKeys_finish_local_adoption [Formats] (listing : Listing) (new_id : Nat → String) (server account : String)
    (now_millis : UInt64) :
    Relates SameKeys (finish_local_adoption listing new_id server account now_millis : DeviceM σ Unit) := by
  have refl := SameKeys.refl (σ := σ)
  refine Relates.bind SameKeys.trans (reads_device.relates refl) fun d => ?_
  cases d.db.remote_account_binding with
  | none => exact (Inspects.pure _).relates refl
  | some intent =>
    simp only
    split
    · exact (Inspects.pure _).relates refl
    · split
      · exact (reads_refuse_bind _).relates refl
      · refine Relates.bind SameKeys.trans ((reads_expect _ _).relates refl) fun session => ?_
        split
        · exact (reads_refuse_bind _).relates refl
        · refine Relates.bind SameKeys.trans (sameKeys_on_db fun db => ?_) fun _ => (Inspects.pure _).relates refl
          rcases db.activate_remote_binding_cases listing new_id { intent with binding_version := some session.binding_version }
            now_millis with ⟨pending,after,n,-,-,-,-,made,ran⟩ | ⟨e,ran⟩
          · rw [ran]
            exact (Prod.mk.inj (Prod.mk.inj (Database.enqueue_sync_baseline_keeps made).1).2).2
          · rw [ran]
            rfl

end
/-! ### What holds of the relay and of a device -/

section
variable {p : Primitives} {hash : List UInt8 → String} {account_id : AccountId} {devices : Set DeviceKeypairs} {shelf : Shelf} {n : ℕ}

/-- Boxes are sealed to the devices with the ids, no bundle is ahead of the attestations,
    and these are not ahead of the number of revocations. -/
structure ShelfFit (p : Primitives) (devices : Set DeviceKeypairs) (n : ℕ) (shelf : Shelf) : Prop
    extends Addressed p devices shelf where
  dated : ∀ keys ∈ devices, ∀ box ∈ shelf.mailbox (p.device_id keys), ∀ bundle, Enrols p keys bundle box →
    bundle.key_epoch ≤ p.scan shelf.attestations
  few : (p.scan shelf.attestations).toNat ≤ n

theorem ShelfFit.put_record (fit : ShelfFit p devices n shelf) (apart : devices.InjOn p.device_id) {keys : DeviceKeypairs}
    (there : keys ∈ devices) (now_millis : Int64) :
    ShelfFit p devices n (shelf.put_record (p.device_id keys) (p.sign_record keys now_millis).to_bytes) :=
  ⟨fit.toAddressed.put_record apart there now_millis,fit.dated,fit.few⟩

/-- An attestation that is not ahead of the others changes nothing for the epoch. -/
theorem ShelfFit.append_attestation (fit : ShelfFit p devices n shelf) (lawful : p.Lawful) (signer : DeviceKeypairs)
    (kind : AttestationKind) {subject : DeviceRecord} (named : p.device_id_from_ed25519 subject.ed25519_pub = subject.device_id)
    {key_epoch : UInt32} (behind : key_epoch ≤ p.scan shelf.attestations) (issued_at : Int64) :
    ShelfFit p devices n (shelf.append_attestation hash (p.sign_attestation signer kind subject key_epoch issued_at).to_bytes) := by
  refine ⟨fit.toAddressed.append_attestation _,fun keys mine box inside bundle enrols => ?_,?_⟩
  · exact UInt32.le_trans (fit.dated keys mine box inside bundle enrols) Primitives.scan_le_deposit
  · refine le_trans ?_ fit.few
    refine UInt32.le_iff_toNat_le.mp (Primitives.scan_deposit_le (UInt32.le_refl _) fun signed verifies => ?_)
    rw [Primitives.verified_sign_attestation lawful signer kind named] at verifies
    cases verifies
    exact behind

/-- The bundle of an approval is not ahead of the attestations if its approver is not. -/
theorem ShelfFit.put_wrap (fit : ShelfFit p devices n shelf) (lawful : p.Lawful) {d : String} {subject : SignedDeviceRecord}
    {draw : Option Draw} {ark : AccountRootKey} {key_epoch : UInt32} {box : List UInt8} (published : Published p shelf d subject)
    (made : p.seal_enrollment_bundle draw subject.record.x25519_pub d ark account_id key_epoch = .ok box)
    (behind : key_epoch ≤ p.scan shelf.attestations) : ShelfFit p devices n (shelf.put_wrap hash d box) := by
  refine ⟨fit.toAddressed.put_wrap published made,fun keys mine b inside bundle enrols => ?_,fit.few⟩
  by_cases me : p.device_id keys = d
  · subst me
    simp only [Shelf.put_wrap,Function.update_self] at inside
    rcases mem_deposit inside with old | rfl
    · exact fit.dated keys mine b old bundle enrols
    · have same := (enrols.opened lawful).symm.trans ((fit.toAddressed.enrols mine published made).opened lawful)
      rw [Option.some.inj same]
      exact behind
  · simp only [Shelf.put_wrap,Function.update_of_ne me] at inside
    exact fit.dated keys mine b inside bundle enrols

/-- A revocation to an epoch that is at most one ahead. -/
theorem ShelfFit.revoke (fit : ShelfFit p devices n shelf) (lawful : p.Lawful) (hash : List UInt8 → String) {wraps : List RewrappedKey} {ark : AccountRootKey}
    {new_epoch : UInt32} (made : ∀ w ∈ wraps, ∃ signed draw, Published p shelf w.device_id signed ∧
      p.rewrap ark account_id new_epoch ⟨w.device_id,signed.record.x25519_pub⟩ draw = .ok w) (next : new_epoch.toNat ≤ n + 1)
    (signer : DeviceKeypairs) {subject : DeviceRecord} (named : p.device_id_from_ed25519 subject.ed25519_pub = subject.device_id)
    (issued_at : Int64) : ShelfFit p devices (n + 1) ((put_boxes hash wraps shelf).append_attestation hash
      (p.attest_revoke signer subject new_epoch issued_at).to_bytes) ∧
    p.scan shelf.attestations ≤ p.scan ((put_boxes hash wraps shelf).append_attestation hash
      (p.attest_revoke signer subject new_epoch issued_at).to_bytes).attestations := by
  have same : (put_boxes hash wraps shelf).attestations = shelf.attestations := attestations_put_boxes wraps shelf
  have grows : p.scan shelf.attestations ≤ p.scan ((put_boxes hash wraps shelf).append_attestation hash
      (p.attest_revoke signer subject new_epoch issued_at).to_bytes).attestations := by
    rw [Shelf.append_attestation,same]
    exact Primitives.scan_le_deposit
  refine ⟨⟨(fit.toAddressed.put_boxes made).append_attestation _,fun keys mine box inside bundle enrols => ?_,?_⟩,grows⟩
  · refine UInt32.le_trans ?_ grows
    rcases fit.toAddressed.rekeys mine made inside with old | rekeys
    · exact fit.dated keys mine box old bundle enrols
    · have opened := (rekeys.opened lawful).symm.trans (enrols.opened lawful)
      cases opened
  · have bound : p.scan shelf.attestations ≤ max (p.scan shelf.attestations) new_epoch ∧
        new_epoch ≤ max (p.scan shelf.attestations) new_epoch ∧ (max (p.scan shelf.attestations) new_epoch).toNat ≤ n + 1 := by
      have few := fit.few
      simp only [Primitives.max_eq]
      split
      · next up => exact ⟨up,UInt32.le_refl _,next⟩
      · next down => exact ⟨UInt32.le_refl _,UInt32.le_of_lt (UInt32.not_le.mp down),by omega⟩
    refine le_trans (UInt32.le_iff_toNat_le.mp ?_) bound.2.2
    rw [Shelf.append_attestation,same]
    refine Primitives.scan_deposit_le bound.1 fun signed verifies => ?_
    rw [Primitives.attest_revoke,Primitives.verified_sign_attestation lawful signer .Revoke named] at verifies
    cases verifies
    exact bound.2.1

end

/-- The keys and the account of the device are among those of the account. -/
def Anchored (devices : Set DeviceKeypairs) (account_id : AccountId) (d : LocalDevice) : Prop :=
  ∀ label, (∀ keys ∈ (d.store label).device_keys, keys ∈ devices) ∧ ∀ id ∈ (d.store label).account_id, id = account_id

/-- What holds of the relay and of a device after so many revocations. -/
structure FitDevice {σ : Type} (p : Primitives) (view : σ → Shelf) (fine : σ → Prop) (devices : Set DeviceKeypairs)
    (account_id : AccountId) (n : ℕ) (w : σ × LocalDevice) : Prop where
  fine : fine w.1
  shelf : ShelfFit p devices n (view w.1)
  held : Anchored devices account_id w.2
  stored : w.2.db.sync_state.key_epoch ≤ p.scan (view w.1).attestations

/-- A fit state after another one: neither the attested epoch nor that of the device has
    decreased. -/
structure Onward {σ : Type} (p : Primitives) (view : σ → Shelf) (fine : σ → Prop) (devices : Set DeviceKeypairs)
    (account_id : AccountId) (n : ℕ) (w t : σ × LocalDevice) : Prop extends FitDevice p view fine devices account_id n t where
  attested : p.scan (view w.1).attestations ≤ p.scan (view t.1).attestations
  epoch : w.2.db.sync_state.key_epoch ≤ t.2.db.sync_state.key_epoch

/-! ### What the parts of a command do -/

section
variable {σ α : Type} {relay : RelayTransport σ} {p : Primitives} {hash : List UInt8 → String} {account_id : AccountId}
  {view : σ → Shelf} {fine : σ → Prop} {devices : Set DeviceKeypairs} {n : ℕ} {w t r : σ × LocalDevice}
  {bad : σ × LocalDevice → Prop}

open DeviceM

theorem Onward.refl (fit : FitDevice p view fine devices account_id n w) : Onward p view fine devices account_id n w w :=
  ⟨fit,UInt32.le_refl _,UInt32.le_refl _⟩

theorem Onward.trans {m : ℕ} (first : Onward p view fine devices account_id n w t)
    (second : Onward p view fine devices account_id m t r) : Onward p view fine devices account_id m w r :=
  ⟨second.toFitDevice,UInt32.le_trans first.attested second.attested,UInt32.le_trans first.epoch second.epoch⟩

theorem Onward.sameKeys (reached : Onward p view fine devices account_id n w t) (same : SameKeys t r) :
    Onward p view fine devices account_id n w r := by
  obtain ⟨relay,store,epoch⟩ := same
  refine ⟨⟨?_,?_,?_,?_⟩,?_,?_⟩
  · rw [relay]; exact reached.fine
  · rw [relay]; exact reached.shelf
  · unfold Anchored; rw [store]; exact reached.held
  · rw [relay,epoch]; exact reached.stored
  · rw [relay]; exact reached.attested
  · rw [epoch]; exact reached.epoch

theorem Onward.later (reached : Onward p view fine devices account_id n w t) : Onward p view fine devices account_id (n + 1) w t :=
  ⟨⟨reached.fine,{ reached.shelf with few := Nat.le_succ_of_le reached.shelf.few },reached.held,reached.stored⟩,
    reached.attested,reached.epoch⟩

theorem does_device : Does DeviceM.device t (fun d r => r = t ∧ d = t.2) bad := ⟨rfl,rfl⟩

theorem does_load (account : String) : Does (load account) t (fun m r => r = t ∧ m = t.2.store account) bad := ⟨rfl,rfl⟩

theorem does_expect (otherwise : bad t) (x : Option α) (message : String) :
    Does (expect x message) t (fun a r => r = t ∧ x = some a) bad := by
  cases x with
  | none => exact otherwise
  | some a => exact ⟨rfl,rfl⟩

theorem does_inspects {x : DeviceM σ α} (otherwise : bad t) (reads : Inspects x) : Does x t (fun _ r => r = t) bad :=
  (reads.does t).mono (fun _ _ same => same) (fun _ same => same ▸ otherwise)

/-- The same, with what is known of a guard that lets the command through. -/
theorem does_guard {x : DeviceM σ α} (otherwise : bad t) (reads : Inspects x) :
    Does x t (fun a r => r = t ∧ x t = .ok a t) bad := by
  have same := reads t
  unfold Does
  cases ran : x t with
  | ok a r =>
    rw [ran] at same
    obtain rfl : r = t := same
    exact ⟨rfl,rfl⟩
  | error e r =>
    rw [ran] at same
    obtain rfl : r = t := same
    exact otherwise

theorem does_sameKeys {x : DeviceM σ α} (reached : Onward p view fine devices account_id n w t) (relates : Relates SameKeys x) :
    Does x t (fun _ r => SameKeys t r) (Onward p view fine devices account_id n w) :=
  (relates.does t).mono (fun _ _ same => same) (fun _ same => reached.sameKeys same)

/-- Keys of the account are stored. -/
theorem does_save (reached : Onward p view fine devices account_id n w t) {account : String} {change : KeyMaterial → KeyMaterial}
    (held : (∀ keys ∈ (change (t.2.store account)).device_keys, keys ∈ devices) ∧
      ∀ id ∈ (change (t.2.store account)).account_id, id = account_id) :
    Does (save account change) t (fun _ r => Onward p view fine devices account_id n w r ∧ r.1 = t.1 ∧ r.2.db = t.2.db) bad := by
  refine ⟨⟨⟨reached.fine,reached.shelf,fun label => ?_,reached.stored⟩,reached.attested,reached.epoch⟩,rfl,rfl⟩
  by_cases mine : label = account
  · subst mine
    simpa using held
  · simpa [mine] using reached.held label

theorem does_ensure_device_keys (reached : Onward p view fine devices account_id n w t) {fresh : DeviceKeypairs}
    (there : fresh ∈ devices) (account : String) : Does (ensure_device_keys fresh account) t
      (fun keys r => keys ∈ devices ∧ Onward p view fine devices account_id n w r ∧ r.1 = t.1 ∧ r.2.db = t.2.db) bad := by
  unfold ensure_device_keys
  refine Does.bind (does_load account) fun m r ⟨same,known⟩ => ?_
  subst same known
  cases stored : (r.2.store account).device_keys with
  | some keys => exact ⟨(reached.held account).1 keys stored,reached,rfl,rfl⟩
  | none =>
    refine Does.bind (does_save reached ?_) fun _ r' done => ⟨there,done⟩
    refine ⟨fun keys same => ?_,(reached.held account).2⟩
    obtain rfl : fresh = keys := Option.some.inj same
    exact there

/-- An epoch that is not ahead of the attestations is stored. -/
theorem does_set_sync_identity (reached : Onward p view fine devices account_id n w t) {key_epoch : UInt32}
    (behind : key_epoch ≤ p.scan (view t.1).attestations) (ahead : w.2.db.sync_state.key_epoch ≤ key_epoch)
    (content device_id : String) (server_url : Option String) : Does (set_sync_identity content device_id key_epoch server_url) t
      (fun _ r => Onward p view fine devices account_id n w r ∧ r.1 = t.1) bad :=
  ⟨⟨⟨reached.fine,reached.shelf,reached.held,behind⟩,reached.attested,ahead⟩,rfl⟩

theorem does_answers {x : EStateM SyncError σ α} {right : α → Prop} (otherwise : bad t) (answers : Answers x t.1 right) :
    Does (on_relay x) t (fun a r => r = t ∧ right a) bad := by
  obtain ⟨s,d⟩ := t
  rcases answers with ⟨a,ran,holds⟩ | ⟨e,failed⟩
  · simp only [Does,on_relay,ran]
    exact ⟨trivial,holds⟩
  · simp only [Does,on_relay,failed]
    exact otherwise

theorem does_succeedsOrNot {x : EStateM SyncError σ α} {did : α → Shelf → Prop} (otherwise : bad t)
    (succeeds : SucceedsOrNot view fine x t.1 did) :
    Does (on_relay x) t (fun a r => r.2 = t.2 ∧ fine r.1 ∧ did a (view r.1)) bad := by
  obtain ⟨s,d⟩ := t
  rcases succeeds with ⟨a,s',ran,here,done⟩ | ⟨e,failed⟩
  · simp only [Does,on_relay,ran]
    exact ⟨trivial,here,done⟩
  · simp only [Does,on_relay,failed]
    exact otherwise

/-- The relay has done something that leaves its shelf fit. -/
theorem Onward.answered {m : ℕ} (reached : Onward p view fine devices account_id n w t) (same : r.2 = t.2) (here : fine r.1)
    (fit : ShelfFit p devices m (view r.1)) (grows : p.scan (view t.1).attestations ≤ p.scan (view r.1).attestations) :
    Onward p view fine devices account_id m w r := by
  refine ⟨⟨here,fit,?_,?_⟩,UInt32.le_trans reached.attested grows,?_⟩
  · rw [same]; exact reached.held
  · rw [same]; exact UInt32.le_trans reached.stored grows
  · rw [same]; exact reached.epoch

section
variable (lawful : p.Lawful) (honest : Honest relay hash account_id.to_hex view fine) (apart : devices.InjOn p.device_id)
include lawful honest apart

theorem does_bootstrap (reached : Onward p view fine devices account_id n w t) {keys : DeviceKeypairs} (there : keys ∈ devices)
    {key_epoch : UInt32} (behind : key_epoch ≤ p.scan (view t.1).attestations) (now_millis : Int64) :
    Does (on_relay (relay.bootstrap p account_id keys key_epoch now_millis)) t (fun _ r => r.2 = t.2 ∧
      Onward p view fine devices account_id n w r ∧ key_epoch ≤ p.scan (view r.1).attestations) bad := by
  obtain ⟨a,s',ran,here,shelf⟩ := bootstrap_succeeds (p := p) honest reached.fine keys key_epoch now_millis
  obtain ⟨s,d⟩ := t
  have fit : ShelfFit p devices n (view s') := by
    rw [shelf]
    exact (reached.shelf.put_record apart there now_millis).append_attestation lawful keys .Trust rfl behind now_millis
  have grows : p.scan (view s).attestations ≤ p.scan (view s').attestations := by
    rw [shelf]
    exact Primitives.scan_le_deposit
  simp only [Does,on_relay,ran]
  exact ⟨trivial,reached.answered rfl here fit grows,UInt32.le_trans behind grows⟩

omit lawful in
theorem does_enroll_publish (reached : Onward p view fine devices account_id n w t) {keys : DeviceKeypairs}
    (there : keys ∈ devices) (now_millis : Int64) : Does (on_relay (relay.enroll_publish p account_id keys now_millis)) t
      (fun _ r => Onward p view fine devices account_id n w r) (Onward p view fine devices account_id n w) := by
  have published := enroll_publish_succeeds (p := p) honest reached.fine keys now_millis
  refine (does_succeedsOrNot reached (.inl published)).mono (fun _ r ⟨same,here,shelf⟩ => ?_) fun _ => id
  refine reached.answered same here ?_ ?_
  · rw [shelf]
    exact reached.shelf.put_record apart there now_millis
  · rw [shelf]
    exact UInt32.le_refl _

omit apart in
theorem does_approve (reached : Onward p view fine devices account_id n w t) (draw : Option Draw) (approver : DeviceKeypairs)
    (ark : AccountRootKey) {key_epoch : UInt32} (behind : key_epoch ≤ p.scan (view t.1).attestations) (d : String)
    (now_millis : Int64) : Does (on_relay (relay.approve p account_id draw approver ark key_epoch d now_millis)) t
      (fun _ r => Onward p view fine devices account_id n w r) (Onward p view fine devices account_id n w) := by
  have approved := approve_succeeds (p := p) honest reached.fine draw approver ark key_epoch d now_millis
  refine (does_succeedsOrNot reached approved).mono (fun _ r ⟨same,here,done⟩ => ?_) fun _ => id
  obtain ⟨subject,box,published,made,shelf⟩ := done
  refine reached.answered same here ?_ ?_
  · rw [shelf]
    exact (reached.shelf.put_wrap lawful published made behind).append_attestation lawful approver .Trust published.named.2
      behind now_millis
  · rw [shelf]
    exact Primitives.scan_le_deposit

omit lawful apart in
theorem does_sas_against (reached : Onward p view fine devices account_id n w t) (keys : DeviceKeypairs) (d : String) :
    Does (on_relay (relay.sas_against p account_id keys d)) t (fun _ r => r = t) (Onward p view fine devices account_id n w) := by
  have answers : Answers (relay.sas_against p account_id keys d) t.1 (fun _ => True) :=
    (fetch_device_record_answers honest reached.fine d).bind_answers fun _ _ => .pure _ trivial
  exact (does_answers reached answers).mono (fun _ _ done => done.1) fun _ => id

omit lawful apart in
theorem does_recover_ark (reached : Onward p view fine devices account_id n w t) (secret : List UInt8) :
    Does (on_relay (relay.recover_ark p account_id secret)) t (fun _ r => r = t) (Onward p view fine devices account_id n w) := by
  have answers : Answers (relay.recover_ark p account_id secret) t.1 (fun _ => True) := by
    refine (honest.recovery_get t.1 reached.fine).bind_answers fun blob _ => ?_
    cases blob with
    | none => exact .throw _
    | some bytes =>
      refine (run_crypto_answers _ _ t.1).bind_answers fun blob _ => ?_
      exact (run_crypto_answers _ _ t.1).imp (fun ⟨a,ran,_⟩ => ⟨a,ran,trivial⟩) id
  exact (does_answers reached answers).mono (fun _ _ done => done.1) fun _ => id

omit lawful apart in
theorem does_recovery_put (reached : Onward p view fine devices account_id n w t) (blob : List UInt8) :
    Does (on_relay (relay.recovery_put account_id.to_hex blob)) t (fun _ r => Onward p view fine devices account_id n w r)
      (Onward p view fine devices account_id n w) := by
  refine (does_succeedsOrNot reached (.inl (honest.recovery_put blob t.1 reached.fine).succeeds)).mono
    (fun _ r ⟨same,here,shelf⟩ => ?_) fun _ => id
  exact reached.answered same here (by rw [shelf]; exact reached.shelf) (by rw [shelf]; exact UInt32.le_refl _)

omit lawful apart in
theorem does_recovery_publish (reached : Onward p view fine devices account_id n w t)
    (salt : Option (Bytes RECOVERY_SALT_LEN)) (nonce : Option (Bytes NONCE_LEN)) (ark : AccountRootKey) (secret : List UInt8) :
    Does (on_relay (relay.recovery_publish p account_id salt nonce ark secret)) t
      (fun _ r => Onward p view fine devices account_id n w r) (Onward p view fine devices account_id n w) := by
  have published : SucceedsOrNot view fine (relay.recovery_publish p account_id salt nonce ark secret) t.1
      (fun _ shelf => shelf = view t.1) :=
    (run_crypto_answers _ _ t.1).bind fun blob _ => .inl (honest.recovery_put _ t.1 reached.fine).succeeds
  refine (does_succeedsOrNot reached published).mono (fun _ r ⟨same,here,shelf⟩ => ?_) fun _ => id
  exact reached.answered same here (by rw [shelf]; exact reached.shelf) (by rw [shelf]; exact UInt32.le_refl _)

omit lawful apart in
theorem does_publish_bootstrap_recovery (reached : Onward p view fine devices account_id n w t) (ark : AccountRootKey)
    (recovery : BootstrapRecovery) : Does (publish_bootstrap_recovery p relay account_id ark recovery) t
      (fun _ r => Onward p view fine devices account_id n w r) (Onward p view fine devices account_id n w) := by
  cases recovery with
  | Disabled => exact reached
  | Passphrase secret salt nonce => exact does_recovery_publish honest reached salt nonce ark secret
  | Pending artefact =>
    cases artefact with
    | error e => exact reached
    | ok blob => exact does_recovery_put honest reached blob

end

/-- Over complete lists a device takes the first bundle of its mailbox that opens. -/
theorem accept_answers (complete : ListsAll relay account_id.to_hex view fine) {s : σ} (here : fine s) (keys : DeviceKeypairs) :
    Answers (relay.accept p account_id keys) s (fun accepted => accepted.bundle.account_id = account_id ∧
      ((view s).mailbox (p.device_id keys)).findSome? (p.opened keys) = some accepted.bundle) := by
  obtain ⟨wraps,listed,boxes⟩ := complete.wraps_list (p.device_id keys) s here
  obtain ⟨attestations,listed',-⟩ := complete.attestations_list s here
  cases ran : relay.accept p account_id keys s with
  | ok accepted t =>
    obtain ⟨wraps',r,attestations',found,found',opens,mine,-⟩ := accept_ok.mp ran
    cases listed.symm.trans found
    cases listed'.symm.trans found'
    refine .inl ⟨accepted,ran,mine,?_⟩
    rw [← boxes,List.findSome?_map]
    exact opens
  | error e t =>
    have quiet : t = s := by
      unfold RelayTransport.accept at ran
      rw [work_bind,listed] at ran
      cases wraps with
      | nil => cases ran; rfl
      | cons first wraps =>
        simp only [List.isEmpty_cons,Bool.false_eq_true,if_false] at ran
        cases found : (first :: wraps).findSome? (fun w => p.opened keys w.bundle) with
        | none =>
          rw [found] at ran
          cases ran
          rfl
        | some bundle =>
          rw [found] at ran
          by_cases mine : bundle.account_id = account_id
          · have looked : relay.find_truster p account_id (p.device_id keys) s =
                .ok (attestations.findSome? (fun a => p.truster (p.device_id keys) a.attestation)) s := by
              unfold RelayTransport.find_truster
              rw [work_bind,listed']
              rfl
            simp only [mine,ne_eq,not_true,if_false,work_bind,looked] at ran
            cases ran
          · simp only [mine,ne_eq,not_false_eq_true,if_true] at ran
            cases ran
            rfl
    exact .inr ⟨e,quiet ▸ ran⟩

theorem does_accept (complete : ListsAll relay account_id.to_hex view fine) (reached : Onward p view fine devices account_id n w t)
    (keys : DeviceKeypairs) : Does (on_relay (relay.accept p account_id keys)) t (fun accepted r => r = t ∧
      accepted.bundle.account_id = account_id ∧
      ((view t.1).mailbox (p.device_id keys)).findSome? (p.opened keys) = some accepted.bundle)
      (Onward p view fine devices account_id n w) :=
  does_answers reached (accept_answers complete reached.fine keys)

theorem does_current_epoch (complete : ListsAll relay account_id.to_hex view fine)
    (reached : Onward p view fine devices account_id n w t) : Does (on_relay (relay.current_epoch p account_id)) t
      (fun epoch r => r = t ∧ epoch = p.scan (view t.1).attestations) (Onward p view fine devices account_id n w) :=
  does_answers reached (.inl ⟨_,current_epoch_complete complete reached.fine,rfl⟩)

end

/-! ### Runs of the commands -/

/-- A command with its arguments and with what it draws and is answered beside the relay. -/
inductive DeviceRun where
  | bootstrap (fresh : FreshKeys) (server account : String) (create_new_account : Bool) (auth : Option RelayAuth)
      (recovery : BootstrapRecovery) (now_millis : UInt64)
  | enroll (fresh : DeviceKeypairs) (server : String) (account_id : AccountId) (approver account : String) (now_millis : UInt64)
  | approve (draw : Option Draw) (subject : String) (expect_sas : Option String) (account : String) (now_millis : UInt64)
  | accept (server : Option String) (account_id : Option AccountId) (account : String) (now_millis : UInt64)
  | revoke (draws : ℕ → Option Draw) (revoked account : String) (sessions_revoked : Bool) (now_millis : UInt64)
  | recover (fresh : DeviceKeypairs) (secret : List UInt8) (server : String) (account_id : AccountId) (account : String)
      (now_millis : UInt64)

namespace DeviceRun

/-- The command is one for this account, and keys that it draws are those of one of its devices. -/
def Of (devices : Set DeviceKeypairs) (account_id : AccountId) : DeviceRun → Prop
  | .bootstrap fresh .. => fresh.device_keys ∈ devices ∧ fresh.account_id = account_id
  | .enroll fresh _ id .. => fresh ∈ devices ∧ id = account_id
  | .approve .. => True
  | .accept _ id .. => ∀ i ∈ id, i = account_id
  | .revoke .. => True
  | .recover fresh _ _ id .. => fresh ∈ devices ∧ id = account_id

def revocations : DeviceRun → ℕ
  | .revoke .. => 1
  | _ => 0

/-- A device that revokes has stored the greatest epoch that is attested, and the first
    bundle of a device that may join is not behind the epoch that the device has stored. -/
def Current {σ : Type} (p : Primitives) (shelf : Shelf) (w : σ × LocalDevice) : DeviceRun → Prop
  | .revoke .. => ∀ a ∈ shelf.attestations, ∀ signed, p.verified a = some signed →
    signed.attestation.key_epoch ≤ w.2.db.sync_state.key_epoch
  | .accept server account_id account _ => ∀ keys ∈ (w.2.store account).device_keys,
    ∀ url, (server <|> w.2.db.sync_state.server_url) = some url →
    ∀ id, (account_id <|> (w.2.store account).account_id) = some id → guard_cli_join w.2 account url id w = .ok () w →
    ∀ bundle, FirstEnrols p keys (shelf.mailbox (p.device_id keys)) bundle → w.2.db.sync_state.key_epoch ≤ bundle.key_epoch
  | _ => True

/-- No attestation has the hash of another one, with which a revocation is published. -/
def Unlike (p : Primitives) (hash : List UInt8 → String) (shelf : Shelf) (d : LocalDevice) : DeviceRun → Prop
  | .revoke _ revoked account _ now_millis => ∀ keys ∈ (d.store account).device_keys, ∀ signed, Published p shelf revoked signed →
    let made := (p.attest_revoke keys signed.record (RelayTransport.next_epoch d.db.sync_state.key_epoch) now_millis.toInt64).to_bytes
    ∀ a ∈ shelf.attestations, hash a = hash made → a = made
  | _ => True

section
variable {σ : Type} (relay : RelayTransport σ) (p : Primitives) [Formats] (listing : Listing) (new_id : Nat → String)

def perform : DeviceRun → DeviceM σ Unit
  | .bootstrap fresh server account create_new_account auth recovery now_millis =>
    sync_device_bootstrap p relay listing new_id fresh server account create_new_account auth recovery now_millis
  | .enroll fresh server account_id approver account now_millis => do
    let _ ← sync_device_enroll p relay fresh server account_id approver account now_millis
  | .approve draw subject expect_sas account now_millis => sync_device_approve p relay draw subject expect_sas account now_millis
  | .accept server account_id account now_millis => sync_device_accept p relay listing new_id server account_id account now_millis
  | .revoke draws revoked account sessions_revoked now_millis => do
    let _ ← sync_device_revoke p relay draws revoked account sessions_revoked now_millis
  | .recover fresh secret server account_id account now_millis =>
    sync_device_recover p relay listing new_id fresh secret server account_id account now_millis

end
end DeviceRun

section
variable {σ : Type} {relay : RelayTransport σ} {p : Primitives} {hash : List UInt8 → String} {account_id : AccountId}
  {view : σ → Shelf} {fine : σ → Prop} {devices : Set DeviceKeypairs} {n : ℕ} {w : σ × LocalDevice}
variable (lawful : p.Lawful) (honest : Honest relay hash account_id.to_hex view fine)
  (complete : ListsAll relay account_id.to_hex view fine) (apart : devices.InjOn p.device_id)

open DeviceM

section
include lawful honest apart

theorem does_sync_device_bootstrap [Formats] (listing : Listing) (new_id : Nat → String)
    (fit : FitDevice p view fine devices account_id n w) {fresh : FreshKeys} (there : fresh.device_keys ∈ devices)
    (ours : fresh.account_id = account_id) (server account : String) (create_new_account : Bool) (auth : Option RelayAuth)
    (recovery : BootstrapRecovery) (now_millis : UInt64) :
    Does (sync_device_bootstrap p relay listing new_id fresh server account create_new_account auth recovery now_millis) w
      (fun _ t => Onward p view fine devices account_id n w t) (Onward p view fine devices account_id n w) := by
  have start := Onward.refl fit
  unfold sync_device_bootstrap
  refine Does.bind does_device fun d t ⟨same,known⟩ => ?_
  subst same known
  refine Does.bind (does_inspects start (reads_guard_cli_create p _ server account create_new_account auth)) fun _ r same => ?_
  subst same
  refine Does.bind (does_ensure_device_keys start there account) fun keys t₁ ⟨mine,reached,_⟩ => ?_
  refine Does.bind (does_save reached ?_) fun _ t₂ ⟨reached,_⟩ => ?_
  · exact reached.held account
  refine Does.bind (does_save reached ?_) fun _ t₃ ⟨reached,_⟩ => ?_
  · refine ⟨(reached.held account).1,fun id same => ?_⟩
    cases stored : (t₂.2.store account).account_id with
    | none =>
      rw [stored] at same
      cases same
      exact ours
    | some known =>
      rw [stored] at same
      cases same
      exact (reached.held account).2 _ stored
  refine Does.bind (does_load account) fun m t₄ ⟨same,known⟩ => ?_
  subst same known
  have ours' : ((t₄.2.store account).account_id.getD fresh.account_id) = account_id := by
    cases stored : (t₄.2.store account).account_id with
    | none => exact ours
    | some id => exact (reached.held account).2 id stored
  simp only [ours']
  refine Does.bind does_device fun d t₅ ⟨same,known⟩ => ?_
  subst same known
  have attach : Relates SameKeys (auth.forM (authenticated_attach p server account account_id fresh.operation_id) : DeviceM σ Unit) := by
    cases auth with
    | none => exact (Inspects.pure _).relates SameKeys.refl
    | some auth => exact sameKeys_authenticated_attach p server account account_id fresh.operation_id auth
  refine Does.bind (does_sameKeys reached attach) fun _ t₆ same => ?_
  have reached₆ := reached.sameKeys same
  refine Does.bind (does_inspects reached₆ (reads_open_account_relay p server account)) fun _ t₇ same' => ?_
  subst same'
  have behind : t₅.2.db.sync_state.key_epoch ≤ p.scan (view t₇.1).attestations := by
    rw [same.1]
    exact reached.stored
  refine Does.bind (does_bootstrap lawful honest apart reached₆ mine behind _) fun _ t₈ ⟨_,reached₈,behind⟩ => ?_
  refine Does.bind (does_set_sync_identity reached₈ behind reached.epoch _ _ _) fun _ t₉ ⟨reached₉,_⟩ => ?_
  refine Does.bind (does_load account) fun m r ⟨same,known⟩ => ?_
  subst same known
  refine Does.bind (does_expect reached₉ _ _) fun ark r' ⟨same,_⟩ => ?_
  subst same
  refine Does.bind (does_publish_bootstrap_recovery honest reached₉ ark recovery) fun _ r'' reached => ?_
  exact (does_sameKeys reached (sameKeys_finish_local_adoption listing new_id server account now_millis)).mono
    (fun _ _ same => reached.sameKeys same) fun _ => id

omit lawful in
theorem does_sync_device_enroll (fit : FitDevice p view fine devices account_id n w) {fresh : DeviceKeypairs} (there : fresh ∈ devices)
    (server approver account : String) (now_millis : UInt64) :
    Does (sync_device_enroll p relay fresh server account_id approver account now_millis) w
      (fun _ t => Onward p view fine devices account_id n w t) (Onward p view fine devices account_id n w) := by
  have start := Onward.refl fit
  have rest : Does (do
      let keys ← ensure_device_keys fresh account
      save account (fun m => { m with account_id := some account_id })
      open_account_relay p server account
      on_relay (relay.enroll_publish p account_id keys now_millis.toInt64)
      on_relay (relay.sas_against p account_id keys approver) : DeviceM σ Sas) w
      (fun _ t => Onward p view fine devices account_id n w t) (Onward p view fine devices account_id n w) := by
    refine Does.bind (does_ensure_device_keys start there account) fun keys t₁ ⟨mine,reached,_⟩ => ?_
    refine Does.bind (does_save reached ?_) fun _ t₂ ⟨reached,_⟩ => ?_
    · refine ⟨(reached.held account).1,fun id same => ?_⟩
      exact (Option.some.inj same).symm
    refine Does.bind (does_inspects reached (reads_open_account_relay p server account)) fun _ t₃ same => ?_
    subst same
    refine Does.bind (does_enroll_publish honest apart reached mine _) fun _ t₄ reached => ?_
    exact (does_sas_against honest reached keys approver).mono (fun _ _ same => same ▸ reached) fun _ => id
  unfold sync_device_enroll
  refine Does.bind does_device fun d t ⟨same,known⟩ => ?_
  subst same known
  simp only
  split
  · exact start
  · split
    · exact start
    · exact rest

omit apart in
theorem does_sync_device_approve (fit : FitDevice p view fine devices account_id n w) (draw : Option Draw) (subject : String)
    (expect_sas : Option String) (account : String) (now_millis : UInt64) :
    Does (sync_device_approve p relay draw subject expect_sas account now_millis) w
      (fun _ t => Onward p view fine devices account_id n w t) (Onward p view fine devices account_id n w) := by
  have start := Onward.refl fit
  unfold sync_device_approve
  refine Does.bind (does_load account) fun m t ⟨same,known⟩ => ?_
  subst same known
  refine Does.bind (does_expect start _ _) fun keys t ⟨same,_⟩ => ?_
  subst same
  refine Does.bind (does_expect start _ _) fun ark t ⟨same,_⟩ => ?_
  subst same
  refine Does.bind (does_expect start _ _) fun id t ⟨same,stored⟩ => ?_
  subst same
  obtain rfl := (fit.held account).2 id stored
  refine Does.bind does_device fun d t ⟨same,known⟩ => ?_
  subst same known
  refine Does.bind (does_expect start _ _) fun server t ⟨same,_⟩ => ?_
  subst same
  refine Does.bind (does_inspects start (reads_open_account_relay p server account)) fun _ t same => ?_
  subst same
  refine Does.bind (does_sas_against honest start keys subject) fun sas t same => ?_
  subst same
  split
  · exact start
  · exact Does.bind (does_approve lawful honest start draw keys ark fit.stored subject _) fun _ t reached => reached

end

section
include lawful complete

theorem does_sync_device_accept [Formats] (listing : Listing) (new_id : Nat → String)
    (fit : FitDevice p view fine devices account_id n w) (server : Option String) {claimed : Option AccountId}
    (ours : ∀ id ∈ claimed, id = account_id)
    (account : String) (now_millis : UInt64) (current : (DeviceRun.accept server claimed account now_millis).Current p (view w.1) w) :
    Does (sync_device_accept p relay listing new_id server claimed account now_millis) w
      (fun _ t => Onward p view fine devices account_id n w t) (Onward p view fine devices account_id n w) := by
  have start := Onward.refl fit
  unfold sync_device_accept
  refine Does.bind (does_load account) fun m t ⟨same,known⟩ => ?_
  subst same known
  refine Does.bind (does_expect start _ _) fun keys t ⟨same,mine⟩ => ?_
  subst same
  refine Does.bind (does_expect start _ _) fun i t ⟨same,given⟩ => ?_
  subst same
  refine Does.bind does_device fun d t ⟨same,known⟩ => ?_
  subst same known
  refine Does.bind (does_expect start _ _) fun server' t ⟨same,given'⟩ => ?_
  subst same
  refine Does.bind (does_guard start (reads_guard_cli_join _ account server' i)) fun _ t ⟨same,joins⟩ => ?_
  subst same
  refine Does.bind (does_inspects start (reads_open_account_relay p server' account)) fun _ t same => ?_
  subst same
  obtain rfl : i = account_id := by
    cases claimed with
    | none => exact (fit.held account).2 i given
    | some j =>
      obtain rfl : j = i := Option.some.inj given
      exact ours j rfl
  refine Does.bind (does_accept complete start keys) fun accepted t ⟨same,content,opens⟩ => ?_
  subst same
  have there := (fit.held account).1 keys mine
  have first := (findSome_opened lawful (fit.shelf.boxes keys there)).mp opens
  have ahead := current keys mine server' given' i given joins accepted.bundle first
  have behind : accepted.bundle.key_epoch ≤ p.scan (view t.1).attestations := by
    obtain ⟨before,box,after,split,enrols,-⟩ := first
    exact fit.shelf.dated keys there box (by rw [split]; simp) _ enrols
  refine Does.bind (does_load account) fun m r ⟨same,known⟩ => ?_
  subst same known
  split
  · exact start
  · refine Does.bind (does_save start (fit.held account)) fun _ t₁ ⟨reached,same,_⟩ => ?_
    refine Does.bind (does_save reached ?_) fun _ t₂ ⟨reached,same',_⟩ => ?_
    · refine ⟨(reached.held account).1,fun id same => ?_⟩
      rw [← Option.some.inj same]
      exact content
    refine Does.bind (does_set_sync_identity reached (by rw [same',same]; exact behind) ahead _ _ _) fun _ t₃ ⟨reached,_⟩ => ?_
    exact (does_sameKeys reached (sameKeys_finish_local_adoption listing new_id server' account now_millis)).mono
      (fun _ _ same => reached.sameKeys same) fun _ => id

end

section
include lawful honest apart

theorem does_sync_device_recover [Formats] (complete : ListsAll relay account_id.to_hex view fine) (listing : Listing)
    (new_id : Nat → String) (fit : FitDevice p view fine devices account_id n w) {fresh : DeviceKeypairs} (there : fresh ∈ devices)
    (secret : List UInt8) (server account : String) (now_millis : UInt64) :
    Does (sync_device_recover p relay listing new_id fresh secret server account_id account now_millis) w
      (fun _ t => Onward p view fine devices account_id n w t) (Onward p view fine devices account_id n w) := by
  have start := Onward.refl fit
  unfold sync_device_recover
  refine Does.bind does_device fun d t ⟨same,known⟩ => ?_
  subst same known
  refine Does.bind (does_inspects start (reads_guard_cli_join _ account server account_id)) fun _ t same => ?_
  subst same
  refine Does.bind (does_inspects start (reads_open_account_relay p server account)) fun _ t same => ?_
  subst same
  refine Does.bind (does_recover_ark honest start secret) fun ark t same => ?_
  subst same
  refine Does.bind (does_load account) fun m t ⟨same,known⟩ => ?_
  subst same known
  split
  · exact start
  · refine Does.bind (does_ensure_device_keys start there account) fun keys t₁ ⟨mine,reached,_⟩ => ?_
    refine Does.bind (does_save reached (reached.held account)) fun _ t₂ ⟨reached,_⟩ => ?_
    refine Does.bind (does_save reached ?_) fun _ t₃ ⟨reached,_⟩ => ?_
    · refine ⟨(reached.held account).1,fun id same => ?_⟩
      exact (Option.some.inj same).symm
    refine Does.bind (does_current_epoch complete reached) fun epoch t₄ ⟨same,scanned⟩ => ?_
    subst same scanned
    have ahead := UInt32.le_trans reached.epoch reached.stored
    refine Does.bind (does_bootstrap lawful honest apart reached mine (UInt32.le_refl _) _) fun _ t₅ ⟨_,reached,behind⟩ => ?_
    refine Does.bind (does_set_sync_identity reached behind ahead _ _ _) fun _ t₆ ⟨reached,_⟩ => ?_
    exact (does_sameKeys reached (sameKeys_finish_local_adoption listing new_id server account now_millis)).mono
      (fun _ _ same => reached.sameKeys same) fun _ => id

end

section
include lawful honest

/-- A revocation stores an epoch that its attestation names, unless it is taken for another. -/
theorem does_sync_device_revoke (fit : FitDevice p view fine devices account_id n w) (draws : ℕ → Option Draw) (revoked account : String)
    (sessions_revoked : Bool) (now_millis : UInt64)
    (unlike : (DeviceRun.revoke draws revoked account sessions_revoked now_millis).Unlike p hash (view w.1) w.2) :
    Does (sync_device_revoke p relay draws revoked account sessions_revoked now_millis) w
      (fun _ t => Onward p view fine devices account_id (n + 1) w t) (Onward p view fine devices account_id (n + 1) w) := by
  have start := (Onward.refl fit).later
  unfold sync_device_revoke
  refine Does.bind (does_load account) fun m t ⟨same,known⟩ => ?_
  subst same known
  refine Does.bind (does_expect start _ _) fun keys t ⟨same,mine⟩ => ?_
  subst same
  refine Does.bind (does_expect start _ _) fun ark t ⟨same,_⟩ => ?_
  subst same
  refine Does.bind (does_expect start _ _) fun id t ⟨same,stored⟩ => ?_
  subst same
  obtain rfl := (fit.held account).2 id stored
  refine Does.bind does_device fun d t ⟨same,known⟩ => ?_
  subst same known
  refine Does.bind (does_expect start _ _) fun server t ⟨same,_⟩ => ?_
  subst same
  refine Does.bind (does_inspects start (reads_open_account_relay p server account)) fun _ t same => ?_
  subst same
  refine Does.bind (does_succeedsOrNot start (revoke_succeeds (p := p) honest fit.fine draws keys ark
    t.2.db.sync_state.key_epoch revoked now_millis.toInt64)) fun rev r ⟨same,here,done⟩ => ?_
  obtain ⟨subject,wraps,published,rfl,-,made,shelf⟩ := done
  obtain ⟨fits,grows⟩ := fit.shelf.revoke lawful hash made
    (le_trans (RelayTransport.next_epoch_le _) (Nat.succ_le_succ (le_trans (UInt32.le_iff_toNat_le.mp fit.stored) fit.shelf.few)))
    keys published.named.2 now_millis.toInt64
  rw [← shelf] at fits grows
  have reached := (Onward.refl fit).answered same here fits grows
  have attested : RelayTransport.next_epoch t.2.db.sync_state.key_epoch ≤ p.scan (view r.1).attestations := by
    have verifies := Primitives.verified_sign_attestation lawful keys .Revoke published.named.2
      (RelayTransport.next_epoch t.2.db.sync_state.key_epoch) now_millis.toInt64
    refine Primitives.le_scan ?_ verifies
    rw [shelf,Shelf.append_attestation,attestations_put_boxes]
    exact mem_deposit_self (unlike keys mine subject published)
  have stored : Onward p view fine devices id (n + 1) t (leaves (set_key_epoch (RelayTransport.next_epoch t.2.db.sync_state.key_epoch) r)) :=
    ⟨⟨reached.fine,reached.shelf,reached.held,attested⟩,reached.attested,RelayTransport.le_next_epoch _⟩
  refine Does.bind (show Does _ _ (fun _ r => Onward p view fine devices id (n + 1) t r) _ from stored) fun _ r reached => ?_
  refine Does.bind (does_inspects reached (reads_open_token_provider p server account)) fun session r same => ?_
  subst same
  split
  · exact reached
  · exact reached

end
end

/-! ### Runs on the devices of an account -/

structure Fleet (σ : Type) where
  relay : σ
  devices : ℕ → LocalDevice

/-- A command on a device, with the order of its content items and the ids that it draws. -/
structure FleetCall where
  device : ℕ
  listing : Listing
  new_id : Nat → String
  run : DeviceRun

section
variable {σ : Type} (relay : RelayTransport σ) (p : Primitives) [Formats]

def Fleet.after (fleet : Fleet σ) (call : FleetCall) : Fleet σ :=
  let (s,d) := leaves (call.run.perform relay p call.listing call.new_id (fleet.relay,fleet.devices call.device))
  ⟨s,Function.update fleet.devices call.device d⟩

/-- The revocation that a run makes, if it gets as far as that. -/
def DeviceRun.revocation (w : σ × LocalDevice) : DeviceRun → Option Revocation
  | .revoke draws revoked account _ now_millis => do
    let m := w.2.store account
    let keys ← m.device_keys
    let ark ← m.ark
    let account_id ← m.account_id
    answer (relay.revoke p account_id draws keys ark w.2.db.sync_state.key_epoch revoked now_millis.toInt64 w.1)
  | _ => none

/-- A revocation gets an epoch that is greater than those attested before, and no device
    goes back to an earlier epoch. -/
def Fleet.Advances (view : σ → Shelf) (fleet : Fleet σ) (call : FleetCall) : Prop :=
  (∀ r ∈ call.run.revocation relay p (fleet.relay,fleet.devices call.device), ∀ a ∈ (view fleet.relay).attestations, ∀ signed,
    p.verified a = some signed → signed.attestation.key_epoch < r.new_epoch) ∧
  ∀ i, (fleet.devices i).db.sync_state.key_epoch ≤ ((fleet.after relay p call).devices i).db.sync_state.key_epoch

end

/-- Nothing is on the shelf, and the devices, with keys of the account, are in epoch `0`. -/
structure Fleet.Blank {σ : Type} (view : σ → Shelf) (fine : σ → Prop) (devices : Set DeviceKeypairs) (account_id : AccountId)
    (fleet : Fleet σ) : Prop where
  fine : fine fleet.relay
  empty : view fleet.relay = ⟨fun _ => none,fun _ => [],[]⟩
  held : ∀ i, Anchored devices account_id (fleet.devices i)
  epoch : ∀ i, (fleet.devices i).db.sync_state.key_epoch = 0

section
variable {σ : Type} {relay : RelayTransport σ} {p : Primitives} [Formats] {hash : List UInt8 → String} {account_id : AccountId}
  {view : σ → Shelf} {fine : σ → Prop} {devices : Set DeviceKeypairs} {n : ℕ} {w : σ × LocalDevice}

theorem onward_perform (lawful : p.Lawful) (honest : Honest relay hash account_id.to_hex view fine)
    (complete : ListsAll relay account_id.to_hex view fine) (apart : devices.InjOn p.device_id)
    (fit : FitDevice p view fine devices account_id n w) {run : DeviceRun} (ours : run.Of devices account_id)
    (current : run.Current p (view w.1) w) (unlike : run.Unlike p hash (view w.1) w.2) (listing : Listing) (new_id : Nat → String) :
    Onward p view fine devices account_id (n + run.revocations) w (leaves (run.perform relay p listing new_id w)) := by
  refine Does.leaves (P := Onward p view fine devices account_id (n + run.revocations) w) ?_
  cases run with
  | bootstrap fresh server account create_new_account auth recovery now_millis =>
    exact does_sync_device_bootstrap lawful honest apart listing new_id fit ours.1 ours.2 server account create_new_account auth
      recovery now_millis
  | enroll fresh server id approver account now_millis =>
    obtain ⟨there,rfl⟩ := ours
    exact Does.bind (does_sync_device_enroll honest apart fit there server approver account now_millis) fun _ _ reached => reached
  | approve draw subject expect_sas account now_millis =>
    exact does_sync_device_approve lawful honest fit draw subject expect_sas account now_millis
  | accept server claimed account now_millis =>
    exact does_sync_device_accept lawful complete listing new_id fit server ours account now_millis current
  | revoke draws revoked account sessions_revoked now_millis =>
    exact Does.bind (does_sync_device_revoke lawful honest fit draws revoked account sessions_revoked now_millis unlike)
      fun _ _ reached => reached
  | recover fresh secret server id account now_millis =>
    obtain ⟨there,rfl⟩ := ours
    exact does_sync_device_recover lawful honest apart complete listing new_id fit there secret server account now_millis

omit [Formats] in
/-- A revocation by a device that has stored the greatest epoch gets a greater one. -/
theorem revocation_advances (honest : Honest relay hash account_id.to_hex view fine) (fit : FitDevice p view fine devices account_id n w)
    (few : n < 2 ^ 32 - 1) {run : DeviceRun} (current : run.Current p (view w.1) w) :
    ∀ r ∈ run.revocation relay p w, ∀ a ∈ (view w.1).attestations, ∀ signed, p.verified a = some signed →
      signed.attestation.key_epoch < r.new_epoch := by
  intro r made a inside signed verifies
  cases run with
  | revoke draws revoked account sessions_revoked now_millis =>
    simp only [DeviceRun.revocation,Option.mem_def,Option.bind_eq_bind,Option.bind_eq_some_iff] at made
    obtain ⟨keys,-,ark,-,id,stored,made⟩ := made
    obtain rfl := (fit.held account).2 id stored
    have small : w.2.db.sync_state.key_epoch.toNat < 2 ^ 32 - 1 :=
      lt_of_le_of_lt (le_trans (UInt32.le_iff_toNat_le.mp fit.stored) fit.shelf.few) few
    rcases revoke_succeeds (p := p) honest fit.fine draws keys ark w.2.db.sync_state.key_epoch revoked now_millis.toInt64 with
      ⟨rev,t,ran,-,_,_,-,rfl,-⟩ | ⟨e,failed⟩
    · rw [ran] at made
      cases made
      exact UInt32.lt_of_le_of_lt (current a inside signed verifies) (RelayTransport.lt_next_epoch small)
    · rw [failed] at made
      cases made
  | _ => cases made

end

section
variable {σ : Type} {relay : RelayTransport σ} {p : Primitives} [Formats] {hash : List UInt8 → String} {account_id : AccountId}
  {view : σ → Shelf} {fine : σ → Prop} {devices : Set DeviceKeypairs} {n : ℕ} {fleet : Fleet σ}

/-- All devices fit the relay. -/
def Fleet.Fits (p : Primitives) (view : σ → Shelf) (fine : σ → Prop) (devices : Set DeviceKeypairs) (account_id : AccountId) (n : ℕ)
    (fleet : Fleet σ) : Prop := ∀ i, FitDevice p view fine devices account_id n (fleet.relay,fleet.devices i)

theorem Fleet.Fits.after (lawful : p.Lawful) (honest : Honest relay hash account_id.to_hex view fine)
    (complete : ListsAll relay account_id.to_hex view fine) (apart : devices.InjOn p.device_id)
    (fits : fleet.Fits p view fine devices account_id n) {call : FleetCall} (ours : call.run.Of devices account_id)
    (current : call.run.Current p (view fleet.relay) (fleet.relay,fleet.devices call.device))
    (unlike : call.run.Unlike p hash (view fleet.relay) (fleet.devices call.device)) :
    (fleet.after relay p call).Fits p view fine devices account_id (n + call.run.revocations) ∧
      ∀ i, (fleet.devices i).db.sync_state.key_epoch ≤ ((fleet.after relay p call).devices i).db.sync_state.key_epoch := by
  have onward := onward_perform lawful honest complete apart (fits call.device) ours current unlike call.listing call.new_id
  unfold Fleet.after
  revert onward
  generalize leaves (call.run.perform relay p call.listing call.new_id (fleet.relay,fleet.devices call.device)) = t
  intro onward
  obtain ⟨s,d⟩ := t
  constructor
  · intro i
    by_cases mine : i = call.device
    · simpa [mine] using onward.toFitDevice
    · have here := fits i
      simp only [Function.update_of_ne mine]
      exact ⟨onward.fine,onward.shelf,here.held,UInt32.le_trans here.stored onward.attested⟩
  · intro i
    by_cases mine : i = call.device
    · simpa [mine] using onward.epoch
    · simp only [Function.update_of_ne mine]
      exact UInt32.le_refl _

omit [Formats] in
theorem Fleet.Blank.fits (blank : fleet.Blank view fine devices account_id) : fleet.Fits p view fine devices account_id 0 := by
  intro i
  refine ⟨blank.fine,⟨⟨?_,?_⟩,?_,?_⟩,blank.held i,?_⟩
  · rw [blank.empty]
    rintro keys mine signed ⟨bytes,found,-⟩
    cases found
  · rw [blank.empty]
    intro keys mine box inside
    cases inside
  · rw [blank.empty]
    intro keys mine box inside
    cases inside
  · rw [blank.empty]
    exact Nat.le_refl _
  · rw [blank.epoch i]
    exact UInt32.zero_le

end

/-- In every run of the commands on the devices of an account, over a relay whose lists are
    complete: if each device that revokes has stored the greatest attested epoch, and none
    accepts a bundle that is behind its own epoch, then every revocation advances the epoch
    and no device goes back. -/
theorem epochs_advance {σ : Type} {relay : RelayTransport σ} {p : Primitives} [Formats] (lawful : p.Lawful)
    {hash : List UInt8 → String} {account_id : AccountId} {view : σ → Shelf} {fine : σ → Prop}
    (honest : Honest relay hash account_id.to_hex view fine) (complete : ListsAll relay account_id.to_hex view fine)
    {devices : Set DeviceKeypairs} (apart : devices.InjOn p.device_id) {start : Fleet σ}
    (blank : start.Blank view fine devices account_id) (calls : List FleetCall) (ours : ∀ call ∈ calls, call.run.Of devices account_id)
    (few : (calls.map (fun call => call.run.revocations)).sum < 2 ^ 32 - 1)
    (unlike : Along (Fleet.after relay p)
      (fun fleet call => call.run.Unlike p hash (view fleet.relay) (fleet.devices call.device)) start calls)
    (current : Along (Fleet.after relay p)
      (fun fleet call => call.run.Current p (view fleet.relay) (fleet.relay,fleet.devices call.device)) start calls) :
    Along (Fleet.after relay p) (Fleet.Advances relay p view) start calls := by
  refine Along.of_keeps (fun fleet calls => ∃ n, fleet.Fits p view fine devices account_id n ∧
    (∀ call ∈ calls, call.run.Of devices account_id) ∧
    n + (calls.map (fun call => call.run.revocations)).sum < 2 ^ 32 - 1) ?_ ⟨0,blank.fits,ours,by omega⟩ (unlike.and current)
  rintro fleet call rest ⟨n,fits,ours,few⟩ ⟨unlike,current⟩
  rw [List.map_cons,List.sum_cons] at few
  obtain ⟨fits',onward⟩ := fits.after lawful honest complete apart (ours call (by simp)) current unlike
  refine ⟨⟨revocation_advances honest (fits call.device) (by omega) current,onward⟩,_,fits',?_,by omega⟩
  exact fun call inside => ours call (by simp [inside])

/-! ### Two devices that revoke each other -/

section

@[reducible] def noFormats : Formats := ⟨fun _ => none,fun _ => false,nofun,nofun⟩
attribute [local instance] noFormats

def blankDevice : LocalDevice :=
  ⟨fun _ => {},fun _ _ => none,⟨⟨.empty,⟨none,none,0,0,0,0,none,false⟩,[],0,∅⟩,none⟩⟩

def blankFleet : Fleet MemoryRelay.Accounts := ⟨∅,fun _ => blankDevice⟩

def onDevice (i : ℕ) (run : DeviceRun) : FleetCall := ⟨i,⟨fun _ => [],[],[]⟩,fun _ => "",run⟩

def revoking (n : UInt8) : DeviceRun := .revoke (fun _ => drawn) (idOf n) "default" true 0

/-- The first device creates the account, the second one recovers it. -/
def recovering : List FleetCall :=
  [onDevice 0 (.bootstrap ⟨device 1,rootKey,library,"operation"⟩ "relay" "default" false none
    (.Passphrase [] (some (.replicate _ 5)) (some (.replicate _ 6))) 0),
   onDevice 1 (.recover (device 2) [] "relay" library "default" 0)]

def recovered : Fleet MemoryRelay.Accounts := recovering.foldl (Fleet.after (memoryRelay plainPrimitives) plainPrimitives) blankFleet

theorem along_recovering {holds : Fleet MemoryRelay.Accounts → FleetCall → Prop} {calls : List FleetCall} :
    Along (Fleet.after (memoryRelay plainPrimitives) plainPrimitives) holds blankFleet (recovering ++ calls) ↔
      Along (Fleet.after (memoryRelay plainPrimitives) plainPrimitives) holds blankFleet recovering ∧
        Along (Fleet.after (memoryRelay plainPrimitives) plainPrimitives) holds recovered calls := along_append

theorem blank_blankFleet : blankFleet.Blank (MemoryRelay.shelf library.to_hex) (MemoryRelay.Kept library.to_hex) twoDevices library where
  fine := MemoryRelay.kept_empty _
  empty := rfl
  held _ _ := ⟨nofun,nofun⟩
  epoch _ := rfl

theorem recovering_of : ∀ call ∈ recovering, call.run.Of twoDevices library := by
  simp [recovering,onDevice,DeviceRun.Of,twoDevices]

theorem epochs_advance_recovered : Along (Fleet.after (memoryRelay plainPrimitives) plainPrimitives)
    (Fleet.Advances (memoryRelay plainPrimitives) plainPrimitives (MemoryRelay.shelf library.to_hex)) blankFleet
    (recovering ++ [onDevice 0 (revoking 2)]) := by
  refine epochs_advance plainPrimitives_lawful (memoryRelay_honest plainPrimitives library.to_hex)
    (memoryRelay_complete plainPrimitives library.to_hex) injOn_twoDevices blank_blankFleet _ ?_ (by decide)
    (along_recovering.mpr ⟨⟨trivial,trivial,trivial⟩,?_,trivial⟩) (along_recovering.mpr ⟨⟨trivial,trivial,trivial⟩,?_,trivial⟩)
  · intro call inside
    rcases List.mem_append.mp inside with first | last
    · exact recovering_of call first
    · obtain rfl := List.mem_singleton.mp last
      trivial
  · have apart : ((recovered.devices 0).store "default").device_keys.all (fun keys =>
        ((MemoryRelay.shelf library.to_hex recovered.relay).records (idOf 2)).all (fun bytes =>
          (SignedDeviceRecord.from_bytes bytes).toOption.all (fun signed =>
            (MemoryRelay.shelf library.to_hex recovered.relay).attestations.all (fun a =>
              plainPrimitives.blake3_hex a ≠ plainPrimitives.blake3_hex (plainPrimitives.attest_revoke keys signed.record
                (RelayTransport.next_epoch (recovered.devices 0).db.sync_state.key_epoch) 0).to_bytes)))) := by
      decide +kernel
    generalize recovered = fleet at apart ⊢
    rintro keys mine signed ⟨bytes,found,parsed,-⟩ made a inside same
    change ((fleet.devices 0).store "default").device_keys = some keys at mine
    change (MemoryRelay.shelf library.to_hex fleet.relay).records (idOf 2) = some bytes at found
    rw [mine,Option.all_some,found,Option.all_some,parsed,Except.toOption,Option.all_some] at apart
    have other := List.all_eq_true.mp apart a inside
    exact absurd same (of_decide_eq_true other)
  · have behind : (MemoryRelay.shelf library.to_hex recovered.relay).attestations.all (fun a =>
        (plainPrimitives.verified a).all (fun signed =>
          signed.attestation.key_epoch ≤ (recovered.devices 0).db.sync_state.key_epoch)) := by decide +kernel
    generalize recovered = fleet at behind ⊢
    intro a inside signed verifies
    have here := List.all_eq_true.mp behind a inside
    rw [verifies] at here
    exact of_decide_eq_true here

/-- The two devices revoke each other: both rotate to epoch `1`. -/
theorem epochs_repeat :
    let calls := recovering ++ [onDevice 0 (revoking 2),onDevice 1 (revoking 1)]
    blankFleet.Blank (MemoryRelay.shelf library.to_hex) (MemoryRelay.Kept library.to_hex) twoDevices library ∧
      (∀ call ∈ calls, call.run.Of twoDevices library) ∧
      ¬ Along (Fleet.after (memoryRelay plainPrimitives) plainPrimitives)
        (Fleet.Advances (memoryRelay plainPrimitives) plainPrimitives (MemoryRelay.shelf library.to_hex)) blankFleet calls := by
  intro calls
  refine ⟨blank_blankFleet,?_,?_⟩
  · intro call inside
    rcases List.mem_append.mp inside with first | last
    · exact recovering_of call first
    · simp only [List.mem_cons,List.not_mem_nil,or_false] at last
      rcases last with rfl | rfl <;> trivial
  · intro all
    obtain ⟨-,-,⟨advances,-⟩,-⟩ := along_recovering.mp all
    have repeated : ((revoking 1).revocation (memoryRelay plainPrimitives) plainPrimitives
        ((recovered.after (memoryRelay plainPrimitives) plainPrimitives (onDevice 0 (revoking 2))).relay,
          (recovered.after (memoryRelay plainPrimitives) plainPrimitives (onDevice 0 (revoking 2))).devices 1)).any (fun r =>
        (MemoryRelay.shelf library.to_hex
          (recovered.after (memoryRelay plainPrimitives) plainPrimitives (onDevice 0 (revoking 2))).relay).attestations.any (fun a =>
          (plainPrimitives.verified a).any (fun signed => ¬ signed.attestation.key_epoch < r.new_epoch))) := by decide +kernel
    generalize recovered.after (memoryRelay plainPrimitives) plainPrimitives (onDevice 0 (revoking 2)) = fleet at repeated advances
    obtain ⟨r,made,again⟩ := (Option.any_eq_true ..).mp repeated
    obtain ⟨a,inside,verifies⟩ := List.any_eq_true.mp again
    obtain ⟨signed,verifies,named⟩ := (Option.any_eq_true ..).mp verifies
    exact of_decide_eq_true named (advances r made a inside signed verifies)

end
end Pergamon
