import Pergamon.KeyFile
import Pergamon.Runs

/-!
Runs of any handles on one key file, in any order. The file is told apart from the copies:
what it holds is what the calls that succeeded have saved, whoever made them
(`Preserved`), as long as the calls are steady (`Steady`).
-/
namespace Pergamon
open Fallible Runs EncryptedFile

/-! ### Calls -/

structure KeyFileWorld where
  file : Option FileFormat
  handles : ℕ → Option EncryptedFile

/-- A call of a handle, or the opening of one. -/
inductive KeyFileCall where
  | encrypted_file (random : Option (Bytes SALT_LEN))
  | load (account : String) (slot : Slot)
  | save (account : String) (slot : Slot) (value : slot.Value) (os : WriteOutcome)
  | save_account_material (account : String) (keys : DeviceKeypairs) (ark : AccountRootKey) (id : AccountId) (os : WriteOutcome)
  | remove_bootstrap_recovery (account relay : String) (os : WriteOutcome)

/-- What was written: the account, the place and the bytes, or that they were removed. -/
abbrev Writing : Type := String × Slot × Option (List UInt8)

namespace KeyFileCall

def writes : KeyFileCall → List Writing
  | .save account slot value _ => [(account,slot,some (slot.encode value))]
  | .save_account_material account keys ark id _ => [(account,.device_keys,some (Slot.encode .device_keys keys)),
    (account,.ark,some (Slot.encode .ark ark)),(account,.account_id,some (Slot.encode .account_id id))]
  | .remove_bootstrap_recovery account relay _ => [(account,.bootstrap_recovery relay,none)]
  | _ => []

def outcome : KeyFileCall → Option WriteOutcome
  | .save _ _ _ os => some os
  | .save_account_material _ _ _ _ os => some os
  | .remove_bootstrap_recovery _ _ os => some os
  | _ => none

section
variable (p : Primitives) (base64 : Base64)

def perform : KeyFileCall → KeyFileM Unit
  | .encrypted_file _ => pure ()
  | .load account slot => do
    let (handle,_) ← get
    match EncryptedFile.load p base64 handle account slot with
    | .ok _ => pure ()
    | .error e => throw e
  | .save account slot value os => EncryptedFile.save p base64 account slot value os
  | .save_account_material account keys ark id os => EncryptedFile.save_account_material p base64 account keys ark id os
  | .remove_bootstrap_recovery account relay os => EncryptedFile.remove_bootstrap_recovery p base64 account relay os

end
end KeyFileCall

section
variable (p : Primitives) (base64 : Base64) (passphrase : List UInt8)

/-- The world after a call of this handle, and whether the call succeeded. -/
def KeyFileWorld.on_handle (w : KeyFileWorld) (i : ℕ) (handle : EncryptedFile) (call : KeyFileCall) : KeyFileWorld × Bool :=
  match call.perform p base64 (handle,w.file) with
  | .ok () (handle,file) => (⟨file,Function.update w.handles i (some handle)⟩,true)
  | .error _ (handle,file) => (⟨file,Function.update w.handles i (some handle)⟩,false)

/-- The same where the handle may be opened by the call. -/
def KeyFileWorld.after (w : KeyFileWorld) (i : ℕ) : KeyFileCall → KeyFileWorld × Bool
  | .encrypted_file random =>
    match encrypted_file p base64 w.file passphrase random with
    | .ok handle => ({ w with handles := Function.update w.handles i (some handle) },true)
    | .error _ => (w,false)
  | call =>
    match w.handles i with
    | none => (w,false)
    | some handle => w.on_handle p base64 i handle call

/-- The world with what has been written by calls that succeeded. -/
abbrev KeyFileRun : Type := KeyFileWorld × List Writing

def KeyFileRun.step (run : KeyFileRun) (call : ℕ × KeyFileCall) : KeyFileRun :=
  let (w,succeeded) := run.1.after p base64 passphrase call.1 call.2
  (w,if succeeded then run.2 ++ call.2.writes else run.2)

/-- The bytes that were saved last in a place. -/
def saved (history : List Writing) (account : String) (slot : Slot) : Option (List UInt8) :=
  history.foldl (fun before w => if w.1 = account ∧ w.2.1.canonical = slot.canonical then w.2.2 else before) none

/-- What a handle that is opened on the file reads. -/
def Opens (file : Option FileFormat) (fresh : EncryptedFile) : Prop :=
  ∃ random, encrypted_file p base64 file passphrase random = .ok fresh

/-- A call that fails leaves the file, an account that is saved replaces nothing, and a
    handle that is opened afterwards reads what was saved last. -/
structure Intact (urls : Set String) (run : KeyFileRun) (call : ℕ × KeyFileCall) : Prop where
  failed : (run.1.after p base64 passphrase call.1 call.2).2 = false →
    (run.1.after p base64 passphrase call.1 call.2).1.file = run.1.file
  material : ∀ account keys ark id os, call.2 = .save_account_material account keys ark id os →
    (run.1.after p base64 passphrase call.1 call.2).2 = true → ∀ fresh, Opens p base64 passphrase run.1.file fresh →
      (∀ old, load p base64 fresh account .device_keys = .ok (some old) → old = keys) ∧
      (∀ old, load p base64 fresh account .ark = .ok (some old) → old = ark) ∧
      ∀ old, load p base64 fresh account .account_id = .ok (some old) → old = id
  opens : (KeyFileRun.step p base64 passphrase run call).1.file.isSome →
    ∃ fresh, Opens p base64 passphrase (KeyFileRun.step p base64 passphrase run call).1.file fresh
  reads : ∀ fresh, Opens p base64 passphrase (KeyFileRun.step p base64 passphrase run call).1.file fresh →
    ∀ account slot, slot.Of urls → load p base64 fresh account slot =
      match saved (KeyFileRun.step p base64 passphrase run call).2 account slot with
      | none => .ok none
      | some bytes => some <$> slot.decode bytes

/-- No write fails after it has replaced the file, a handle that writes where there is no
    file has no entries, and the check of an account finds no fault with the copy only if
    it finds none with the file. -/
structure Steady (run : KeyFileRun) (call : ℕ × KeyFileCall) : Prop where
  flushes : ∀ os ∈ call.2.outcome, os.flushed = .ok ()
  blank : call.2.outcome.isSome → run.1.file = none → ∀ handle ∈ run.1.handles call.1, handle.entries = ∅
  current : ∀ account keys ark id os, call.2 = .save_account_material account keys ark id os →
    ∀ handle ∈ run.1.handles call.1, ∀ fresh, Opens p base64 passphrase run.1.file fresh →
      replaces p base64 handle account keys ark id = .ok false → replaces p base64 fresh account keys ark id = .ok false

/-- The relays and operations of the call are among these. -/
def KeyFileCall.Of (urls : Set String) (call : KeyFileCall) : Prop := ∀ w ∈ call.writes, w.2.1.Of urls

end

/-! ### What the file holds -/

section
variable {p : Primitives} {base64 : Base64} {passphrase : List UInt8} {urls : Set String} {file : Option FileFormat}
  {handle fresh : EncryptedFile} {contents : String → Option (List UInt8)} {history : List Writing}

/-- The contents under the names after the writes. -/
def written (p : Primitives) (history : List Writing) : String → Option (List UInt8) :=
  put (fun _ => none) (history.map (fun w => (entry_name w.1 (w.2.1.suffix p),w.2.2)))

theorem written_append (history writes : List Writing) :
    written p (history ++ writes) = put (written p history) (writes.map (fun w => (entry_name w.1 (w.2.1.suffix p),w.2.2))) := by
  simp [written,put]

/-- Names tell the places apart: what is under the name is what was saved last. -/
theorem written_eq_saved (apart : urls.InjOn (fun url => p.blake3_hash (utf8 url))) (all : ∀ w ∈ history, w.2.1.Of urls)
    {account : String} {slot : Slot} (there : slot.Of urls) :
    written p history (entry_name account (slot.suffix p)) = saved history account slot := by
  induction history using List.reverseRecOn with
  | nil => rfl
  | append_singleton history w ih =>
    obtain ⟨account',slot',bytes⟩ := w
    have before := ih fun w inside => all w (by simp [inside])
    have same : entry_name account (slot.suffix p) = entry_name account' (slot'.suffix p) ↔
        account' = account ∧ slot'.canonical = slot.canonical := by
      rw [entry_name_inj (suffix_plain _) (suffix_plain _),suffix_inj apart there (all (account',slot',bytes) (by simp)),
        eq_comm (a := account),eq_comm (a := slot.canonical)]
    rw [written_append,saved,List.foldl_append]
    simp only [put,List.map_cons,List.map_nil,List.foldl_cons,List.foldl_nil,Function.update_apply,same]
    split
    · rfl
    · exact before

/-- The file has these contents under the passphrase. -/
def FileHolds (p : Primitives) (base64 : Base64) (passphrase : List UInt8) (contents : String → Option (List UInt8)) :
    Option FileFormat → Prop
  | none => contents = fun _ => none
  | some current => ∃ salt kek, decode_salt base64 current.salt_b64 = .ok salt ∧ derive_kek p passphrase salt = .ok kek ∧
    Holds p base64 kek current.entries contents

/-- The key of the handle is that of its salt. -/
def Unlocks (p : Primitives) (passphrase : List UInt8) (handle : EncryptedFile) : Prop :=
  derive_kek p passphrase handle.salt = .ok handle.kek

/-- A handle that is opened has the contents of the file. -/
theorem FileHolds.opens (holds : FileHolds p base64 passphrase contents file) (opens : Opens p base64 passphrase file fresh) :
    Unlocks p passphrase fresh ∧ Holds p base64 fresh.kek fresh.entries contents := by
  obtain ⟨random,opens⟩ := opens
  cases file with
  | none =>
    cases random with
    | none => cases opens
    | some salt =>
      obtain ⟨kek,derived,same⟩ := bind_ok.mp opens
      cases same
      obtain rfl : contents = fun _ => none := holds
      exact ⟨derived,.empty⟩
  | some current =>
    obtain ⟨salt,kek,decoded,derived,holds⟩ := holds
    obtain ⟨salt',decoded',rest⟩ := bind_ok.mp opens
    obtain ⟨kek',derived',rest⟩ := bind_ok.mp rest
    cases decoded.symm.trans decoded'
    cases derived.symm.trans derived'
    simp only at rest
    cases first : current.entries.toList.head? with
    | none =>
      rw [first] at rest
      cases rest
      exact ⟨derived,holds⟩
    | some entry =>
      rw [first] at rest
      have read : (⟨salt,kek,current.entries⟩ : EncryptedFile).decrypt_entry p base64 entry.1 = _ := Holds.decrypt_entry holds entry.1
      simp only [read] at rest
      cases rest
      exact ⟨derived,holds⟩

theorem FileHolds.exists_opens (holds : FileHolds p base64 passphrase contents file) (there : file.isSome) :
    ∃ fresh, Opens p base64 passphrase file fresh := by
  cases file with
  | none => cases there
  | some current =>
    obtain ⟨salt,kek,decoded,derived,holds⟩ := holds
    refine ⟨⟨salt,kek,current.entries⟩,none,?_⟩
    unfold encrypted_file
    simp only [decoded,derived,ok_bind]
    cases current.entries.toList.head? with
    | none => rfl
    | some entry =>
      have read : (⟨salt,kek,current.entries⟩ : EncryptedFile).decrypt_entry p base64 entry.1 = _ := Holds.decrypt_entry holds entry.1
      simp only [read]
      rfl

/-- A write that succeeds puts its entries into the file. -/
theorem FileHolds.put (lawful : p.Lawful) (holds : FileHolds p base64 passphrase contents file) (unlocks : Unlocks p passphrase handle)
    (blank : file = none → handle.entries = ∅) {entries : List (String × Option (List UInt8))}
    {nonces : ℕ → Option (Bytes NONCE_LEN)} {m m' : Std.ExtTreeMap String String} (begins : Begins base64 handle file m)
    (ran : put_entries p base64 handle.kek nonces entries m = .ok () m') :
    FileHolds p base64 passphrase (put contents entries) (some ⟨base64.encode handle.salt.toList,m'⟩) := by
  refine ⟨handle.salt,handle.kek,?_,unlocks,Holds.put_entries lawful ?_ ran⟩
  · unfold decode_salt
    simp only [base64.decode_encode]
    rw [dif_pos (by simp)]
    rfl
  · cases file with
    | none =>
      obtain rfl : contents = fun _ => none := holds
      obtain rfl : m = handle.entries := begins
      rw [blank rfl]
      exact .empty
    | some current =>
      obtain ⟨decoded,rfl⟩ := begins
      obtain ⟨salt,kek,decoded',derived,holds⟩ := holds
      cases decoded.symm.trans decoded'
      cases derived.symm.trans unlocks
      exact holds

/-! ### What a call does -/

/-- A steady write of these entries. -/
theorem does_write (lawful : p.Lawful) (holds : FileHolds p base64 passphrase contents file) (unlocks : Unlocks p passphrase handle)
    (blank : file = none → handle.entries = ∅) {os : WriteOutcome} (flushes : os.flushed = .ok ())
    (entries : List (String × Option (List UInt8))) : Does (update p base64 entries os) (handle,file)
      (fun _ t => Unlocks p passphrase t.1 ∧ FileHolds p base64 passphrase (EncryptedFile.put contents entries) t.2)
      (fun t => Unlocks p passphrase t.1 ∧ t.2 = file) := by
  have same {h : EncryptedFile} (salt : h.salt = handle.salt) (kek : h.kek = handle.kek) : Unlocks p passphrase h := by
    unfold Unlocks
    rw [salt,kek]
    exact unlocks
  refine (does_update flushes entries).mono ?_ ?_
  · rintro _ t ⟨salt,kek,m,m',begins,ran,replaced⟩
    rw [replaced]
    exact ⟨same salt kek,holds.put lawful unlocks blank begins ran⟩
  · rintro t ⟨left,salt,kek⟩
    exact ⟨same salt kek,left⟩

theorem does_perform (lawful : p.Lawful) (holds : FileHolds p base64 passphrase contents file) (unlocks : Unlocks p passphrase handle)
    (call : KeyFileCall) (blank : call.outcome.isSome → file = none → handle.entries = ∅)
    (flushes : ∀ os ∈ call.outcome, os.flushed = .ok ()) : Does (call.perform p base64) (handle,file)
      (fun _ t => Unlocks p passphrase t.1 ∧
        FileHolds p base64 passphrase (EncryptedFile.put contents (call.writes.map (fun w => (entry_name w.1 (w.2.1.suffix p),w.2.2)))) t.2 ∧
        ∀ account keys ark id os, call = .save_account_material account keys ark id os →
          replaces p base64 handle account keys ark id = .ok false)
      (fun t => Unlocks p passphrase t.1 ∧ t.2 = file) := by
  cases call with
  | encrypted_file random => exact ⟨unlocks,holds,nofun⟩
  | load account slot =>
    refine Does.bind (show Does _ _ (fun a t => a = (handle,file) ∧ t = (handle,file)) _ from ⟨rfl,rfl⟩) fun a t ⟨same,same'⟩ => ?_
    subst same same'
    simp only
    cases load p base64 handle account slot with
    | ok value => exact ⟨unlocks,holds,nofun⟩
    | error e => exact ⟨unlocks,rfl⟩
  | save account slot value os =>
    exact (does_write lawful holds unlocks (blank rfl) (flushes os rfl) _).mono (fun _ _ done => ⟨done.1,done.2,nofun⟩) fun _ => id
  | remove_bootstrap_recovery account relay os =>
    exact (does_write lawful holds unlocks (blank rfl) (flushes os rfl) _).mono (fun _ _ done => ⟨done.1,done.2,nofun⟩) fun _ => id
  | save_account_material account keys ark id os =>
    refine Does.bind (show Does _ _ (fun a t => a = (handle,file) ∧ t = (handle,file)) _ from ⟨rfl,rfl⟩) fun a t ⟨same,same'⟩ => ?_
    subst same same'
    simp only
    cases checked : replaces p base64 handle account keys ark id with
    | error e => exact ⟨unlocks,rfl⟩
    | ok other =>
      cases other with
      | true => exact ⟨unlocks,rfl⟩
      | false =>
        refine (does_write lawful holds unlocks (blank rfl) (flushes os rfl) _).mono (fun _ _ done => ⟨done.1,done.2,?_⟩) fun _ left => left
        rintro _ _ _ _ _ ⟨⟩
        exact checked

/-- The check of an account finds no fault: the handle has no other material. -/
theorem replaces_false {account : String} {keys : DeviceKeypairs} {ark : AccountRootKey} {id : AccountId}
    (checked : replaces p base64 handle account keys ark id = .ok false) :
    (∀ old, load p base64 handle account .device_keys = .ok (some old) → old = keys) ∧
    (∀ old, load p base64 handle account .ark = .ok (some old) → old = ark) ∧
    ∀ old, load p base64 handle account .account_id = .ok (some old) → old = id := by
  unfold replaces at checked
  obtain ⟨k,loaded,rest⟩ := bind_ok.mp checked
  split at rest
  · cases rest
  · next agrees =>
    obtain ⟨a,loaded',rest⟩ := bind_ok.mp rest
    split at rest
    · cases rest
    · next agrees' =>
      obtain ⟨i,loaded'',rest⟩ := bind_ok.mp rest
      have agrees'' := Except.ok.inj rest
      refine ⟨fun old here => ?_,fun old here => ?_,fun old here => ?_⟩
      · cases loaded.symm.trans here
        simpa using agrees
      · cases loaded'.symm.trans here
        simpa using agrees'
      · cases loaded''.symm.trans here
        simpa using agrees''

/-! ### Runs -/

/-- The file holds what has been written, and the handles have the keys of their salts. -/
structure Preserved (p : Primitives) (base64 : Base64) (passphrase : List UInt8) (urls : Set String) (run : KeyFileRun) : Prop where
  file : FileHolds p base64 passphrase (written p run.2) run.1.file
  handles : ∀ i, ∀ handle ∈ run.1.handles i, Unlocks p passphrase handle
  within : ∀ w ∈ run.2, w.2.1.Of urls

theorem Preserved.opens_reads (apart : urls.InjOn (fun url => p.blake3_hash (utf8 url))) {run : KeyFileRun}
    (kept : Preserved p base64 passphrase urls run) (opens : Opens p base64 passphrase run.1.file fresh) (account : String) {slot : Slot}
    (there : slot.Of urls) : load p base64 fresh account slot =
      match saved run.2 account slot with
      | none => .ok none
      | some bytes => some <$> slot.decode bytes := by
  have read := (kept.file.opens opens).2.decrypt_entry (entry_name account (slot.suffix p))
  rw [written_eq_saved apart kept.within there] at read
  unfold load
  rw [read,ok_bind]
  cases saved run.2 account slot <;> rfl

theorem forall_update_handle {w : ℕ → Option EncryptedFile} {P : EncryptedFile → Prop} (all : ∀ i, ∀ h ∈ w i, P h) {h' : EncryptedFile}
    (here : P h') (j : ℕ) : ∀ i, ∀ h ∈ Function.update w j (some h') i, P h := by
  intro i h inside
  by_cases same : i = j
  · subst same
    rw [Function.update_self,Option.mem_some_iff] at inside
    exact inside ▸ here
  · rw [Function.update_of_ne same] at inside
    exact all i h inside

/-- What a call does that leaves this world: it succeeds and the file holds its writes, or
    it leaves the file. -/
structure Did (p : Primitives) (base64 : Base64) (passphrase : List UInt8) (urls : Set String) (run : KeyFileRun)
    (call : ℕ × KeyFileCall) (result : KeyFileWorld × Bool) : Prop where
  kept : Preserved p base64 passphrase urls (result.1,if result.2 then run.2 ++ call.2.writes else run.2)
  failed : result.2 = false → result.1.file = run.1.file
  checked : ∀ account keys ark id os, call.2 = .save_account_material account keys ark id os → result.2 = true →
    ∃ handle ∈ run.1.handles call.1, replaces p base64 handle account keys ark id = .ok false

variable {run : KeyFileRun} {i : ℕ} {call : KeyFileCall}

theorem Preserved.on_handle (lawful : p.Lawful) (kept : Preserved p base64 passphrase urls run) (ours : call.Of urls)
    (steady : Steady p base64 passphrase run (i,call)) (there : run.1.handles i = some handle) :
    Did p base64 passphrase urls run (i,call) (run.1.on_handle p base64 i handle call) := by
  have does := does_perform lawful kept.file (kept.handles i handle there) call
    (fun writes missing => steady.blank writes missing handle there) steady.flushes
  unfold Does at does
  unfold KeyFileWorld.on_handle
  cases ran : call.perform p base64 (handle,run.1.file) with
  | ok a t =>
    rw [ran] at does
    obtain ⟨unlocks,holds,checked⟩ := does
    refine ⟨⟨?_,forall_update_handle kept.handles unlocks i,?_⟩,nofun,fun account keys ark id os same _ => ?_⟩
    · rw [← written_append] at holds
      exact holds
    · intro w inside
      rcases List.mem_append.mp inside with before | new
      · exact kept.within w before
      · exact ours w new
    · exact ⟨handle,there,checked account keys ark id os same⟩
  | error e t =>
    rw [ran] at does
    obtain ⟨unlocks,left⟩ := does
    refine ⟨⟨?_,forall_update_handle kept.handles unlocks i,kept.within⟩,fun _ => left,nofun⟩
    show FileHolds _ _ _ _ t.2
    rw [left]
    exact kept.file

theorem Preserved.after (lawful : p.Lawful) (kept : Preserved p base64 passphrase urls run) (ours : call.Of urls)
    (steady : Steady p base64 passphrase run (i,call)) :
    Did p base64 passphrase urls run (i,call) (run.1.after p base64 passphrase i call) := by
  have on_handle {handle : EncryptedFile} (there : run.1.handles i = some handle) := kept.on_handle lawful ours steady there
  have unchanged : Did p base64 passphrase urls run (i,call) (run.1,false) := ⟨kept,fun _ => rfl,nofun⟩
  cases call with
  | encrypted_file random =>
    unfold KeyFileWorld.after
    cases opened : Pergamon.encrypted_file p base64 run.1.file passphrase random with
    | error e =>
      simp only [opened]
      exact unchanged
    | ok handle =>
      simp only [opened]
      refine ⟨⟨?_,forall_update_handle kept.handles (kept.file.opens ⟨random,opened⟩).1 i,?_⟩,nofun,nofun⟩
      · simpa [KeyFileCall.writes] using kept.file
      · simpa [KeyFileCall.writes] using kept.within
  | _ =>
    unfold KeyFileWorld.after
    simp only
    cases there : run.1.handles i with
    | none => exact unchanged
    | some handle => exact on_handle there

end

/-- In every run of handles on a key file that is missing at first: if no write fails after
    it has replaced the file, no handle that writes where there is no file has entries, and
    each account is saved through a copy that does not hide what the file holds for it, then
    a call that fails leaves the file, no account material is replaced, and a handle that is
    opened reads what was saved last. -/
theorem key_file_run {p : Primitives} (lawful : p.Lawful) (base64 : Base64) (passphrase : List UInt8) {urls : Set String}
    (apart : urls.InjOn (fun url => p.blake3_hash (utf8 url))) (calls : List (ℕ × KeyFileCall))
    (ours : ∀ call ∈ calls, call.2.Of urls)
    (steady : Along (KeyFileRun.step p base64 passphrase) (Steady p base64 passphrase) (⟨none,fun _ => none⟩,[]) calls) :
    Along (KeyFileRun.step p base64 passphrase) (Intact p base64 passphrase urls) (⟨none,fun _ => none⟩,[]) calls := by
  refine Along.of_keeps (fun run calls => Preserved p base64 passphrase urls run ∧ ∀ call ∈ calls, call.2.Of urls) ?_
    ⟨⟨rfl,fun i handle there => ?_,fun w inside => ?_⟩,ours⟩ steady
  · rintro run ⟨i,call⟩ rest ⟨kept,ours⟩ steady
    have did := kept.after lawful (ours (i,call) (by simp)) steady
    refine ⟨⟨did.failed,?_,did.kept.file.exists_opens,fun fresh opens account slot => did.kept.opens_reads apart opens account⟩,
      did.kept,fun call inside => ours call (by simp [inside])⟩
    intro account keys ark id os same succeeded fresh opens
    obtain ⟨handle,there,checked⟩ := did.checked account keys ark id os same succeeded
    exact replaces_false (steady.current account keys ark id os same handle there fresh opens checked)
  · cases there
  · cases inside

/-! ### Two hosts that save an account -/

section

def keyHolder (n : UInt8) : DeviceKeypairs := ⟨.replicate KEY_LEN n,.replicate KEY_LEN n⟩
def keyRoot (n : UInt8) : AccountRootKey := ⟨.replicate KEY_LEN n⟩
def keyAccount (n : UInt8) : AccountId := ⟨.replicate ACCOUNT_ID_LEN n⟩

/-- Nothing fails. -/
def smooth : WriteOutcome := ⟨.ok (),fun _ => some (.replicate NONCE_LEN 4),.ok (),.ok ()⟩

/-- One host creates the file, and another one opens it. -/
def sharing : List (ℕ × KeyFileCall) :=
  [(0,.encrypted_file (some (.replicate SALT_LEN 8))),(0,.save "home" .device_keys (keyHolder 1) smooth),(1,.encrypted_file none)]

def shared : KeyFileRun := sharing.foldl (KeyFileRun.step plainPrimitives plainBase64 []) (⟨none,fun _ => none⟩,[])

/-- A host saves an account under this label. -/
def saving (i : ℕ) (account : String) (n : UInt8) : ℕ × KeyFileCall :=
  (i,.save_account_material account (keyHolder n) (keyRoot n) (keyAccount n) smooth)

theorem key_file_run_shared : Along (KeyFileRun.step plainPrimitives plainBase64 []) (Intact plainPrimitives plainBase64 [] ∅)
    (⟨none,fun _ => none⟩,[]) (sharing ++ [saving 1 "home" 1]) := by
  refine key_file_run plainPrimitives_lawful plainBase64 [] (by simp) _ (fun call inside w there => ?_)
    (along_append.mpr ⟨⟨⟨nofun,nofun,nofun⟩,⟨?_,?_,nofun⟩,⟨nofun,nofun,nofun⟩,trivial⟩,?_,trivial⟩)
  · simp only [sharing,saving,List.cons_append,List.nil_append,List.mem_cons,List.not_mem_nil,or_false] at inside
    rcases inside with rfl | rfl | rfl | rfl <;> simp [KeyFileCall.writes] at there
    · subst there
      trivial
    · rcases there with rfl | rfl | rfl <;> trivial
  · rintro os ⟨⟩
    rfl
  · rintro - - handle ⟨⟩
    rfl
  · change Steady plainPrimitives plainBase64 [] shared (saving 1 "home" 1)
    have there : shared.1.file.isSome := by decide +kernel
    have checked : ∃ fresh, encrypted_file plainPrimitives plainBase64 shared.1.file [] none = .ok fresh ∧
        replaces plainPrimitives plainBase64 fresh "home" (keyHolder 1) (keyRoot 1) (keyAccount 1) = .ok false := by decide +kernel
    generalize shared = run at there checked ⊢
    refine ⟨?_,?_,?_⟩
    · rintro os ⟨⟩
      rfl
    · intro _ missing
      rw [missing] at there
      cases there
    · rintro account keys ark id os ⟨⟩ handle - fresh ⟨random,opened⟩ -
      obtain ⟨current,same⟩ := Option.isSome_iff_exists.mp there
      obtain ⟨fresh',opened',checked⟩ := checked
      rw [same] at opened opened'
      cases (show encrypted_file plainPrimitives plainBase64 (some current) [] none = .ok fresh from opened).symm.trans opened'
      exact checked

/-- Two hosts save different accounts under one label: the second one has a copy from before
    the first, and replaces its keys. -/
theorem key_file_replaced :
    ¬ Along (KeyFileRun.step plainPrimitives plainBase64 []) (Intact plainPrimitives plainBase64 [] ∅) (⟨none,fun _ => none⟩,[])
      (sharing ++ [saving 0 "away" 2,saving 1 "away" 3]) := by
  intro all
  obtain ⟨-,-,intact,-⟩ := along_append.mp all
  change Intact plainPrimitives plainBase64 [] ∅ (KeyFileRun.step plainPrimitives plainBase64 [] shared (saving 0 "away" 2))
    (saving 1 "away" 3) at intact
  have replaced : let run := KeyFileRun.step plainPrimitives plainBase64 [] shared (saving 0 "away" 2)
      (run.1.after plainPrimitives plainBase64 [] (saving 1 "away" 3).1 (saving 1 "away" 3).2).2 = true ∧
      ∃ fresh, encrypted_file plainPrimitives plainBase64 run.1.file [] none = .ok fresh ∧
        ∃ old, load plainPrimitives plainBase64 fresh "away" .device_keys = .ok old ∧ old = some (keyHolder 2) := by decide +kernel
  generalize KeyFileRun.step plainPrimitives plainBase64 [] shared (saving 0 "away" 2) = run at replaced intact
  obtain ⟨succeeded,fresh,opened,_,loaded,rfl⟩ := replaced
  have same := (intact.material _ _ _ _ _ rfl succeeded fresh ⟨none,opened⟩).1 _ loaded
  revert same
  decide +kernel

end

end Pergamon
