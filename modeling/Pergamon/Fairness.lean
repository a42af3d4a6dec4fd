import Std.Data.ExtTreeMap.Lemmas
import Mathlib.Algebra.Group.Nat.Defs
import Mathlib.Data.List.Basic
import Mathlib.Tactic.Common

/-!
The limit on what one tenant may have in flight. Threads take slots and wait for them, and slots are
dropped when the operation under them is over, whatever its outcome; the turns of the threads under
the lock come in any order.

The map counts the live slots of each tenant, up to the cap, and has no other entries (`Counted`).
What a tenant is told depends on its own turns alone (`limiter_run`). The lock is not poisoned,
since nothing that runs under it stops the thread: the one decrement does not underflow.
-/
namespace Pergamon

/-- The policy of the limiter; the wait is in nanoseconds. -/
structure FairnessConfig where
  max_tenant_concurrency : ℕ
  wait_timeout : ℕ
  deriving DecidableEq

def FairnessConfig.is_disabled (config : FairnessConfig) : Bool := config.max_tenant_concurrency = 0

inductive FairnessError where
  | Busy (cap waited_ms : ℕ)
  | Poisoned
  deriving DecidableEq

/-- The counts of the active tenants, under the policy. -/
structure TenantLimiter where
  inflight : Std.ExtTreeMap String ℕ
  config : FairnessConfig

/-- What a thread learns in its turn. -/
inductive Turn where
  | unguarded
  | admitted
  | waits (remaining : ℕ)
  | refused (e : FairnessError)
  | released
  | nothing
  deriving DecidableEq

/-- A duration in milliseconds, as far as it fits in 64 bits. -/
def waited_ms (elapsed : ℕ) : ℕ := min (elapsed / 1000000) (2 ^ 64 - 1)

namespace TenantLimiter
variable (limiter : TenantLimiter) (account_id : String)

def new (config : FairnessConfig) : TenantLimiter := ⟨∅,config⟩

def current : ℕ := (limiter.inflight[account_id]?).getD 0

/-- The loop of `acquire` from its head to a return or a wait. The clock is read for the deadline and
    again for the error. -/
def attempt (elapsed elapsed' : ℕ) : TenantLimiter × Turn :=
  let cap := limiter.config.max_tenant_concurrency
  let current := limiter.current account_id
  if current < cap then ({ limiter with inflight := limiter.inflight.insert account_id (current + 1) },.admitted)
  else if elapsed ≤ limiter.config.wait_timeout then (limiter,.waits (limiter.config.wait_timeout - elapsed))
  else (limiter,.refused (.Busy cap (waited_ms elapsed')))

/-- `acquire` until it first returns or waits. -/
def acquire (elapsed elapsed' : ℕ) : TenantLimiter × Turn :=
  if limiter.config.is_disabled then (limiter,.unguarded) else limiter.attempt account_id elapsed elapsed'

/-- The loop of `acquire` after a wait that was ended by the timeout, by a release or by nothing. -/
def woken (timed_out : Bool) (elapsed elapsed' : ℕ) : TenantLimiter × Turn :=
  let cap := limiter.config.max_tenant_concurrency
  if timed_out && cap ≤ limiter.current account_id then (limiter,.refused (.Busy cap (waited_ms elapsed')))
  else limiter.attempt account_id elapsed elapsed'

/-- Give a slot back, and drop the entry at zero; nothing where the decrement underflows. -/
def release : Option TenantLimiter :=
  match limiter.inflight[account_id]? with
  | none => some limiter
  | some 0 => none
  | some (count + 1) =>
    some { limiter with inflight :=
      if count = 0 then limiter.inflight.erase account_id else limiter.inflight.insert account_id count }

end TenantLimiter

/-! ### Turns of many threads -/

/-- The limiter, the tenants of the live slots and the tenants of the threads that wait. -/
structure Tenants where
  limiter : TenantLimiter
  slots : List String
  waiting : List String

/-- The next turn: a call of `acquire`, the end of a wait, or the drop of a slot. -/
inductive TenantAct where
  | acquire (account_id : String) (elapsed elapsed' : ℕ)
  | wake (account_id : String) (timed_out : Bool) (elapsed elapsed' : ℕ)
  | drop (account_id : String)
  deriving DecidableEq

def TenantAct.account_id : TenantAct → String
  | .acquire account_id _ _ => account_id
  | .wake account_id _ _ _ => account_id
  | .drop account_id => account_id

namespace Tenants

def start (config : FairnessConfig) : Tenants := ⟨.new config,[],[]⟩

/-- The tenant's live slots. -/
def live (tenants : Tenants) (account_id : String) : ℕ := tenants.slots.count account_id

/-- A thread of the tenant has had its turn. -/
def told (tenants : Tenants) (account_id : String) : TenantLimiter × Turn → Tenants × Turn
  | (limiter,.admitted) => ({ tenants with limiter := limiter, slots := account_id :: tenants.slots },.admitted)
  | (limiter,.waits remaining) =>
    ({ tenants with limiter := limiter, waiting := account_id :: tenants.waiting },.waits remaining)
  | (limiter,turn) => ({ tenants with limiter := limiter },turn)

/-- One turn. Only threads that wait are woken, and only live slots are dropped. -/
def step (tenants : Tenants) : TenantAct → Option (Tenants × Turn)
  | .acquire account_id elapsed elapsed' => some (tenants.told account_id (tenants.limiter.acquire account_id elapsed elapsed'))
  | .wake account_id timed_out elapsed elapsed' =>
    if account_id ∈ tenants.waiting then
      some ({ tenants with waiting := tenants.waiting.erase account_id }.told account_id
        (tenants.limiter.woken account_id timed_out elapsed elapsed'))
    else some (tenants,.nothing)
  | .drop account_id =>
    if account_id ∈ tenants.slots then
      (tenants.limiter.release account_id).map (fun limiter =>
        ({ tenants with limiter := limiter, slots := tenants.slots.erase account_id },.released))
    else some (tenants,.nothing)

/-- Turns one after the other, each with what its thread learns; nothing where a decrement underflows. -/
def run (tenants : Tenants) : List TenantAct → Option (Tenants × List (TenantAct × Turn))
  | [] => some (tenants,[])
  | act :: acts =>
    match tenants.step act with
    | none => none
    | some (next,turn) => (next.run acts).map (fun (last,turns) => (last,(act,turn) :: turns))

/-! ### Counts -/

/-- The entry of a tenant with so many live slots. -/
def entry : ℕ → Option ℕ
  | 0 => none
  | count + 1 => some (count + 1)

/-- The map counts the live slots, has no other entries and stays under the cap. -/
structure Counted (tenants : Tenants) : Prop where
  recorded account_id : tenants.limiter.inflight[account_id]? = entry (tenants.live account_id)
  capped account_id : tenants.live account_id ≤ tenants.limiter.config.max_tenant_concurrency

section
variable {tenants : Tenants} {account_id : String} {act : TenantAct}

theorem Counted.start (config : FairnessConfig) : Counted (start config) :=
  ⟨fun account_id => by simp [Tenants.start,TenantLimiter.new,live,entry],fun account_id => by simp [Tenants.start,live]⟩

theorem Counted.current (counted : Counted tenants) (account_id : String) :
    tenants.limiter.current account_id = tenants.live account_id := by
  rw [TenantLimiter.current,counted.recorded]
  cases tenants.live account_id with
  | zero => rfl
  | succ => rfl

/-- The map holds the tenants with a live slot. -/
theorem Counted.mem (counted : Counted tenants) (account_id : String) :
    account_id ∈ tenants.limiter.inflight ↔ 0 < tenants.live account_id := by
  rw [Std.ExtTreeMap.mem_iff_isSome_getElem?,counted.recorded]
  cases tenants.live account_id with
  | zero => simp [entry]
  | succ count => simp [entry]

theorem Counted.attempt (counted : Counted tenants) (elapsed elapsed' : ℕ) :
    Counted (tenants.told account_id (tenants.limiter.attempt account_id elapsed elapsed')).1 := by
  unfold TenantLimiter.attempt
  rw [counted.current]
  dsimp only
  by_cases room : tenants.live account_id < tenants.limiter.config.max_tenant_concurrency
  · rw [if_pos room]
    refine ⟨fun other => ?_,fun other => ?_⟩
    · simp only [told,live,List.count_cons,Std.ExtTreeMap.getElem?_insert,Std.compare_eq_iff_eq]
      have held := counted.recorded other
      by_cases same : account_id = other
      · subst same
        simp [entry]
      · simpa [same,live] using held
    · have held := counted.capped other
      simp only [told,live,List.count_cons] at held room ⊢
      by_cases same : account_id = other
      · subst same
        simpa using Nat.succ_le_of_lt room
      · simpa [same] using held
  · rw [if_neg room]
    split
    · exact ⟨counted.recorded,counted.capped⟩
    · exact ⟨counted.recorded,counted.capped⟩

theorem Counted.acquire (counted : Counted tenants) (elapsed elapsed' : ℕ) :
    Counted (tenants.told account_id (tenants.limiter.acquire account_id elapsed elapsed')).1 := by
  by_cases disabled : tenants.limiter.config.is_disabled
  · rw [TenantLimiter.acquire,if_pos disabled]
    exact ⟨counted.recorded,counted.capped⟩
  · rw [TenantLimiter.acquire,if_neg disabled]
    exact counted.attempt elapsed elapsed'

theorem Counted.woken (counted : Counted tenants) (timed_out : Bool) (elapsed elapsed' : ℕ) :
    Counted (tenants.told account_id (tenants.limiter.woken account_id timed_out elapsed elapsed')).1 := by
  by_cases late : timed_out && tenants.limiter.config.max_tenant_concurrency ≤ tenants.limiter.current account_id
  · rw [TenantLimiter.woken,if_pos late]
    exact ⟨counted.recorded,counted.capped⟩
  · rw [TenantLimiter.woken,if_neg late]
    exact counted.attempt elapsed elapsed'

theorem Counted.release (counted : Counted tenants) (inside : account_id ∈ tenants.slots) :
    ∃ limiter, tenants.limiter.release account_id = some limiter ∧
      Counted { tenants with limiter := limiter, slots := tenants.slots.erase account_id } := by
  obtain ⟨count,more⟩ : ∃ count, tenants.slots.count account_id = count + 1 :=
    Nat.exists_eq_add_one.mpr (List.count_pos_iff.mpr inside)
  have held : tenants.limiter.inflight[account_id]? = some (count + 1) := by
    rw [counted.recorded,live,more,entry]
  unfold TenantLimiter.release
  rw [held]
  refine ⟨_,rfl,fun other => ?_,fun other => ?_⟩
  · have recorded := counted.recorded other
    simp only [live] at recorded ⊢
    by_cases same : account_id = other
    · subst same
      rw [List.count_erase_self,more]
      cases count with
      | zero => simp [entry]
      | succ count => simp [entry]
    · rw [List.count_erase_of_ne (Ne.symm same),← recorded]
      split
      · simp [Std.ExtTreeMap.getElem?_erase,same]
      · simp [Std.ExtTreeMap.getElem?_insert,same]
  · exact Nat.le_trans (List.erase_sublist.count_le _) (counted.capped other)

/-- A turn does not underflow and keeps the counts. -/
theorem Counted.step (counted : Counted tenants) (act : TenantAct) :
    ∃ next turn, tenants.step act = some (next,turn) ∧ Counted next := by
  cases act with
  | acquire account_id elapsed elapsed' => exact ⟨_,_,rfl,counted.acquire elapsed elapsed'⟩
  | wake account_id timed_out elapsed elapsed' =>
    by_cases asleep : account_id ∈ tenants.waiting
    · have rest : Counted { tenants with waiting := tenants.waiting.erase account_id } :=
        ⟨counted.recorded,counted.capped⟩
      exact ⟨_,_,if_pos asleep,rest.woken timed_out elapsed elapsed'⟩
    · exact ⟨_,_,if_neg asleep,counted⟩
  | drop account_id =>
    by_cases inside : account_id ∈ tenants.slots
    · obtain ⟨limiter,given,kept⟩ := counted.release inside
      exact ⟨_,_,(if_pos inside).trans (by rw [given]; rfl),kept⟩
    · exact ⟨_,_,if_neg inside,counted⟩

theorem Counted.stepped {next : Tenants} {turn : Turn} (counted : Counted tenants)
    (told : tenants.step act = some (next,turn)) : Counted next := by
  obtain ⟨next',turn',told',kept⟩ := counted.step act
  rw [told] at told'
  cases told'
  exact kept

/-- No run underflows, and it ends with the counts right. -/
theorem Counted.run (counted : Counted tenants) (acts : List TenantAct) :
    ∃ last turns, tenants.run acts = some (last,turns) ∧ Counted last := by
  induction acts generalizing tenants with
  | nil => exact ⟨tenants,[],rfl,counted⟩
  | cons act acts ih =>
    obtain ⟨next,turn,told,kept⟩ := counted.step act
    obtain ⟨last,turns,ran,ends⟩ := ih kept
    exact ⟨last,(act,turn) :: turns,by rw [Tenants.run,told]; dsimp only; rw [ran]; rfl,ends⟩

end

/-! ### One tenant among the others -/

/-- The tenant stands in both the same. -/
structure Alike (account_id : String) (tenants alone : Tenants) : Prop where
  config : tenants.limiter.config = alone.limiter.config
  live : tenants.live account_id = alone.live account_id
  waiting : tenants.waiting.count account_id = alone.waiting.count account_id

section
variable {tenants alone next next' : Tenants} {account_id other : String} {act : TenantAct} {turn : Turn}
  {limiter limiter' : TenantLimiter}

/-- The limiter's answer: its policy stays, and its turn is a function of the policy and of the tenant's count. -/
theorem attempt_turn (config : limiter.config = limiter'.config)
    (current : limiter.current account_id = limiter'.current account_id) (elapsed elapsed' : ℕ) :
    (limiter.attempt account_id elapsed elapsed').2 = (limiter'.attempt account_id elapsed elapsed').2 := by
  simp only [TenantLimiter.attempt,config,current]
  split
  · rfl
  · split
    · rfl
    · rfl

theorem attempt_config (limiter : TenantLimiter) (account_id : String) (elapsed elapsed' : ℕ) :
    (limiter.attempt account_id elapsed elapsed').1.config = limiter.config := by
  simp only [TenantLimiter.attempt]
  split
  · rfl
  · split
    · rfl
    · rfl

theorem acquire_turn (config : limiter.config = limiter'.config)
    (current : limiter.current account_id = limiter'.current account_id) (elapsed elapsed' : ℕ) :
    (limiter.acquire account_id elapsed elapsed').2 = (limiter'.acquire account_id elapsed elapsed').2 := by
  simp only [TenantLimiter.acquire,config]
  split
  · rfl
  · exact attempt_turn config current elapsed elapsed'

theorem acquire_config (limiter : TenantLimiter) (account_id : String) (elapsed elapsed' : ℕ) :
    (limiter.acquire account_id elapsed elapsed').1.config = limiter.config := by
  simp only [TenantLimiter.acquire]
  split
  · rfl
  · exact attempt_config limiter account_id elapsed elapsed'

theorem woken_turn (config : limiter.config = limiter'.config)
    (current : limiter.current account_id = limiter'.current account_id) (timed_out : Bool) (elapsed elapsed' : ℕ) :
    (limiter.woken account_id timed_out elapsed elapsed').2 =
      (limiter'.woken account_id timed_out elapsed elapsed').2 := by
  simp only [TenantLimiter.woken,config,current]
  split
  · rfl
  · exact attempt_turn config current elapsed elapsed'

theorem woken_config (limiter : TenantLimiter) (account_id : String) (timed_out : Bool) (elapsed elapsed' : ℕ) :
    (limiter.woken account_id timed_out elapsed elapsed').1.config = limiter.config := by
  simp only [TenantLimiter.woken]
  split
  · rfl
  · exact attempt_config limiter account_id elapsed elapsed'

theorem release_config (released : limiter.release account_id = some limiter') : limiter'.config = limiter.config := by
  simp only [TenantLimiter.release] at released
  split at released
  · cases released
    rfl
  · cases released
  · cases released
    rfl

/-- A thread of the tenant is told the same in both, and the tenant still stands the same. -/
theorem Alike.told (alike : Alike account_id tenants alone) {answer answer' : TenantLimiter × Turn}
    (turns : answer.2 = answer'.2) (config : answer.1.config = answer'.1.config) :
    (tenants.told account_id answer).2 = (alone.told account_id answer').2 ∧
      Alike account_id (tenants.told account_id answer).1 (alone.told account_id answer').1 := by
  obtain ⟨limiter,turn⟩ := answer
  obtain ⟨limiter',turn'⟩ := answer'
  cases turns
  have live := alike.live
  have waiting := alike.waiting
  simp only [Tenants.live] at live
  cases turn with
  | admitted => exact ⟨rfl,config,by simp [Tenants.told,Tenants.live,live],waiting⟩
  | waits remaining => exact ⟨rfl,config,live,by simp [Tenants.told,waiting]⟩
  | unguarded => exact ⟨rfl,config,live,waiting⟩
  | refused e => exact ⟨rfl,config,live,waiting⟩
  | released => exact ⟨rfl,config,live,waiting⟩
  | nothing => exact ⟨rfl,config,live,waiting⟩

/-- What a thread of another tenant is told changes nothing. -/
theorem Alike.told_other (alike : Alike account_id tenants alone) (different : other ≠ account_id)
    {answer : TenantLimiter × Turn} (config : answer.1.config = tenants.limiter.config) :
    Alike account_id (tenants.told other answer).1 alone := by
  obtain ⟨limiter,turn⟩ := answer
  have live := alike.live
  have waiting := alike.waiting
  have config := config.trans alike.config
  simp only [Tenants.live] at live
  cases turn with
  | admitted => exact ⟨config,by simp [Tenants.told,Tenants.live,different,live],waiting⟩
  | waits remaining => exact ⟨config,live,by simp [Tenants.told,different,waiting]⟩
  | unguarded => exact ⟨config,live,waiting⟩
  | refused e => exact ⟨config,live,waiting⟩
  | released => exact ⟨config,live,waiting⟩
  | nothing => exact ⟨config,live,waiting⟩

theorem Alike.current (alike : Alike account_id tenants alone) (counted : Counted tenants) (counted' : Counted alone) :
    tenants.limiter.current account_id = alone.limiter.current account_id := by
  rw [counted.current,counted'.current,alike.live]

/-- The tenant's own turn is the same in both. -/
theorem Alike.step (alike : Alike act.account_id tenants alone) (counted : Counted tenants) (counted' : Counted alone) :
    ∃ next next' turn, tenants.step act = some (next,turn) ∧ alone.step act = some (next',turn) ∧
      Alike act.account_id next next' := by
  have current := alike.current counted counted'
  cases act with
  | acquire account_id elapsed elapsed' =>
    have turns := acquire_turn alike.config current elapsed elapsed'
    have configs : (tenants.limiter.acquire account_id elapsed elapsed').1.config =
        (alone.limiter.acquire account_id elapsed elapsed').1.config := by
      rw [acquire_config,acquire_config,alike.config]
    obtain ⟨same,after⟩ := alike.told turns configs
    exact ⟨_,_,_,rfl,congrArg some (Prod.ext rfl same.symm),after⟩
  | wake account_id timed_out elapsed elapsed' =>
    change Alike account_id tenants alone at alike
    have asleep : account_id ∈ tenants.waiting ↔ account_id ∈ alone.waiting := by
      rw [← List.count_pos_iff,← List.count_pos_iff,alike.waiting]
    by_cases waits : account_id ∈ tenants.waiting
    · have turns := woken_turn alike.config current timed_out elapsed elapsed'
      have configs : (tenants.limiter.woken account_id timed_out elapsed elapsed').1.config =
          (alone.limiter.woken account_id timed_out elapsed elapsed').1.config := by
        rw [woken_config,woken_config,alike.config]
      have fewer : Alike account_id { tenants with waiting := tenants.waiting.erase account_id }
          { alone with waiting := alone.waiting.erase account_id } :=
        ⟨alike.config,alike.live,by simp [alike.waiting]⟩
      obtain ⟨same,after⟩ := fewer.told turns configs
      exact ⟨_,_,_,if_pos waits,(if_pos (asleep.mp waits)).trans (congrArg some (Prod.ext rfl same.symm)),after⟩
    · exact ⟨_,_,_,if_neg waits,if_neg (waits ∘ asleep.mpr),alike⟩
  | drop account_id =>
    change Alike account_id tenants alone at alike
    have inside : account_id ∈ tenants.slots ↔ account_id ∈ alone.slots := by
      rw [← List.count_pos_iff,← List.count_pos_iff]
      exact iff_of_eq (congrArg (0 < ·) alike.live)
    by_cases held : account_id ∈ tenants.slots
    · obtain ⟨limiter,given,-⟩ := counted.release held
      obtain ⟨limiter',given',-⟩ := counted'.release (inside.mp held)
      refine ⟨_,_,_,(if_pos held).trans (by rw [given]; rfl),(if_pos (inside.mp held)).trans (by rw [given']; rfl),?_⟩
      have live := alike.live
      simp only [Tenants.live] at live
      refine ⟨by rw [release_config given,release_config given',alike.config],?_,alike.waiting⟩
      change (tenants.slots.erase account_id).count account_id = (alone.slots.erase account_id).count account_id
      rw [List.count_erase_self,List.count_erase_self,live]
    · exact ⟨_,_,_,if_neg held,if_neg (held ∘ inside.mpr),alike⟩

/-- A turn of another tenant changes nothing for the tenant. -/
theorem Alike.step_other (alike : Alike account_id tenants alone) (different : act.account_id ≠ account_id)
    (told : tenants.step act = some (next,turn)) : Alike account_id next alone := by
  cases act with
  | acquire other elapsed elapsed' =>
    have after : _ = next := congrArg Prod.fst (Option.some.inj told)
    rw [← after]
    exact alike.told_other different (acquire_config ..)
  | wake other timed_out elapsed elapsed' =>
    simp only [Tenants.step] at told
    split at told
    · have after : _ = next := congrArg Prod.fst (Option.some.inj told)
      rw [← after]
      have fewer : Alike account_id { tenants with waiting := tenants.waiting.erase other } alone :=
        ⟨alike.config,alike.live,by rw [← alike.waiting]; exact List.count_erase_of_ne (Ne.symm different)⟩
      exact fewer.told_other different (woken_config ..)
    · cases told
      exact alike
  | drop other =>
    simp only [Tenants.step] at told
    split at told
    · obtain ⟨limiter,given,after⟩ := Option.map_eq_some_iff.mp told
      cases after
      refine ⟨(release_config given).trans alike.config,?_,alike.waiting⟩
      rw [← alike.live]
      exact List.count_erase_of_ne (Ne.symm different)
    · cases told
      exact alike

/-- The tenant's turns in a run are those of the run of its own acts. -/
theorem Alike.run (alike : Alike account_id tenants alone) (counted : Counted tenants) (counted' : Counted alone)
    (acts : List TenantAct) : ∃ last last' turns, tenants.run acts = some (last,turns) ∧
      alone.run (acts.filter (·.account_id = account_id)) = some (last',turns.filter (·.1.account_id = account_id)) := by
  induction acts generalizing tenants alone with
  | nil => exact ⟨tenants,alone,[],rfl,rfl⟩
  | cons act acts ih =>
    by_cases own : act.account_id = account_id
    · subst own
      obtain ⟨next,next',turn,told,told',after⟩ := alike.step counted counted'
      have kept := counted.stepped told
      have kept' := counted'.stepped told'
      obtain ⟨last,last',turns,ran,ran'⟩ := ih after kept kept'
      refine ⟨last,last',(act,turn) :: turns,?_,?_⟩
      · rw [Tenants.run,told]
        dsimp only
        rw [ran]
        rfl
      · rw [List.filter_cons_of_pos (by simp),List.filter_cons_of_pos (by simp),Tenants.run,told']
        dsimp only
        rw [ran']
        rfl
    · obtain ⟨next,turn,told,kept⟩ := counted.step act
      obtain ⟨last,last',turns,ran,ran'⟩ := ih (alike.step_other own told) kept counted'
      refine ⟨last,last',(act,turn) :: turns,?_,?_⟩
      · rw [Tenants.run,told]
        dsimp only
        rw [ran]
        rfl
      · rw [List.filter_cons_of_neg (by simpa using own),List.filter_cons_of_neg (by simpa using own),ran']

/-! ### Refusals -/

@[simp]
theorem told_turn (answer : TenantLimiter × Turn) : (tenants.told account_id answer).2 = answer.2 := by
  obtain ⟨limiter,turn⟩ := answer
  cases turn with
  | _ => rfl

theorem attempt_refused {e : FairnessError} {elapsed elapsed' : ℕ}
    (refused : (limiter.attempt account_id elapsed elapsed').2 = .refused e) :
    limiter.config.max_tenant_concurrency ≤ limiter.current account_id := by
  by_contra room
  rw [TenantLimiter.attempt,if_pos (Nat.lt_of_not_le room)] at refused
  cases refused

/-- A tenant is refused at its own cap only. -/
theorem refused_at_cap (counted : Counted tenants) {e : FairnessError}
    (told : tenants.step act = some (next,.refused e)) :
    tenants.live act.account_id = tenants.limiter.config.max_tenant_concurrency := by
  refine Nat.le_antisymm (counted.capped _) ?_
  rw [← counted.current]
  cases act with
  | acquire account_id elapsed elapsed' =>
    have refused : (tenants.limiter.acquire account_id elapsed elapsed').2 = .refused e :=
      (told_turn _).symm.trans (congrArg Prod.snd (Option.some.inj told))
    by_cases disabled : tenants.limiter.config.is_disabled
    · rw [TenantLimiter.acquire,if_pos disabled] at refused
      cases refused
    · rw [TenantLimiter.acquire,if_neg disabled] at refused
      exact attempt_refused refused
  | wake account_id timed_out elapsed elapsed' =>
    by_cases asleep : account_id ∈ tenants.waiting
    · have refused : (tenants.limiter.woken account_id timed_out elapsed elapsed').2 = .refused e :=
        (told_turn _).symm.trans (congrArg Prod.snd (Option.some.inj ((if_pos asleep).symm.trans told)))
      by_cases late : timed_out && tenants.limiter.config.max_tenant_concurrency ≤ tenants.limiter.current account_id
      · exact of_decide_eq_true (Bool.and_eq_true_iff.mp late).2
      · rw [TenantLimiter.woken,if_neg late] at refused
        exact attempt_refused refused
    · cases (if_neg asleep).symm.trans told
  | drop account_id =>
    by_cases inside : account_id ∈ tenants.slots
    · obtain ⟨limiter,given,after⟩ := Option.map_eq_some_iff.mp ((if_pos inside).symm.trans told)
      cases after
    · cases (if_neg inside).symm.trans told

theorem told_limiter (answer : TenantLimiter × Turn) : (tenants.told account_id answer).1.limiter = answer.1 := by
  obtain ⟨limiter,turn⟩ := answer
  cases turn with
  | _ => rfl

theorem step_config (told : tenants.step act = some (next,turn)) : next.limiter.config = tenants.limiter.config := by
  cases act with
  | acquire account_id elapsed elapsed' =>
    have after : _ = next := congrArg Prod.fst (Option.some.inj told)
    rw [← after,told_limiter,acquire_config]
  | wake account_id timed_out elapsed elapsed' =>
    by_cases asleep : account_id ∈ tenants.waiting
    · have after : _ = next := congrArg Prod.fst (Option.some.inj ((if_pos asleep).symm.trans told))
      rw [← after,told_limiter,woken_config]
    · cases (if_neg asleep).symm.trans told
      rfl
  | drop account_id =>
    by_cases inside : account_id ∈ tenants.slots
    · obtain ⟨limiter,given,after⟩ := Option.map_eq_some_iff.mp ((if_pos inside).symm.trans told)
      cases after
      exact release_config given
    · cases (if_neg inside).symm.trans told
      rfl

theorem run_config {acts : List TenantAct} {turns : List (TenantAct × Turn)}
    (ran : tenants.run acts = some (next,turns)) : next.limiter.config = tenants.limiter.config := by
  induction acts generalizing tenants turns with
  | nil =>
    cases ran
    rfl
  | cons act acts ih =>
    rw [Tenants.run] at ran
    split at ran
    · cases ran
    · next told =>
      obtain ⟨rest,ran',after⟩ := Option.map_eq_some_iff.mp ran
      cases after
      rw [ih ran',step_config told]

/-- Whatever the tenants' threads and dropped slots do, the counts are right after every turn, no tenant is refused below
    its own cap, and each is told what it would be told if the others did nothing. -/
theorem limiter_run (config : FairnessConfig) (acts : List TenantAct) :
    ∃ last turns, (start config).run acts = some (last,turns) ∧
      (∀ account_id, last.limiter.current account_id = last.live account_id) ∧
      (∀ account_id, last.live account_id ≤ config.max_tenant_concurrency) ∧
      (∀ account_id, account_id ∈ last.limiter.inflight ↔ 0 < last.live account_id) ∧
      (∀ act next e, last.step act = some (next,.refused e) → last.live act.account_id = config.max_tenant_concurrency) ∧
      ∀ account_id, ∃ alone, (start config).run (acts.filter (·.account_id = account_id)) =
        some (alone,turns.filter (·.1.account_id = account_id)) := by
  obtain ⟨last,turns,ran,counted⟩ := (Counted.start config).run acts
  have policy : last.limiter.config = config := run_config ran
  refine ⟨last,turns,ran,counted.current,fun account_id => policy ▸ counted.capped account_id,counted.mem,?_,?_⟩
  · intro act next e told
    exact policy ▸ refused_at_cap counted told
  · intro account_id
    obtain ⟨last',alone,turns',ran',own⟩ :=
      Alike.run ⟨rfl,rfl,rfl⟩ (Counted.start config) (Counted.start config) acts
    rw [ran] at ran'
    cases ran'
    exact ⟨alone,own⟩

end
end Tenants
end Pergamon
