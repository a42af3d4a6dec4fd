import Mathlib.Algebra.Group.Nat.Defs
import Pergamon.Push

/-!
Background sync (`run_forever`): rounds and interruptible waits in turn, on a clock that does not run backwards.

What a round or a wait leaves behind is a function of the scheduler, of its outcome and of the clock's
readings; the delay of a backoff, in floating point, is a parameter. A run is a list of rounds and
waits in the order they happen. After a failure that asks for a delay the loop waits against a
deadline (`Held`), which triggers do not move; so no later round starts before it (`daemon_runs`).
-/
namespace Pergamon

/-- Whether an error is worth a retry. -/
def SyncError.is_retryable : SyncError → Bool
  | .Transport | .NotFound _ | .UnknownSigner _ | .RateLimited _ => true
  | _ => false

/-- An explicit least delay before a retry. -/
def SyncError.retry_after_seconds : SyncError → Option ℕ
  | .RateLimited retry_after_seconds => retry_after_seconds
  | _ => none

/-- A duration in nanoseconds. -/
def from_secs (secs : ℕ) : ℕ := secs * 1000000000

/-- The delay for a retry number and a fraction, in floating point; nothing where it is no duration. -/
structure BackoffPolicy (Fraction : Type) where
  delay : ℕ → Fraction → Option ℕ

/-- When the next round is due. -/
structure SyncScheduler (Fraction : Type) where
  interval : ℕ
  backoff : BackoffPolicy Fraction
  consecutive_failures : ℕ

namespace SyncScheduler
variable {Fraction : Type} (scheduler : SyncScheduler Fraction)

def record_success : SyncScheduler Fraction := { scheduler with consecutive_failures := 0 }

/-- One more failure, as far as 32 bits count. -/
def record_failure : SyncScheduler Fraction :=
  { scheduler with consecutive_failures := min (scheduler.consecutive_failures + 1) (2 ^ 32 - 1) }

def next_delay (rand01 : Fraction) : Option ℕ :=
  if scheduler.consecutive_failures = 0 then some scheduler.interval
  else scheduler.backoff.delay (scheduler.consecutive_failures - 1) rand01

end SyncScheduler

/-- What a round pushed and applied. -/
structure SyncStats where
  pushed : ℕ
  applied : ℕ
  deriving DecidableEq

inductive RoundOutcome where
  | Synced (stats : SyncStats)
  | Offline (e : SyncError)
  deriving DecidableEq

structure RoundReport where
  outcome : RoundOutcome
  consecutive_failures : ℕ
  next_delay : ℕ
  deriving DecidableEq

/-- Why a wait ended. -/
inductive Wake where
  | Elapsed
  | Triggered
  | Shutdown
  deriving DecidableEq

/-- How `run_forever` ends: asked to, with an error, or because a delay is no duration. -/
inductive Ending where
  | shutdown
  | failed (e : SyncError)
  | panicked
  deriving DecidableEq

/-- Where the loop stands: before a round, before a wait of some length, or at its end. -/
inductive Phase where
  | round
  | waits (deadline : Option ℕ) (wait : ℕ)
  | halted (ending : Ending)
  deriving DecidableEq

structure Daemon (Fraction : Type) where
  scheduler : SyncScheduler Fraction
  phase : Phase

namespace Daemon
variable {Fraction : Type} (daemon : Daemon Fraction) (limit : ℕ)

/-- The scheduler after a round, its outcome and the relay's least delay, or the error that ends the loop. -/
def recorded (result : Except SyncError SyncStats) :
    Except SyncError (SyncScheduler Fraction × RoundOutcome × Option ℕ) :=
  match result with
  | .ok stats => .ok (daemon.scheduler.record_success,.Synced stats,none)
  | .error e =>
    if e.is_retryable then .ok (daemon.scheduler.record_failure,.Offline e,e.retry_after_seconds.map from_secs)
    else .error e

/-- The loop after a round that is reported: the deadline on a clock with a last instant, and the wait. -/
def scheduled (scheduler : SyncScheduler Fraction) (outcome : RoundOutcome) (minimum_retry : Option ℕ)
    (delay now : ℕ) : Daemon Fraction × Option RoundReport :=
  let next_delay := max delay (minimum_retry.getD 0)
  let report := ⟨outcome,scheduler.consecutive_failures,next_delay⟩
  match minimum_retry with
  | none => (⟨scheduler,.waits none next_delay⟩,some report)
  | some minimum =>
    if now + minimum ≤ limit then (⟨scheduler,.waits (some (now + minimum)) next_delay⟩,some report)
    else (⟨scheduler,.halted (.failed (.Protocol "relay retry delay is too large"))⟩,some report)

/-- The loop from the end of a round to its wait. -/
def after_round (result : Except SyncError SyncStats) (rand01 : Fraction) (now : ℕ) :
    Daemon Fraction × Option RoundReport :=
  match daemon.recorded result with
  | .error e => (⟨daemon.scheduler,.halted (.failed e)⟩,none)
  | .ok (scheduler,outcome,minimum_retry) =>
    match scheduler.next_delay rand01 with
    | none => (⟨scheduler,.halted .panicked⟩,none)
    | some delay => scheduled limit scheduler outcome minimum_retry delay now

/-- The loop after a wait. The clock is read for the deadline and again for what is left. -/
def after_wait (deadline : Option ℕ) (wake : Wake) (now now' : ℕ) : Daemon Fraction :=
  match wake with
  | .Shutdown => { daemon with phase := .halted .shutdown }
  | .Triggered =>
    if deadline.any (now < ·) then
      { daemon with phase := .waits deadline ((deadline.map (· - now')).getD 0) }
    else { daemon with phase := .round }
  | .Elapsed => { daemon with phase := .round }

end Daemon

/-! ### Runs -/

/-- A round or a wait, with what came of it and the clock's readings. -/
inductive Happening (Fraction : Type) where
  | round (started ended : ℕ) (result : Except SyncError SyncStats) (rand01 : Fraction) (now : ℕ)
  | wait (began : ℕ) (wake : Wake) (ended now now' : ℕ)

def Happening.readings {Fraction : Type} : Happening Fraction → List ℕ
  | .round started ended _ _ now => [started,ended,now]
  | .wait began _ ended now now' => [began,ended,now,now']

/-- The loop at an instant. -/
structure LoopState (Fraction : Type) where
  daemon : Daemon Fraction
  clock : ℕ

namespace LoopState
variable {Fraction : Type} (limit : ℕ)

/-- What happens next, with the observer's report; nothing where the loop does not stand there. A wait that
    has elapsed has taken its time. -/
def happens (moment : LoopState Fraction) : Happening Fraction → Option (LoopState Fraction × Option RoundReport)
  | .round started ended result rand01 now =>
    if moment.daemon.phase = .round ∧ moment.clock ≤ started ∧ started ≤ ended ∧ ended ≤ now then
      let (daemon,report) := moment.daemon.after_round limit result rand01 now
      some (⟨daemon,now⟩,report)
    else none
  | .wait began wake ended now now' =>
    match moment.daemon.phase with
    | .waits deadline wait =>
      if moment.clock ≤ began ∧ began ≤ ended ∧ ended ≤ now ∧ now ≤ now' ∧
          (wake = .Elapsed → began + wait ≤ ended) then
        some (⟨moment.daemon.after_wait deadline wake now now',now'⟩,none)
      else none
    | _ => none

/-- A run, with the reports. -/
def run (moment : LoopState Fraction) : List (Happening Fraction) → Option (LoopState Fraction × List RoundReport)
  | [] => some (moment,[])
  | happening :: happenings =>
    match moment.happens limit happening with
    | none => none
    | some (next,report) => (run next happenings).map (fun (last,reports) => (last,report.toList ++ reports))

section
variable {limit}
variable {moment next last : LoopState Fraction} {happening : Happening Fraction} {report : Option RoundReport}
  {happenings before rest : List (Happening Fraction)} {reports : List RoundReport} {started ended now now' : ℕ}
  {result : Except SyncError SyncStats} {rand01 : Fraction}

/-- A round begins where the loop is before one, and the loop goes on from its end. -/
theorem happens_round (happened : moment.happens limit (.round started ended result rand01 now) = some (next,report)) :
    moment.daemon.phase = .round ∧ moment.clock ≤ started ∧ started ≤ ended ∧ ended ≤ now ∧
      next = ⟨(moment.daemon.after_round limit result rand01 now).1,now⟩ := by
  simp only [happens] at happened
  split at happened
  · next inOrder =>
    cases happened
    exact ⟨inOrder.1,inOrder.2.1,inOrder.2.2.1,inOrder.2.2.2,rfl⟩
  · cases happened

theorem happens_wait {wake : Wake} {began : ℕ}
    (happened : moment.happens limit (.wait began wake ended now now') = some (next,report)) :
    ∃ deadline wait, moment.daemon.phase = .waits deadline wait ∧
      moment.clock ≤ began ∧ began ≤ ended ∧ ended ≤ now ∧ now ≤ now' ∧ (wake = .Elapsed → began + wait ≤ ended) ∧
      next = ⟨moment.daemon.after_wait deadline wake now now',now'⟩ := by
  simp only [happens] at happened
  split at happened
  · next deadline wait waits =>
    split at happened
    · next inOrder =>
      cases happened
      exact ⟨deadline,wait,waits,inOrder.1,inOrder.2.1,inOrder.2.2.1,inOrder.2.2.2.1,inOrder.2.2.2.2,rfl⟩
    · cases happened
  · cases happened

/-- The clock does not run backwards. -/
theorem happens_clock (happened : moment.happens limit happening = some (next,report)) : moment.clock ≤ next.clock := by
  cases happening with
  | round started ended result rand01 now =>
    obtain ⟨-,begins,ends,reads,after⟩ := happens_round happened
    rw [after]
    dsimp only
    omega
  | wait began wake ended now now' =>
    obtain ⟨deadline,wait,-,begins,ends,reads,reads',-,after⟩ := happens_wait happened
    rw [after]
    dsimp only
    omega

theorem run_cons (ran : moment.run limit (happening :: happenings) = some (last,reports)) :
    ∃ next report reports', moment.happens limit happening = some (next,report) ∧
      next.run limit happenings = some (last,reports') ∧ reports = report.toList ++ reports' := by
  rw [run] at ran
  split at ran
  · cases ran
  · next next report happened =>
    obtain ⟨⟨last',reports'⟩,ran',ends⟩ := Option.map_eq_some_iff.mp ran
    cases ends
    exact ⟨next,report,reports',happened,ran',rfl⟩

theorem run_append (ran : moment.run limit (before ++ rest) = some (last,reports)) :
    ∃ middle reports' reports'', moment.run limit before = some (middle,reports') ∧
      middle.run limit rest = some (last,reports'') ∧ reports = reports' ++ reports'' := by
  induction before generalizing moment reports with
  | nil => exact ⟨moment,[],reports,rfl,ran,rfl⟩
  | cons happening before ih =>
    obtain ⟨next,report,later,happened,ran',ends⟩ := run_cons ran
    obtain ⟨middle,reports',reports'',ran₁,ran₂,parts⟩ := ih ran'
    refine ⟨middle,report.toList ++ reports',reports'',?_,ran₂,by rw [ends,parts,List.append_assoc]⟩
    rw [run,happened]
    dsimp only
    rw [ran₁]
    rfl

/-- An instant is past, or the loop is over or waits for it: against a deadline that is no earlier and
    for a time that takes it there. -/
def Held (instant : ℕ) (moment : LoopState Fraction) : Prop :=
  match moment.daemon.phase with
  | .round => instant ≤ moment.clock
  | .waits deadline wait =>
    instant ≤ moment.clock ∨ (∃ end', deadline = some end' ∧ instant ≤ end') ∧ instant ≤ moment.clock + wait
  | .halted _ => True

theorem Held.of_past {instant : ℕ} (past : instant ≤ moment.clock) : Held instant moment := by
  unfold Held
  split
  · exact past
  · exact .inl past
  · trivial

/-- Nothing that happens lets the loop go on early. -/
theorem Held.happens {instant : ℕ} (held : Held instant moment)
    (happened : moment.happens limit happening = some (next,report)) : Held instant next := by
  have forwards := happens_clock happened
  cases happening with
  | round started ended result rand01 now =>
    obtain ⟨before_round,-⟩ := happens_round happened
    rw [Held,before_round] at held
    exact .of_past (held.trans forwards)
  | wait began wake ended now now' =>
    obtain ⟨deadline,wait,waits,begins,ends,reads,reads',elapsed,after⟩ := happens_wait happened
    rw [Held,waits] at held
    obtain past | ⟨⟨end',rfl,early⟩,long⟩ := held
    · exact .of_past (past.trans forwards)
    · subst after
      cases wake with
      | Shutdown => trivial
      | Elapsed =>
        have passed := elapsed rfl
        exact Held.of_past (show instant ≤ now' by omega)
      | Triggered =>
        by_cases still : now < end'
        · have stays : (moment.daemon.after_wait (some end') .Triggered now now').phase =
              .waits (some end') (end' - now') := by simp [Daemon.after_wait,still]
          rw [Held]
          dsimp only
          rw [stays]
          exact .inr ⟨⟨end',rfl,early⟩,by omega⟩
        · exact Held.of_past (show instant ≤ now' by omega)

/-- What a run keeps: the loop stays held, and its clock goes on. -/
theorem Held.run {instant : ℕ} (held : Held instant moment) (ran : moment.run limit happenings = some (last,reports)) :
    Held instant last := by
  induction happenings generalizing moment reports with
  | nil =>
    cases ran
    exact held
  | cons happening happenings ih =>
    obtain ⟨next,report,reports',happened,ran',-⟩ := run_cons ran
    exact ih (held.happens happened) ran'

/-- A failure that asks for a delay holds the loop for that long. -/
theorem after_round_held {daemon : Daemon Fraction} {e : SyncError} {r : ℕ} (retryable : e.is_retryable)
    (asks : e.retry_after_seconds = some r) (ends : ended ≤ now) :
    Held (ended + from_secs r) ⟨(daemon.after_round limit (.error e) rand01 now).1,now⟩ := by
  have records : daemon.recorded (.error e) =
      .ok (daemon.scheduler.record_failure,.Offline e,some (from_secs r)) := by
    rw [Daemon.recorded,if_pos retryable,asks]
    rfl
  rw [Daemon.after_round,records]
  generalize from_secs r = least
  dsimp only
  split
  · trivial
  · next delay due =>
    by_cases room : now + least ≤ limit
    · rw [Daemon.scheduled,if_pos room]
      have enough : least ≤ max delay least := Nat.le_max_right ..
      refine .inr ⟨⟨now + least,rfl,by omega⟩,?_⟩
      dsimp only [Option.getD_some]
      omega
    · rw [Daemon.scheduled,if_neg room]
      trivial

theorem after_round_fatal {daemon : Daemon Fraction} {e : SyncError} (fatal : ¬ e.is_retryable) :
    daemon.after_round limit (.error e) rand01 now = (⟨daemon.scheduler,.halted (.failed e)⟩,none) := by
  rw [Daemon.after_round,Daemon.recorded,if_neg fatal]

/-- A round that succeeds clears the failures before it: the next is due after the interval. -/
theorem after_round_synced (daemon : Daemon Fraction) (stats : SyncStats) :
    daemon.after_round limit (.ok stats) rand01 now =
      (⟨daemon.scheduler.record_success,.waits none daemon.scheduler.interval⟩,
        some ⟨.Synced stats,0,daemon.scheduler.interval⟩) := by
  simp [Daemon.after_round,Daemon.recorded,SyncScheduler.next_delay,SyncScheduler.record_success,Daemon.scheduled]

/-- Nothing happens to a loop that is over. -/
theorem run_halted {ending : Ending} (halted : moment.daemon.phase = .halted ending)
    (ran : moment.run limit happenings = some (last,reports)) : happenings = [] ∧ last = moment := by
  cases happenings with
  | nil =>
    cases ran
    exact ⟨rfl,rfl⟩
  | cons happening happenings =>
    obtain ⟨next,report,reports',happened,-⟩ := run_cons ran
    cases happening with
    | round started ended result rand01 now =>
      obtain ⟨before_round,-⟩ := happens_round happened
      cases halted.symm.trans before_round
    | wait began wake ended now now' =>
      obtain ⟨deadline,wait,waits,-⟩ := happens_wait happened
      cases halted.symm.trans waits

theorem recorded_scheduler {daemon : Daemon Fraction} {recorded : SyncScheduler Fraction × RoundOutcome × Option ℕ}
    (records : daemon.recorded result = .ok recorded) : recorded.1.record_success = daemon.scheduler.record_success := by
  cases result with
  | ok stats =>
    cases records
    rfl
  | error e =>
    rw [Daemon.recorded] at records
    split at records
    · cases records
      rfl
    · cases records

theorem scheduled_scheduler (scheduler : SyncScheduler Fraction) (outcome : RoundOutcome) (minimum_retry : Option ℕ)
    (delay now : ℕ) : (Daemon.scheduled limit scheduler outcome minimum_retry delay now).1.scheduler = scheduler := by
  cases minimum_retry with
  | none => rfl
  | some minimum =>
    rw [Daemon.scheduled]
    split
    · rfl
    · rfl

/-- But for the count of failures, the scheduler stays. -/
theorem after_round_scheduler (daemon : Daemon Fraction) (result : Except SyncError SyncStats) :
    (daemon.after_round limit result rand01 now).1.scheduler.record_success = daemon.scheduler.record_success := by
  rw [Daemon.after_round]
  split
  · rfl
  · next scheduler outcome minimum_retry records =>
    have same := recorded_scheduler records
    split
    · exact same
    · rw [scheduled_scheduler]
      exact same

theorem happens_scheduler (happened : moment.happens limit happening = some (next,report)) :
    next.daemon.scheduler.record_success = moment.daemon.scheduler.record_success := by
  cases happening with
  | round started ended result rand01 now =>
    obtain ⟨-,-,-,-,after⟩ := happens_round happened
    rw [after,after_round_scheduler]
  | wait began wake ended now now' =>
    obtain ⟨deadline,wait,-,-,-,-,-,-,after⟩ := happens_wait happened
    subst after
    cases wake with
    | Elapsed => rfl
    | Shutdown => rfl
    | Triggered =>
      dsimp only [Daemon.after_wait]
      split
      · rfl
      · rfl

theorem run_scheduler (ran : moment.run limit happenings = some (last,reports)) :
    last.daemon.scheduler.record_success = moment.daemon.scheduler.record_success := by
  induction happenings generalizing moment reports with
  | nil =>
    cases ran
    rfl
  | cons happening happenings ih =>
    obtain ⟨next,report,reports',happened,ran',-⟩ := run_cons ran
    rw [ih ran',happens_scheduler happened]

end

/-- The loop before its first round. -/
def start (scheduler : SyncScheduler Fraction) (clock : ℕ) : LoopState Fraction := ⟨⟨scheduler,.round⟩,clock⟩

/-- In every run: after a failure that asks for a delay no round starts before it has passed; an error that is
    not worth a retry is the last thing that happens; and a round that succeeds leaves the loop as if none
    had failed before it. -/
theorem daemon_runs {scheduler : SyncScheduler Fraction} {clock : ℕ} {happenings : List (Happening Fraction)}
    {last : LoopState Fraction} {reports : List RoundReport}
    (ran : (start scheduler clock).run limit happenings = some (last,reports)) :
    (∀ before started ended e rand01 now between started' ended' result' rand01' now' rest r,
      happenings = before ++ .round started ended (.error e) rand01 now ::
        (between ++ .round started' ended' result' rand01' now' :: rest) →
      e.is_retryable → e.retry_after_seconds = some r → ended + from_secs r ≤ started') ∧
    (∀ before started ended e rand01 now rest,
      happenings = before ++ .round started ended (.error e) rand01 now :: rest → ¬ e.is_retryable →
      rest = [] ∧ last.daemon.phase = .halted (.failed e)) ∧
    (∀ before started ended stats rand01 now, happenings = before ++ [.round started ended (.ok stats) rand01 now] →
      last.daemon = ⟨scheduler.record_success,.waits none scheduler.interval⟩) := by
  refine ⟨?_,?_,?_⟩
  · intro before started ended e rand01 now between started' ended' result' rand01' now' rest r parts retryable asks
    subst parts
    obtain ⟨middle,_,_,-,ran₂,-⟩ := run_append ran
    obtain ⟨next,_,_,happened,ran₃,-⟩ := run_cons ran₂
    obtain ⟨-,-,-,ends,after⟩ := happens_round happened
    have held : Held (ended + from_secs r) next := after ▸ after_round_held retryable asks ends
    obtain ⟨later,_,_,ran₄,ran₅,-⟩ := run_append ran₃
    obtain ⟨_,_,_,happened',-⟩ := run_cons ran₅
    obtain ⟨before_round,begins,-⟩ := happens_round happened'
    have still := held.run ran₄
    rw [Held,before_round] at still
    exact still.trans begins
  · intro before started ended e rand01 now rest parts fatal
    subst parts
    obtain ⟨middle,_,_,-,ran₂,-⟩ := run_append ran
    obtain ⟨next,_,_,happened,ran₃,-⟩ := run_cons ran₂
    obtain ⟨-,-,-,-,after⟩ := happens_round happened
    rw [after_round_fatal fatal] at after
    have halted : next.daemon.phase = .halted (.failed e) := congrArg (·.daemon.phase) after
    obtain ⟨nothing,same⟩ := run_halted halted ran₃
    exact ⟨nothing,same ▸ halted⟩
  · intro before started ended stats rand01 now parts
    subst parts
    obtain ⟨middle,_,_,ran₁,ran₂,-⟩ := run_append ran
    obtain ⟨next,_,_,happened,ran₃,-⟩ := run_cons ran₂
    obtain ⟨-,-,-,-,after⟩ := happens_round happened
    cases ran₃
    have same : middle.daemon.scheduler.record_success = scheduler.record_success := run_scheduler ran₁
    have interval : middle.daemon.scheduler.interval = scheduler.interval := congrArg (·.interval) same
    rw [after,after_round_synced,same,interval]

/-- Two seconds are asked for, and a trigger comes after one. -/
theorem daemon_runs_triggered :
    let failed : Happening Unit := .round 0 5 (.error (.RateLimited (some 2))) () 7
    let triggered : Happening Unit := .wait 7 .Triggered 1000000000 1000000000 1000000001
    let elapsed : Happening Unit := .wait 1000000001 .Elapsed 2000000007 2000000007 2000000007
    let synced : Happening Unit := .round 2000000007 2000000009 (.ok ⟨1,0⟩) () 2000000009
    5 + from_secs 2 ≤ 2000000007 ∧
      ∃ last reports, (start ⟨1000,⟨fun _ _ => some 10⟩,0⟩ 0).run (2 ^ 64) [failed,triggered,elapsed,synced] =
        some (last,reports) ∧ last.daemon.scheduler.consecutive_failures = 0 := by
  intro failed triggered elapsed synced
  have ran : (start ⟨1000,⟨fun _ _ => some 10⟩,0⟩ 0).run (2 ^ 64) [failed,triggered,elapsed,synced] =
      some (_,_) := rfl
  have waited := (daemon_runs _ ran).1 [] 0 5 (.RateLimited (some 2)) () 7 [triggered,elapsed] 2000000007
    2000000009 (.ok ⟨1,0⟩) () 2000000009 [] 2
  exact ⟨waited rfl rfl rfl,_,_,ran,rfl⟩

end LoopState
end Pergamon
