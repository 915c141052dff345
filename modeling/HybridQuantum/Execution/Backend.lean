import HybridQuantum.Execution.Counts
import HybridQuantum.Execution.Info
import HybridQuantum.Execution.Job

/-!
# Back ends

A back end answers four calls on jobs and changes its state with each.  Waiting
for a job polls its status every fifty milliseconds: the first status that is
not pending decides, and a pending status at or after the deadline gives up.
Moments are numbers of nanoseconds, and a clock shows them up to a horizon.  The
deadline is computed before the first poll; one beyond the horizon is an overflow.
-/

namespace HybridQuantum

/-- An execution target with states of type `σ`. -/
structure Backend (σ : Type) where
  info : BackendInfo
  /-- Load a program and run it a number of times. -/
  submit : σ → String → UInt32 → Outcome BackendError JobId × σ
  status : σ → JobId → Outcome BackendError JobStatus × σ
  result : σ → JobId → Outcome BackendError ExecutionResult × σ
  cancel : σ → JobId → Outcome BackendError Unit × σ

namespace Backend

variable {σ : Type}

/-- Nanoseconds in a millisecond. -/
def millisecond : Nat := 1000000

/-- From one poll to the next, where no sleep takes longer than it should. -/
def pollInterval : Nat := 50 * millisecond

/-- How long to wait when no limit is given. -/
def defaultWaitLimit : Nat := 300000 * millisecond

/-- What a clock shows to someone who waits. -/
structure Clock where
  /-- The moment the wait begins, which the limit counts from. -/
  start : Nat
  /-- From then to the first look at the deadline. -/
  delay : Nat
  /--
  How much more than the poll interval passes between a look at the deadline, taken
  at some moment, and the next one.
  -/
  late : Nat → Nat

namespace Clock

/-- A clock on which nothing takes time but the sleeps, and they no more than they should. -/
def steady : Clock :=
  ⟨0, 0, fun _ => 0⟩

/-- The first moment that no clock shows: seconds are counted in a signed 64-bit word. -/
def horizon : Nat := (1 <<< 63) * 1000 * millisecond

/-- When a wait of at most `limit` nanoseconds gives up. -/
def deadline (clock : Clock) (limit : Option Nat) : Nat :=
  clock.start + limit.getD defaultWaitLimit

end Clock

/--
Poll from a moment on.  `late` is how many nanoseconds each sleep takes beyond
the poll interval.
-/
def pollFrom (backend : Backend σ) (job : JobId) (deadline : Nat) (late : Nat → Nat)
    (now : Nat) (state : σ) : Outcome BackendError ExecutionResult × σ :=
  match backend.status state job with
  | (.error fault, state) => (.error fault, state)
  | (.ok .completed, state) => backend.result state job
  | (.ok (.failed reason), state) => (.fail (.jobFailed reason), state)
  | (.ok .cancelled, state) => (.fail .jobCancelled, state)
  | (.ok _, state) =>
      if deadline ≤ now then (.fail (.timeout job), state)
      else pollFrom backend job deadline late (now + pollInterval + late now) state
termination_by deadline - now
decreasing_by simp only [pollInterval, millisecond]; omega

/--
Wait for a job on a clock, at most `limit` nanoseconds.  Without a representation of the
deadline nothing is asked of the back end.
-/
def waitOn (backend : Backend σ) (job : JobId) (limit : Option Nat) (clock : Clock) (state : σ) :
    Outcome BackendError ExecutionResult × σ :=
  if clock.deadline limit < Clock.horizon then
    backend.pollFrom job (clock.deadline limit) clock.late (clock.start + clock.delay) state
  else (.error .overflow, state)

/-- Wait for a job, at most `limit` milliseconds, on a clock without delays. -/
def wait (backend : Backend σ) (job : JobId) (limit : Option Nat) (state : σ) :
    Outcome BackendError ExecutionResult × σ :=
  backend.waitOn job (limit.map (· * millisecond)) .steady state

/-- A wait of at most `limit` milliseconds ends at a moment that the clock without delays shows. -/
def HasDeadline (limit : Option Nat) : Prop :=
  Clock.steady.deadline (limit.map (· * millisecond)) < Clock.horizon

instance (limit : Option Nat) : Decidable (HasDeadline limit) :=
  inferInstanceAs (Decidable (_ < _))

section Deadlines

variable {backend : Backend σ} {job : JobId} {limit : Option Nat} {state : σ}

theorem wait_of_hasDeadline (shown : HasDeadline limit) :
    backend.wait job limit state =
      backend.pollFrom job (Clock.steady.deadline (limit.map (· * millisecond))) (fun _ => 0) 0
        state :=
  if_pos shown

end Deadlines

end Backend

end HybridQuantum
