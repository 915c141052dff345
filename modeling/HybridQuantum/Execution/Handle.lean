import HybridQuantum.Execution.Backend

/-!
# Handles on submitted programs

A program runs at least once.  Its handle waits for the result, whose counts
must be well formed, or cancels the job.
-/

namespace HybridQuantum

/-- A submitted program. -/
structure Handle where
  job : JobId
  shots : UInt32
  /-- The name of the back end that runs the program. -/
  backend : String
deriving DecidableEq, Repr

namespace Handle

variable {σ : Type}

/-- Submit a program for a positive number of shots. -/
def execute (backend : Backend σ) (program : String) (shots : UInt32) (state : σ) :
    Outcome BackendError Handle × σ :=
  if shots = 0 then (.fail (.invalidShots "shots must be positive"), state)
  else match backend.submit state program shots with
    | (.error fault, state) => (.error fault, state)
    | (.ok job, state) => (.ok ⟨job, shots, backend.info.name⟩, state)

/-- Wait for the result and check its counts. -/
def wait (handle : Handle) (backend : Backend σ) (limit : Option Nat) (state : σ) :
    Outcome BackendError ExecutionResult × σ :=
  match backend.wait handle.job limit state with
  | (.error fault, state) => (.error fault, state)
  | (.ok result, state) =>
      match result.counts.validate handle.shots with
      | .error fault => (.error fault, state)
      | .ok () => (.ok result, state)

theorem wait_of_validate {handle : Handle} {backend : Backend σ} {limit : Option Nat} {state : σ}
    {result : ExecutionResult} (waited : (backend.wait handle.job limit state).1 = .ok result)
    (valid : result.counts.validate handle.shots = .ok ()) :
    (handle.wait backend limit state).1 = .ok result := by
  rcases answered : backend.wait handle.job limit state with ⟨answer, finished⟩
  rw [answered] at waited
  cases waited
  simp only [wait, answered, valid]

/-- The text of a handle, its parts between braces. -/
def text (handle : Handle) : String :=
  "ExecutionHandle \x7b job_id: JobId(" ++ Text.quoted handle.job.text ++ "), shots: " ++
    toString handle.shots.toNat ++ ", backend: " ++ Text.quoted handle.backend ++ " \x7d"

end Handle

end HybridQuantum
