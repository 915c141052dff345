import HybridQuantum.Text.Quoted

/-!
# Errors of execution

What goes wrong between a program text and its measurement counts, with the
wording of each error.
-/

namespace HybridQuantum

/-- The identifier a back end gives to a submitted program. -/
structure JobId where
  text : String
deriving DecidableEq, Repr, Inhabited

/-- What goes wrong on a back end. -/
inductive BackendError where
  | unavailable (reason : String)
  | jobFailed (reason : String)
  | jobCancelled
  | jobNotFound (job : JobId)
  | invalidProgram (reason : String)
  | programTooLarge (backend : String) (required available : UInt32)
  | invalidResult (reason : String)
  | timeout (job : JobId)
  | invalidShots (reason : String)
  | other (reason : String)
deriving DecidableEq, Repr

namespace BackendError

def message : BackendError → String
  | unavailable reason => "Backend not available: " ++ reason
  | jobFailed reason => "Job failed: " ++ reason
  | jobCancelled => "Job cancelled"
  | jobNotFound job => "Job not found: " ++ job.text
  | invalidProgram reason => "Invalid program: " ++ reason
  | programTooLarge backend required available =>
      "Program uses " ++ toString required.toNat ++ " qubits but backend '" ++ backend ++
        "' supports " ++ toString available.toNat
  | invalidResult reason => "Invalid result: " ++ reason
  | timeout job => "Timeout waiting for job " ++ job.text
  | invalidShots reason => "Invalid shots: " ++ reason
  | other reason => "Backend error: " ++ reason

end BackendError

end HybridQuantum
