import HybridQuantum.Execution.Backend

/-!
# Scripted back ends

A back end that replays prepared answers and keeps a log of what it was asked.
The status answers are used up one by one and the last one repeats; after an
accepted cancellation every status is cancelled.
-/

namespace HybridQuantum

/-- Prepared answers of a back end. -/
structure Script where
  info : BackendInfo
  /-- Why every submission fails, if it does. -/
  submitFailure : Option BackendError
  statuses : List (Except BackendError JobStatus)
  result : Outcome BackendError ExecutionResult
  /-- Why every cancellation fails, if it does. -/
  cancelFailure : Option BackendError

/-- What a scripted back end was asked. -/
structure ScriptLog where
  submits : List (String × UInt32)
  statusCalls : Nat
  resultCalls : Nat
  cancelCalls : Nat
  cancelled : Bool

namespace ScriptLog

def empty : ScriptLog :=
  ⟨[], 0, 0, 0, false⟩

end ScriptLog

namespace Script

/-- The answer to the status call after `calls` earlier ones. -/
def statusAt (script : Script) (calls : Nat) : Except BackendError JobStatus :=
  match script.statuses[calls]? with
  | some answer => answer
  | none => script.statuses.getLast?.getD (.ok .completed)

def backend (script : Script) : Backend ScriptLog where
  info := script.info
  submit log program shots :=
    let log := { log with submits := log.submits ++ [(program, shots)] }
    match script.submitFailure with
    | some cause => (.fail cause, log)
    | none => (.ok ⟨"job-" ++ toString log.submits.length⟩, log)
  status log _ :=
    let answer := if log.cancelled then .ok .cancelled else script.statusAt log.statusCalls
    (.ofExcept answer, { log with statusCalls := log.statusCalls + 1 })
  result log _ := (script.result, { log with resultCalls := log.resultCalls + 1 })
  cancel log _ :=
    let log := { log with cancelCalls := log.cancelCalls + 1 }
    match script.cancelFailure with
    | some cause => (.fail cause, log)
    | none => (.ok (), { log with cancelled := true })

end Script

end HybridQuantum
