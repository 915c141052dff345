import HybridQuantum.Execution.Error

/-!
# Jobs

A submitted program is queued, then running, then completed, failed or
cancelled.  The last three are terminal: no later change is accepted.
-/

namespace HybridQuantum

/-- How far a job has come. -/
inductive JobStatus where
  | queued
  | running
  | completed
  | failed (reason : String)
  | cancelled
deriving DecidableEq, Repr

namespace JobStatus

/-- Whether the job has ended. -/
def isTerminal : JobStatus → Bool
  | completed => true
  | failed _ => true
  | cancelled => true
  | _ => false

/-- Whether the job has not ended. -/
def isPending : JobStatus → Bool
  | queued => true
  | running => true
  | _ => false

/-- Whether the job has a result. -/
def isSuccess (status : JobStatus) : Bool :=
  status = .completed

def text : JobStatus → String
  | queued => "Queued"
  | running => "Running"
  | completed => "Completed"
  | failed reason => "Failed: " ++ reason
  | cancelled => "Cancelled"

/-- The next status, unless the job has ended. -/
def advance? (status next : JobStatus) : Option JobStatus :=
  if status.isTerminal then none else some next

end JobStatus

/-- A submitted program with its bookkeeping. -/
structure Job where
  id : JobId
  status : JobStatus
  shots : UInt32
  /-- The qubits the program declares. -/
  qubits : UInt32
  backend : String
  startedAt : Option Nat
  finishedAt : Option Nat
deriving DecidableEq, Repr

namespace Job

def new (id : JobId) (backend : String) (shots qubits : UInt32) : Job where
  id := id
  status := .queued
  shots := shots
  qubits := qubits
  backend := backend
  startedAt := none
  finishedAt := none

/--
Move a job to a status at a moment, noting its first start and its end.  A job
that has ended stays as it is.
-/
def transition (job : Job) (now : Nat) (status : JobStatus) : Bool × Job :=
  match job.status.advance? status with
  | none => (false, job)
  | some next =>
      (true,
        { job with
          status := next
          startedAt := if next = .running then job.startedAt.or (some now) else job.startedAt
          finishedAt := if next.isTerminal then some now else job.finishedAt })

end Job

end HybridQuantum
