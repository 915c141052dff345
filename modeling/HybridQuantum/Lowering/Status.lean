/-!
# Completion status

The life cycle of a lowered instruction, or of a whole program run.
-/

namespace HybridQuantum

/-- How far an instruction or a run has come. -/
inductive Status where
  | notStarted
  | running
  | done
  | error
  | timeout
  | interrupted
deriving DecidableEq, Repr

namespace Status

/-- All states, in the order of a life cycle. -/
def all : List Status :=
  [notStarted, running, done, error, timeout, interrupted]

def text : Status → String
  | notStarted => "NOT_STARTED"
  | running => "RUNNING"
  | done => "DONE"
  | error => "ERROR"
  | timeout => "TIMEOUT"
  | interrupted => "INTERRUPTED"

/-- Whether the work finished as intended. -/
def isDone (status : Status) : Bool :=
  status = .done

/-- Whether nothing more will happen. -/
def isFinal : Status → Bool
  | notStarted => false
  | running => false
  | _ => true

end Status

end HybridQuantum
