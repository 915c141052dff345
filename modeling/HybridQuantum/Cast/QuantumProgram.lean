import HybridQuantum.Cast.Config
import HybridQuantum.Execution.Handle
import HybridQuantum.Lowering.Lowering

/-!
# Running a quantum variable's program

The block of a quantum variable is lowered over the indices the variable holds,
submitted with the shots the configuration asks for, and waited on.  The counts
must span exactly the variable's indices.
-/

namespace HybridQuantum

/-- The block of a quantum variable and the pool that holds its indices. -/
structure QuantumProgram where
  var : Name
  block : Block
  pool : IndexPool

namespace QuantumProgram

variable {σ : Type}

def width (program : QuantumProgram) : Except CastError Nat :=
  match program.pool.indexesOf? program.var with
  | some indexes => .ok indexes.length
  | none => .error (.memory (.holdsNoIndexes program.var))

def lower (program : QuantumProgram) (evaluator : Evaluator) : Except CastError String :=
  match Lowering.new program.pool program.var evaluator with
  | .error cause => .error (.lowering cause)
  | .ok lowering =>
      match lowering.program program.block with
      | .error cause => .error (.lowering cause)
      | .ok text => .ok text

def submit (program : QuantumProgram) (backend : Backend σ) (config : ExecutionConfig)
    (evaluator : Evaluator) (state : σ) : Outcome CastError Handle × σ :=
  match program.lower evaluator, program.width with
  | .error cause, _ => (.fail cause, state)
  | _, .error cause => (.fail cause, state)
  | .ok text, .ok width =>
      match Handle.execute backend text (config.shotsFor width) state with
      | (answer, state) => (answer.mapError (CastError.ofExecution program.var), state)

/-- Every bitstring has one character for each index. -/
def checkSpan (program : QuantumProgram) (counts : Counts) : Except CastError Counts := do
  let width ← program.width
  match counts.keys.find? fun bitstring => bitstring.utf8ByteSize ≠ width with
  | some bitstring =>
      .error (.invalidResult program.var ("bitstring '" ++ bitstring ++ "' does not span " ++
        toString width ++ " indexes"))
  | none => .ok counts

/-- Lower, submit and wait for counts. -/
def run (program : QuantumProgram) (backend : Backend σ) (config : ExecutionConfig)
    (evaluator : Evaluator) (state : σ) : Outcome CastError Counts × σ :=
  match program.submit backend config evaluator state with
  | (.error fault, state) => (.error fault, state)
  | (.ok handle, state) =>
      match handle.wait backend config.timeout state with
      | (.error fault, state) =>
          (Outcome.mapError (CastError.ofExecution program.var) (.error fault), state)
      | (.ok result, state) => (.ofExcept (program.checkSpan result.counts), state)

end QuantumProgram

end HybridQuantum
