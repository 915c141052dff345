import HybridQuantum.Execution.Error
import HybridQuantum.Lowering.Error
import HybridQuantum.Types.Size

/-!
# Errors of casts

Why a value has no counterpart in the target type, with the wording of each
error.  Errors of types, memory, lowering and execution pass through.
-/

namespace HybridQuantum

/-- What a rejected cast was about. -/
inductive CastSubject where
  | value (value : Value)
  | type (name : Name)
deriving DecidableEq

namespace CastSubject

def text : CastSubject → String
  | value content => content.text
  | type name => name.text

end CastSubject

/-- What a conversion lacks. -/
inductive Obstacle where
  | noClassicalBuiltin
  | floatNotTruncated
  | notANumber
  | notAScalar
  | noCodePoint
  | sizeNotResolved
  | sameQuantumType
  | classicalOrigin
  | notCore
  | noSpec
  | notABasisState
  | distribution
deriving DecidableEq, Repr

namespace Obstacle

def message : Obstacle → String
  | noClassicalBuiltin => "target is not a classical builtin"
  | floatNotTruncated => "floats are not truncated"
  | notANumber => "not a number"
  | notAScalar => "not a Unicode scalar value"
  | noCodePoint => "no code point"
  | sizeNotResolved => "quantum size is not resolved"
  | sameQuantumType => "origin and target are the same quantum type"
  | classicalOrigin => "a quantum program needs a quantum origin type"
  | notCore => "only core literals convert directly"
  | noSpec => "target has no resolver spec"
  | notABasisState => "not a basis state"
  | distribution => "a distribution cannot initialize a quantum value"

end Obstacle

/-- What goes wrong in a cast. -/
inductive CastError where
  | negativeToUnsigned (value : Int64) (target : Name)
  | overflow (value : Nat) (target : Name) (max : Nat)
  | unsupported (subject : CastSubject) (target : Name) (obstacle : Obstacle)
  /-- A variable holds another number of indices than its type spans. -/
  | widthMismatch (var origin : Name) (expected : QSize) (held : Nat)
  | invalidResult (var : Name) (reason : String)
  /-- A run ended without a result. -/
  | execution (var : Name) (status : Status) (cause : BackendError)
  | type (cause : TypeError)
  | memory (cause : MemoryError)
  | lowering (cause : LoweringError)
  | backend (cause : BackendError)

namespace CastError

/-- The text of the index counts a quantum size admits. -/
def widthText (size : QSize) : String :=
  match size.max with
  | some max =>
      if max = size.min then toString max.toNat
      else toString size.min.toNat ++ "..=" ++ toString max.toNat
  | none => "at least " ++ toString size.min.toNat

def message : CastError → String
  | negativeToUnsigned value target =>
      "Cannot cast negative value " ++ toString value.toInt ++ " to unsigned type '" ++
        target.text ++ "'"
  | overflow value target max =>
      "Value " ++ toString value ++ " overflows '" ++ target.text ++ "' (maximum " ++
        toString max ++ ")"
  | unsupported subject target obstacle =>
      "Cannot cast " ++ subject.text ++ " to '" ++ target.text ++ "': " ++ obstacle.message
  | widthMismatch var origin expected held =>
      "'" ++ var.text ++ "' holds " ++ toString held ++ " indexes but '" ++ origin.text ++
        "' spans " ++ widthText expected
  | invalidResult var reason =>
      "Invalid quantum computed result for '" ++ var.text ++ "': " ++ reason
  | execution var status cause =>
      "Execution of '" ++ var.text ++ "' ended with status " ++ status.text ++ ": " ++
        cause.message
  | type cause => cause.message
  | memory cause => cause.message
  | lowering cause => cause.message
  | backend cause => cause.message

/-- The back end error of a variable's run, with the status it amounts to. -/
def ofExecution (var : Name) : BackendError → CastError
  | .timeout job => .execution var .timeout (.timeout job)
  | .jobCancelled => .execution var .interrupted .jobCancelled
  | .invalidResult reason => .invalidResult var reason
  | other => .backend other

end CastError

end HybridQuantum
