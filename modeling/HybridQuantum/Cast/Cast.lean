import HybridQuantum.Cast.QuantumProgram
import HybridQuantum.Types.Table

/-!
# Casts

A cast takes a value of an origin type to a target type.  Literals convert
without a run, also quantum ones, which are basis states already.  The program
of a quantum variable is run first, and its counts are resolved: to a value of a
classical target, or to an integer that is encoded in a quantum target.
-/

namespace HybridQuantum

/-- What is cast. -/
inductive CastInput where
  | literal (literal : Literal)
  | program (program : QuantumProgram)

/-- What a cast yields. -/
inductive CastOutput where
  | literal (literal : Literal)
  /-- The counts, when the resolver keeps them. -/
  | distribution (counts : Counts)

/-- What a cast needs besides its input. -/
structure CastContext (σ : Type) where
  execution : ExecutionConfig
  backend : Backend σ
  types : TypeTable
  resolver : Resolver
  evaluator : Evaluator

namespace CastContext

variable {σ : Type}

/-- The recorded quantum size of a type. -/
def quantumSize (context : CastContext σ) (name : Name) : Except CastError QSize :=
  match context.types.get? name with
  | none => .error (.type (.unknownType name))
  | some type =>
      match type.qsize with
      | some size => .ok size
      | none => .error (.unsupported (.type name) name .sizeNotResolved)

end CastContext

/-- A conversion between two types. -/
structure Cast where
  origin : Name
  target : Name
deriving DecidableEq, Repr

namespace Cast

variable {σ : Type}

def unsupported (cast : Cast) (obstacle : Obstacle) : CastError :=
  .unsupported (.type cast.origin) cast.target obstacle

/-- The variable must hold as many indices as the origin type spans. -/
def checkWidth (cast : Cast) (program : QuantumProgram) (context : CastContext σ) :
    Except CastError Unit := do
  let size ← context.quantumSize cast.origin
  let held ← program.width
  if size.admits held then .ok ()
  else .error (.widthMismatch program.var cast.origin size held)

def castLiteral (cast : Cast) (context : CastContext σ) (literal : Literal) :
    Except CastError Literal :=
  match literal with
  | .core core =>
      if cast.target.isQuantum then do
        let size ← context.quantumSize cast.target
        let state ← Conversion.toQuantum core.value cast.target size.width.toNat
        return .core state
      else do
        let value ← Conversion.toClassical core.value cast.target
        return .core ⟨value, cast.target⟩
  | _ => .error (cast.unsupported .notCore)

def resolve (context : CastContext σ) (var : Name) (counts : Counts) (spec : Spec) :
    Outcome CastError Resolved :=
  Outcome.mapError (fun cause => .invalidResult var cause.message)
    (context.resolver counts spec)

/-- Resolve counts to a value of a classical target. -/
def resolveClassical (cast : Cast) (context : CastContext σ) (var : Name) (counts : Counts) :
    Outcome CastError CastOutput :=
  match Spec.ofName? cast.target with
  | none => .fail (cast.unsupported .noSpec)
  | some spec => do
      match ← resolve context var counts spec with
      | .distribution kept => .ok (.distribution kept)
      | .value value =>
          let converted ← Outcome.ofExcept (Conversion.toClassical value cast.target)
          return .literal (.core ⟨converted, cast.target⟩)

/-- Encode a resolved integer as a basis state of a quantum target. -/
def encodeResolved (cast : Cast) (width : Nat) : Resolved → Except CastError CoreLiteral
  | .value (.int number) => Conversion.toQuantum (.int number) cast.target width
  | .value (.uint number) => Conversion.toQuantum (.uint number) cast.target width
  | .value other => .error (.unsupported (.value other) cast.target .notABasisState)
  | .distribution _ => .error (cast.unsupported .distribution)

/-- Resolve counts to a basis state of a quantum target. -/
def resolveQuantum (cast : Cast) (context : CastContext σ) (var : Name) (counts : Counts) :
    Outcome CastError CastOutput := do
  let size ← Outcome.ofExcept (context.quantumSize cast.target)
  let resolved ← resolve context var counts .int
  let state ← Outcome.ofExcept (cast.encodeResolved size.width.toNat resolved)
  return .literal (.core state)

/-- Resolve the counts of a run for the target. -/
def resolveRun (cast : Cast) (context : CastContext σ) (var : Name) (counts : Counts) :
    Outcome CastError CastOutput :=
  if cast.target.isQuantum then cast.resolveQuantum context var counts
  else cast.resolveClassical context var counts

/-- Run a quantum variable's program and resolve its counts. -/
def castProgram (cast : Cast) (context : CastContext σ) (program : QuantumProgram) (state : σ) :
    Outcome CastError CastOutput × σ :=
  if cast.origin.isQuantum then
    match cast.checkWidth program context with
    | .error cause => (.fail cause, state)
    | .ok () =>
        match program.run context.backend context.execution context.evaluator state with
        | (.error fault, state) => (.error fault, state)
        | (.ok counts, state) => (cast.resolveRun context program.var counts, state)
  else (.fail (cast.unsupported .classicalOrigin), state)

/-- Cast an input; a quantum type is never cast to itself. -/
def apply (cast : Cast) (context : CastContext σ) (input : CastInput) (state : σ) :
    Outcome CastError CastOutput × σ :=
  if cast.origin.isQuantum ∧ cast.origin = cast.target then
    (.fail (cast.unsupported .sameQuantumType), state)
  else match input with
    | .literal literal =>
        ((Outcome.ofExcept (cast.castLiteral context literal)).map .literal, state)
    | .program program => cast.castProgram context program state

end Cast

end HybridQuantum
