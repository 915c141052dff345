import HybridQuantum.Circuit.Gate
import HybridQuantum.Fault
import HybridQuantum.FiniteMap

/-!
# Building circuits

Registers are laid end to end in declaration order, quantum and classical ones
apart.  An argument addresses a whole register or one position.  In a gate
statement whole registers of one size are applied position by position, and
single positions are repeated.
-/

namespace HybridQuantum.Circuit

/-- Where a register lies among all positions of its kind. -/
structure Register where
  offset : Nat
  size : Nat
deriving DecidableEq, Repr

/-- An argument of a statement: a register, or one position of it. -/
structure RegisterArg where
  register : String
  index : Option Nat
deriving DecidableEq, Repr

/-- The absolute positions an argument addresses. -/
structure Span where
  offset : Nat
  /-- The number of positions of a whole register; none for a single position. -/
  size : Option Nat
deriving DecidableEq, Repr

namespace Span

def count (span : Span) : Nat :=
  span.size.getD 1

/-- The position that takes part in a step; a single position takes part in all. -/
def position (span : Span) (step : Nat) : Nat :=
  match span.size with
  | some _ => span.offset + step
  | none => span.offset

end Span

/-- Registers under their names. -/
abbrev Registers := FiniteMap String Register

/-- The positions an argument addresses within registers. -/
def Registers.resolve (registers : Registers) (arg : RegisterArg) : Except CircuitError Span :=
  match registers.get? arg.register with
  | none => .error (.undefinedRegister arg.register)
  | some register =>
      match arg.index with
      | none => .ok ⟨register.offset, some register.size⟩
      | some index =>
          if index < register.size then .ok ⟨register.offset + index, none⟩
          else .error (.indexOutOfBounds arg.register index register.size)

inductive RegisterKind where
  | quantum
  | classical
deriving DecidableEq, Repr

/-- A circuit under construction with its registers. -/
structure Builder (ρ : Type) where
  quantum : Registers
  classical : Registers
  circuit : Circuit ρ

namespace Builder

variable {ρ : Type}

def empty : Builder ρ :=
  ⟨.empty, .empty, ⟨0, 0, []⟩⟩

def append (builder : Builder ρ) (ops : List (Op ρ)) : Builder ρ :=
  { builder with circuit := { builder.circuit with ops := builder.circuit.ops ++ ops } }

/-- Declare a register after the others of its kind; names are distinct across both kinds. -/
def declare (builder : Builder ρ) (kind : RegisterKind) (name : String) (size : Nat) :
    Outcome CircuitError (Builder ρ) :=
  if builder.quantum.contains name || builder.classical.contains name then
    .fail (.duplicateRegister name)
  else match kind with
    | .quantum =>
        let offset := builder.circuit.qubits
        if offset + size < UInt64.size then
          .ok
            { builder with
              quantum := builder.quantum.insert name ⟨offset, size⟩
              circuit := { builder.circuit with qubits := offset + size } }
        else .error .overflow
    | .classical =>
        let offset := builder.circuit.clbits
        if offset + size < UInt64.size then
          .ok
            { builder with
              classical := builder.classical.insert name ⟨offset, size⟩
              circuit := { builder.circuit with clbits := offset + size } }
        else .error .overflow

/-- Measure qubits into equally many classical bits. -/
def measure (builder : Builder ρ) (qubit clbit : RegisterArg) :
    Except CircuitError (Builder ρ) := do
  let qubits ← builder.quantum.resolve qubit
  let clbits ← builder.classical.resolve clbit
  if qubits.count = clbits.count then
    return builder.append ((List.range qubits.count).map fun step =>
      .measure (qubits.position step) (clbits.position step))
  else .error (.sizeMismatch "measure")

def reset (builder : Builder ρ) (arg : RegisterArg) : Except CircuitError (Builder ρ) := do
  let qubits ← builder.quantum.resolve arg
  return builder.append ((List.range qubits.count).map fun step => .reset (qubits.position step))

/-- Every argument of a barrier must address qubits. -/
def checkBarrier (builder : Builder ρ) (args : List RegisterArg) : Except CircuitError Unit :=
  args.forM fun arg => do
    let _ ← builder.quantum.resolve arg

/-- The common size of the whole registers among spans; one when there are none. -/
def commonWidth (gateName : String) (width : Option Nat) :
    List Span → Except CircuitError Nat
  | [] => .ok (width.getD 1)
  | span :: rest =>
      match span.size, width with
      | none, width => commonWidth gateName width rest
      | some size, none => commonWidth gateName (some size) rest
      | some size, some width =>
          if size = width then commonWidth gateName (some width) rest
          else .error (.sizeMismatch gateName)

/-- One application of a gate; its qubits are distinct. -/
def applyAt (gateName : String) (gate : Gate ρ) (spans : List Span) (step : Nat) :
    Except CircuitError (Op ρ) :=
  let qubits := spans.map (·.position step)
  if qubits.Nodup then .ok (.gate gate qubits) else .error (.repeatedQubit gateName)

/-- Apply a gate to arguments, position by position. -/
def applyGate (builder : Builder ρ) (gateName : String) (gate : Gate ρ)
    (args : List RegisterArg) : Except CircuitError (Builder ρ) := do
  if args.length = gate.qubitCount then .ok ()
  else .error (.wrongQubitCount gateName gate.qubitCount args.length)
  let spans ← args.mapM builder.quantum.resolve
  let width ← commonWidth gateName none spans
  let ops ← (List.range width).mapM (applyAt gateName gate spans)
  return builder.append ops

end Builder

end HybridQuantum.Circuit
