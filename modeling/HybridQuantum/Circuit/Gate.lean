import HybridQuantum.Circuit.Error

/-!
# Gates and circuits

The gates of the simulator over parameters of any type, and circuits as lists of
operations on absolute qubits and classical bits.
-/

namespace HybridQuantum

namespace Circuit

/-- A gate with parameters of type `ρ`. -/
inductive Gate (ρ : Type) where
  | id
  | x
  | y
  | z
  | h
  | s
  | sdg
  | t
  | tdg
  | rx (theta : ρ)
  | ry (theta : ρ)
  | rz (theta : ρ)
  | u1 (lambda : ρ)
  | u2 (phi lambda : ρ)
  | u3 (theta phi lambda : ρ)
  | cx
  | cz
  | swap
  | ccx
deriving DecidableEq, Repr

namespace Gate

variable {ρ τ : Type}

def qubitCount : Gate ρ → Nat
  | cx => 2
  | cz => 2
  | swap => 2
  | ccx => 3
  | _ => 1

def name : Gate ρ → String
  | id => "id"
  | x => "x"
  | y => "y"
  | z => "z"
  | h => "h"
  | s => "s"
  | sdg => "sdg"
  | t => "t"
  | tdg => "tdg"
  | rx _ => "rx"
  | ry _ => "ry"
  | rz _ => "rz"
  | u1 _ => "u1"
  | u2 _ _ => "u2"
  | u3 _ _ _ => "u3"
  | cx => "cx"
  | cz => "cz"
  | swap => "swap"
  | ccx => "ccx"

def parameters : Gate ρ → List ρ
  | rx theta => [theta]
  | ry theta => [theta]
  | rz theta => [theta]
  | u1 lambda => [lambda]
  | u2 phi lambda => [phi, lambda]
  | u3 theta phi lambda => [theta, phi, lambda]
  | _ => []

/-- The same gate with other parameters. -/
def map (convert : ρ → τ) : Gate ρ → Gate τ
  | id => id
  | x => x
  | y => y
  | z => z
  | h => h
  | s => s
  | sdg => sdg
  | t => t
  | tdg => tdg
  | rx theta => rx (convert theta)
  | ry theta => ry (convert theta)
  | rz theta => rz (convert theta)
  | u1 lambda => u1 (convert lambda)
  | u2 phi lambda => u2 (convert phi) (convert lambda)
  | u3 theta phi lambda => u3 (convert theta) (convert phi) (convert lambda)
  | cx => cx
  | cz => cz
  | swap => swap
  | ccx => ccx

def plain : List (String × Gate ρ) :=
  [("id", id), ("x", x), ("y", y), ("z", z), ("h", h), ("s", s), ("sdg", sdg), ("t", t),
    ("tdg", tdg), ("cx", cx), ("CX", cx), ("cz", cz), ("swap", swap), ("ccx", ccx)]

def oneParameter : List (String × (ρ → Gate ρ)) :=
  [("rx", rx), ("ry", ry), ("rz", rz), ("u1", u1)]

def twoParameters : List (String × (ρ → ρ → Gate ρ)) :=
  [("u2", u2)]

def threeParameters : List (String × (ρ → ρ → ρ → Gate ρ)) :=
  [("u3", u3), ("u", u3), ("U", u3)]

def parameterCount? (name : String) : Option Nat :=
  if (plain : List (String × Gate Unit)).any (·.1 == name) then some 0
  else if (oneParameter : List (String × (Unit → Gate Unit))).any (·.1 == name) then some 1
  else if (twoParameters : List (String × (Unit → Unit → Gate Unit))).any (·.1 == name) then some 2
  else if (threeParameters : List (String × (Unit → Unit → Unit → Gate Unit))).any (·.1 == name) then some 3
  else none

/-- The gate with a name and parameters, which must be as many as it takes. -/
def ofName (name : String) (parameters : List ρ) : Except CircuitError (Gate ρ) :=
  let found := match parameters with
    | [] => plain.lookup name
    | [first] => (oneParameter.lookup name).map (· first)
    | [first, second] => (twoParameters.lookup name).map (· first second)
    | [first, second, third] => (threeParameters.lookup name).map (· first second third)
    | _ => none
  match found, parameterCount? name with
  | some gate, _ => .ok gate
  | none, some expected => .error (.wrongParameterCount name expected parameters.length)
  | none, none => .error (.unknownGate name)

end Gate

/-- One operation on absolute positions. -/
inductive Op (ρ : Type) where
  | gate (applied : Gate ρ) (qubits : List Nat)
  | reset (qubit : Nat)
  | barrier
  | measure (qubit clbit : Nat)
deriving DecidableEq, Repr

namespace Op

variable {ρ τ : Type}

def map (convert : ρ → τ) : Op ρ → Op τ
  | gate applied qubits => .gate (applied.map convert) qubits
  | reset qubit => .reset qubit
  | barrier => .barrier
  | measure qubit clbit => .measure qubit clbit

/-- The qubit and the classical bit of a measurement. -/
def measurement? : Op ρ → Option (Nat × Nat)
  | measure qubit clbit => some (qubit, clbit)
  | _ => none

def isGate : Op ρ → Bool
  | gate _ _ => true
  | _ => false

end Op

end Circuit

/-- A gate program with its registers laid end to end. -/
structure Circuit (ρ : Type) where
  qubits : Nat
  clbits : Nat
  ops : List (Circuit.Op ρ)
deriving DecidableEq, Repr

namespace Circuit

variable {ρ τ : Type}

def map (convert : ρ → τ) (circuit : Circuit ρ) : Circuit τ where
  qubits := circuit.qubits
  clbits := circuit.clbits
  ops := circuit.ops.map (Op.map convert)

/-- The measured qubits with the classical bits they are written to, in program order. -/
def measurements (circuit : Circuit ρ) : List (Nat × Nat) :=
  circuit.ops.filterMap Op.measurement?

def gateCount (circuit : Circuit ρ) : Nat :=
  circuit.ops.countP Op.isGate

end Circuit

end HybridQuantum
