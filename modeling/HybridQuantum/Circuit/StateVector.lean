import HybridQuantum.Circuit.Amplitude
import HybridQuantum.Circuit.Expr
import HybridQuantum.Circuit.Gate

/-!
# State vectors

The amplitudes of all basis states; qubit `k` is bit `k` of the index.  Gates run
over the vector in place, in ascending order of indices.  The loops work on
entries of any type: one changes pairs of entries, the other single entries.
-/

namespace HybridQuantum.Circuit

section Loops

variable {α : Type}

/-- A basis state with one bit flipped. -/
def flipBit (qubit index : Nat) : Nat :=
  index ^^^ (1 <<< qubit)

/--
Go through `remaining` indices from `index` on.  At each selected one, replace its
entry and the entry at its partner by what `change` makes of the two.
-/
@[specialize]
def pairLoop (selects : Nat → Bool) (partner : Nat → Nat) (change : α → α → α × α) :
    (remaining index : Nat) → Array α → Array α
  | 0, _, vector => vector
  | remaining + 1, index, vector =>
      if selects index then
        let other := partner index
        if bounds : index < vector.size ∧ other < vector.size then
          let changed := change vector[index] vector[other]
          let vector := (vector.setIfInBounds index changed.1).setIfInBounds other changed.2
          pairLoop selects partner change remaining (index + 1) vector
        else pairLoop selects partner change remaining (index + 1) vector
      else pairLoop selects partner change remaining (index + 1) vector

/-- Change every selected entry together with its partner. -/
@[inline]
def changePairs (selects : Nat → Bool) (partner : Nat → Nat) (change : α → α → α × α)
    (vector : Array α) : Array α :=
  pairLoop selects partner change vector.size 0 vector

/-- Change the pairs of entries that differ in one bit, the clear one first. -/
@[inline]
def changeQubit (qubit : Nat) (change : α → α → α × α) (vector : Array α) : Array α :=
  changePairs (fun index => !index.testBit qubit) (flipBit qubit) change vector

/-- Change each entry on its own. -/
@[inline]
def changeEach (change : Nat → α → α) (vector : Array α) : Array α :=
  vector.mapIdx change

def exchange (first second : α) : α × α :=
  (second, first)

def applyX (qubit : Nat) (vector : Array α) : Array α :=
  changeQubit qubit exchange vector

/-- Flip the target where the control is set. -/
def applyCX (control target : Nat) (vector : Array α) : Array α :=
  changePairs (fun index => index.testBit control && !index.testBit target) (flipBit target)
    exchange vector

/-- Flip the target where both controls are set. -/
def applyCCX (first second target : Nat) (vector : Array α) : Array α :=
  changePairs
    (fun index => index.testBit first && index.testBit second && !index.testBit target)
    (flipBit target) exchange vector

/-- Exchange two qubits. -/
def applySwap (first second : Nat) (vector : Array α) : Array α :=
  changePairs (fun index => index.testBit first && !index.testBit second)
    (fun index => flipBit second (flipBit first index)) exchange vector

/-- Negate the entries with both bits set. -/
def applyCZ [Neg α] (control target : Nat) (vector : Array α) : Array α :=
  changeEach (fun index entry =>
    if index.testBit control && index.testBit target then -entry else entry) vector

end Loops

/-- A state vector over a number of qubits. -/
structure StateVector where
  amplitudes : Array Amplitude

namespace StateVector

/-- All qubits clear. -/
def init (qubits : Nat) : StateVector :=
  ⟨(Array.replicate (1 <<< qubits) .zero).setIfInBounds 0 .one⟩

open Amplitude

/-- The two by two map of the `y` gate. -/
def pairY (clear set : Amplitude) : Amplitude × Amplitude :=
  (-unit * set, unit * clear)

/-- The two by two map of the `h` gate. -/
def pairH (clear set : Amplitude) : Amplitude × Amplitude :=
  let factor : Float := 1 / (2 : Float).sqrt
  (scale factor (clear + set), scale factor (clear - set))

/-- The two by two map of a rotation about the first axis, from the half angle's cosine and sine. -/
def pairRX (cosine sine : Float) (clear set : Amplitude) : Amplitude × Amplitude :=
  let turn : Amplitude := ⟨0, -sine⟩
  (scale cosine clear + turn * set, turn * clear + scale cosine set)

def pairRY (cosine sine : Float) (clear set : Amplitude) : Amplitude × Amplitude :=
  (scale cosine clear - scale sine set, scale sine clear + scale cosine set)

/-- The two by two map of the general gate, from its cosine, its sine and its three phases. -/
def pairU (cosine sine : Float) (phaseLambda phasePhi phaseSum : Amplitude)
    (clear set : Amplitude) : Amplitude × Amplitude :=
  (scale cosine clear - scale sine phaseLambda * set,
    scale sine phasePhi * clear + scale cosine phaseSum * set)

/-- Negate the entries with a bit set. -/
def applyZ (qubit : Nat) (vector : Array Amplitude) : Array Amplitude :=
  changeEach (fun index entry => if index.testBit qubit then -entry else entry) vector

/-- Turn the entries with a bit set by an angle. -/
def applyPhase (qubit : Nat) (angle : Float) (vector : Array Amplitude) : Array Amplitude :=
  let turn := phase angle
  changeEach (fun index entry => if index.testBit qubit then entry * turn else entry) vector

def applyRX (qubit : Nat) (theta : Float) (vector : Array Amplitude) : Array Amplitude :=
  let cosine := (theta / 2).cos
  let sine := (theta / 2).sin
  changeQubit qubit (pairRX cosine sine) vector

def applyRY (qubit : Nat) (theta : Float) (vector : Array Amplitude) : Array Amplitude :=
  let cosine := (theta / 2).cos
  let sine := (theta / 2).sin
  changeQubit qubit (pairRY cosine sine) vector

/-- Turn the entries with a bit clear back and those with it set forward by half an angle. -/
def applyRZ (qubit : Nat) (theta : Float) (vector : Array Amplitude) : Array Amplitude :=
  let back := phase (-theta / 2)
  let forward := phase (theta / 2)
  changeEach (fun index entry => if index.testBit qubit then entry * forward else entry * back)
    vector

def applyU (qubit : Nat) (theta phi lambda : Float) (vector : Array Amplitude) :
    Array Amplitude :=
  let cosine := (theta / 2).cos
  let sine := (theta / 2).sin
  let phaseLambda := phase lambda
  let phasePhi := phase phi
  let phaseSum := phase (phi + lambda)
  changeQubit qubit (pairU cosine sine phaseLambda phasePhi phaseSum) vector

/-- Merge the branch with the qubit set into the clear one, keeping the weight and no phase. -/
def mergeBranches (set clear : Amplitude) : Amplitude × Amplitude :=
  let moved := set.length
  let kept := clear.length
  (zero, ⟨(moved * moved + kept * kept).sqrt, 0⟩)

/-- Clear a qubit. -/
def applyReset (qubit : Nat) (vector : Array Amplitude) : Array Amplitude :=
  changePairs (·.testBit qubit) (flipBit qubit) mergeBranches vector

/-- Apply a gate to its qubits; a gate without its number of qubits changes nothing. -/
def applyGate (vector : Array Amplitude) : Gate Float → List Nat → Array Amplitude
  | .x, [qubit] => applyX qubit vector
  | .y, [qubit] => changeQubit qubit pairY vector
  | .z, [qubit] => applyZ qubit vector
  | .h, [qubit] => changeQubit qubit pairH vector
  | .s, [qubit] => applyPhase qubit (Expr.piValue / 2) vector
  | .sdg, [qubit] => applyPhase qubit (-Expr.piValue / 2) vector
  | .t, [qubit] => applyPhase qubit (Expr.piValue / 4) vector
  | .tdg, [qubit] => applyPhase qubit (-Expr.piValue / 4) vector
  | .rx theta, [qubit] => applyRX qubit theta vector
  | .ry theta, [qubit] => applyRY qubit theta vector
  | .rz theta, [qubit] => applyRZ qubit theta vector
  | .u1 lambda, [qubit] => applyPhase qubit lambda vector
  | .u2 phi lambda, [qubit] => applyU qubit (Expr.piValue / 2) phi lambda vector
  | .u3 theta phi lambda, [qubit] => applyU qubit theta phi lambda vector
  | .cx, [control, target] => applyCX control target vector
  | .cz, [control, target] => applyCZ control target vector
  | .swap, [first, second] => applySwap first second vector
  | .ccx, [first, second, target] => applyCCX first second target vector
  | _, _ => vector

/-- Apply one operation; measurements and barriers leave the state alone. -/
def apply (state : StateVector) : Op Float → StateVector
  | .gate gate qubits => ⟨applyGate state.amplitudes gate qubits⟩
  | .reset qubit => ⟨applyReset qubit state.amplitudes⟩
  | .barrier => state
  | .measure _ _ => state

def run (circuit : Circuit Float) : StateVector :=
  circuit.ops.foldl apply (init circuit.qubits)

end StateVector

/-- Running sums of weights, for drawing basis states. -/
structure Sampler where
  sums : Array Float
  /-- The state to take when a draw exceeds all sums. -/
  last : Nat

namespace Sampler

/-- The running sums of weights from the first one on. -/
def runningSums (weights : Array Float) : Array Float :=
  (weights.foldl (fun (sums, sum) weight =>
    let sum := sum + weight
    (sums.push sum, sum)) (Array.emptyWithCapacity weights.size, (0 : Float))).1

/-- The last index with a positive weight, or zero. -/
def lastPositive (weights : Array Float) : Nat :=
  (weights.foldl (fun (index, last) weight =>
    (index + 1, if 0 < weight then index else last)) (0, 0)).2

def ofState (state : StateVector) : Sampler :=
  let weights := state.amplitudes.map Amplitude.weight
  ⟨runningSums weights, lastPositive weights⟩

/-- The first basis state whose running sum exceeds the draw. -/
def sample (sampler : Sampler) (draw : Float) : Nat :=
  (sampler.sums.findIdx? fun sum => draw < sum).getD sampler.last

end Sampler

end HybridQuantum.Circuit
