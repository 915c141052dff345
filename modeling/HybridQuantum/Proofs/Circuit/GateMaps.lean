import HybridQuantum.Proofs.Circuit.Loops
import Mathlib.Data.List.Basic

/-!
# The maps of the gates

Gates run over a vector in place, so an entry may be read after it has been written.
Here the new entries are given as a function of the old ones: a one-qubit gate maps
each pair of entries by a two by two formula, and the other gates move or negate
entries by the bits of their index.  The formulas are stated over angles and
amplitudes of any type, with no law assumed of their operations.
-/

namespace HybridQuantum.Circuit

/-- Angles and the factors made from them. -/
class Angles (ρ : Type) extends Add ρ, Neg ρ, Div ρ where
  natural : Nat → ρ
  pi : ρ
  sqrt : ρ → ρ
  cos : ρ → ρ
  sin : ρ → ρ

/-- Amplitudes over a type of angles. -/
class Amplitudes (ρ : outParam Type) (α : Type) extends Add α, Sub α, Neg α, Mul α where
  scale : ρ → α → α
  unit : α
  imaginary : ρ → α
  phase : ρ → α

instance : Angles Float where
  natural := Float.ofNat
  pi := Expr.piValue
  sqrt := Float.sqrt
  cos := Float.cos
  sin := Float.sin

instance : Amplitudes Float Amplitude where
  scale := Amplitude.scale
  unit := Amplitude.unit
  imaginary part := ⟨0, part⟩
  phase := Amplitude.phase

section Formulas

open Angles Amplitudes

variable {ρ α : Type} [Angles ρ] [Amplitudes ρ α]

def turned (angle : ρ) (clear set : α) : α × α :=
  (clear, set * phase angle)

/-- The general one-qubit formula. -/
def rotated (theta phi lambda : ρ) (clear set : α) : α × α :=
  let cosine := cos (theta / natural 2)
  let sine := sin (theta / natural 2)
  (scale cosine clear - scale sine (phase lambda) * set,
    scale sine (phase phi) * clear + scale cosine (phase (phi + lambda)) * set)

/-- The formula of a one-qubit gate; on the others it is of no use. -/
def Gate.formula : Gate ρ → α → α → α × α
  | .x, clear, set => (set, clear)
  | .y, clear, set => (-unit * set, unit * clear)
  | .z, clear, set => (clear, -set)
  | .h, clear, set =>
      let factor := natural 1 / sqrt (natural 2)
      (scale factor (clear + set), scale factor (clear - set))
  | .s, clear, set => turned (pi / natural 2) clear set
  | .sdg, clear, set => turned (-pi / natural 2) clear set
  | .t, clear, set => turned (pi / natural 4) clear set
  | .tdg, clear, set => turned (-pi / natural 4) clear set
  | .rx theta, clear, set =>
      let cosine := cos (theta / natural 2)
      let turn := imaginary (-sin (theta / natural 2))
      (scale cosine clear + turn * set, turn * clear + scale cosine set)
  | .ry theta, clear, set =>
      let cosine := cos (theta / natural 2)
      let sine := sin (theta / natural 2)
      (scale cosine clear - scale sine set, scale sine clear + scale cosine set)
  | .rz theta, clear, set =>
      (clear * phase (-theta / natural 2), set * phase (theta / natural 2))
  | .u1 lambda, clear, set => turned lambda clear set
  | .u2 phi lambda, clear, set => rotated (pi / natural 2) phi lambda clear set
  | .u3 theta phi lambda, clear, set => rotated theta phi lambda clear set
  | _, clear, set => (clear, set)

/-- Change every entry by whether one of its bits is set. -/
def changeByBit (qubit : Nat) (clear set : α → α) (vector : Array α) : Array α :=
  changeEach (fun index entry => if index.testBit qubit then set entry else clear entry) vector

/-- The gates over any angles and amplitudes. -/
def applyGateOver (vector : Array α) (gate : Gate ρ) (places : List Nat) : Array α :=
  match gate, places with
  | .x, [qubit] => applyX qubit vector
  | .y, [qubit] => changeQubit qubit gate.formula vector
  | .z, [qubit] => changeByBit qubit id (-·) vector
  | .h, [qubit] => changeQubit qubit gate.formula vector
  | .s, [qubit] => changeByBit qubit id (· * phase (pi / natural 2)) vector
  | .sdg, [qubit] => changeByBit qubit id (· * phase (-pi / natural 2)) vector
  | .t, [qubit] => changeByBit qubit id (· * phase (pi / natural 4)) vector
  | .tdg, [qubit] => changeByBit qubit id (· * phase (-pi / natural 4)) vector
  | .rx _, [qubit] => changeQubit qubit gate.formula vector
  | .ry _, [qubit] => changeQubit qubit gate.formula vector
  | .rz theta, [qubit] =>
      changeByBit qubit (· * phase (-theta / natural 2)) (· * phase (theta / natural 2)) vector
  | .u1 lambda, [qubit] => changeByBit qubit id (· * phase lambda) vector
  | .u2 _ _, [qubit] => changeQubit qubit gate.formula vector
  | .u3 _ _ _, [qubit] => changeQubit qubit gate.formula vector
  | .cx, [control, target] => applyCX control target vector
  | .cz, [control, target] => applyCZ control target vector
  | .swap, [first, second] => applySwap first second vector
  | .ccx, [first, second, target] => applyCCX first second target vector
  | _, _ => vector

end Formulas

/-- Over floating-point amplitudes these are the gates of the simulator. -/
theorem applyGate_eq_applyGateOver (vector : Array Amplitude) (gate : Gate Float)
    (places : List Nat) :
    StateVector.applyGate vector gate places = applyGateOver vector gate places := by
  cases gate <;> rcases places with _ | ⟨first, _ | ⟨second, _ | ⟨third, _ | _⟩⟩⟩ <;> rfl

section Entries

variable {α : Type} {qubits qubit : Nat} {vector : Array α} {entry : Nat → α}

/-- What a two by two formula makes of the entry at an index and the one across its bit. -/
def pairedEntry (qubit : Nat) (change : α → α → α × α) (entry : Nat → α) (index : Nat) : α :=
  if index.testBit qubit then (change (entry (flipBit qubit index)) (entry index)).2
  else (change (entry index) (entry (flipBit qubit index))).1

/-- The loop over the pairs across a bit reads old entries only. -/
theorem shows_changeQubit (inside : qubit < qubits) (change : α → α → α × α)
    (shown : Shows vector (2 ^ qubits) entry) :
    Shows (changeQubit qubit change vector) (2 ^ qubits) (pairedEntry qubit change entry) := by
  have pairing : Pairing (2 ^ qubits) (fun index => !index.testBit qubit) (flipBit qubit) :=
    pairing_flipBit inside fun _ selected => by rwa [Bool.not_eq_true'] at selected
  refine (pairing.shows_changePairs change shown).congr fun index below => ?_
  have partnerBelow := flipBit_lt inside below
  cases tested : index.testBit qubit with
  | false => simp [entryAfter, pairedEntry, tested, below]
  | true => simp [entryAfter, pairedEntry, tested, testBit_flipBit, partnerBelow]

theorem shows_changeEach {size : Nat} (change : Nat → α → α) (shown : Shows vector size entry) :
    Shows (changeEach change vector) size (fun index => change index (entry index)) := by
  refine ⟨by rw [changeEach, Array.size_mapIdx, shown.size_eq], fun index below => ?_⟩
  rw [changeEach, Array.getElem?_mapIdx, shown.get index below, Option.map_some]

theorem shows_changeByBit {change : α → α → α × α} {clear set : α → α}
    (apart : ∀ first second, change first second = (clear first, set second))
    (shown : Shows vector (2 ^ qubits) entry) :
    Shows (changeByBit qubit clear set vector) (2 ^ qubits) (pairedEntry qubit change entry) := by
  refine (shows_changeEach _ shown).congr fun index _ => ?_
  cases tested : index.testBit qubit <;> simp [pairedEntry, tested, apart]

theorem Shows.get_pair {change : α → α → α × α} {changed : Array α}
    (shown : Shows vector (2 ^ qubits) entry)
    (mapped : Shows changed (2 ^ qubits) (pairedEntry qubit change entry))
    (inside : qubit < qubits) {index : Nat} (below : index < 2 ^ qubits)
    (clearBit : index.testBit qubit = false) :
    ∃ clear set, vector[index]? = some clear ∧ vector[index + 2 ^ qubit]? = some set ∧
      changed[index]? = some (change clear set).1 ∧
      changed[index + 2 ^ qubit]? = some (change clear set).2 := by
  have partnerBelow := flipBit_lt inside below
  have setBit : (flipBit qubit index).testBit qubit = true := by
    simp [testBit_flipBit, clearBit]
  rw [← flipBit_of_clear clearBit]
  refine ⟨entry index, entry (flipBit qubit index), shown.get _ below, shown.get _ partnerBelow,
    ?_, ?_⟩
  · rw [mapped.get _ below, pairedEntry, clearBit, if_neg Bool.false_ne_true]
  · rw [mapped.get _ partnerBelow, pairedEntry, setBit, if_pos rfl, flipBit_flipBit]

end Entries

section Permutations

variable {α : Type} {qubits : Nat} {vector : Array α} {entry : Nat → α}

/-- A basis state with one bit flipped where all the controls are set. -/
def flipUnder (controls : List Nat) (target index : Nat) : Nat :=
  if controls.all index.testBit then flipBit target index else index

theorem all_testBit_flipBit {controls : List Nat} {target : Nat} (apart : target ∉ controls)
    (index : Nat) :
    controls.all (flipBit target index).testBit = controls.all index.testBit := by
  have same : ∀ control ∈ controls,
      (flipBit target index).testBit control = index.testBit control := by
    rintro control listed
    have other : target ≠ control := by
      rintro rfl
      exact apart listed
    simp [testBit_flipBit, other]
  rw [Bool.eq_iff_iff, List.all_eq_true, List.all_eq_true]
  exact forall₂_congr fun control listed => by rw [same control listed]

theorem flipUnder_flipUnder {controls : List Nat} {target : Nat} (apart : target ∉ controls)
    (index : Nat) : flipUnder controls target (flipUnder controls target index) = index := by
  cases controlled : controls.all index.testBit
  · simp [flipUnder, controlled]
  · simp [flipUnder, controlled, all_testBit_flipBit apart, flipBit_flipBit]

/-- Exchanging across the target bit, where it is clear and the controls are set, flips it. -/
theorem shows_flipUnder {controls : List Nat} {target : Nat} (inside : target < qubits)
    (apart : target ∉ controls) {selects : Nat → Bool}
    (chosen : ∀ index, selects index = (controls.all index.testBit && !index.testBit target))
    (shown : Shows vector (2 ^ qubits) entry) :
    Shows (changePairs selects (flipBit target) exchange vector) (2 ^ qubits)
      (fun index => entry (flipUnder controls target index)) := by
  have pairing : Pairing (2 ^ qubits) selects (flipBit target) :=
    pairing_flipBit inside fun index selected => by
      rw [chosen, Bool.and_eq_true, Bool.not_eq_true'] at selected
      exact selected.2
  refine (pairing.shows_exchange shown).congr fun index _ => ?_
  cases controlled : controls.all index.testBit <;> cases targeted : index.testBit target <;>
    simp [exchanged, flipUnder, chosen, all_testBit_flipBit apart, testBit_flipBit, controlled,
      targeted]

/-- A basis state with two bits exchanged. -/
def swapBits (first second index : Nat) : Nat :=
  if index.testBit first = index.testBit second then index
  else flipBit second (flipBit first index)

theorem testBit_swapBits (first second index bit : Nat) :
    (swapBits first second index).testBit bit = index.testBit (Equiv.swap first second bit) := by
  rw [swapBits, Equiv.swap_apply_def]
  split
  · grind
  · grind [testBit_flipBit]

theorem swapBits_swapBits (first second index : Nat) :
    swapBits first second (swapBits first second index) = index :=
  Nat.eq_of_testBit_eq fun bit => by
    rw [testBit_swapBits, testBit_swapBits, Equiv.swap_apply_self]

theorem shows_applySwap {first second : Nat} (insideFirst : first < qubits)
    (insideSecond : second < qubits) (apart : first ≠ second)
    (shown : Shows vector (2 ^ qubits) entry) :
    Shows (applySwap first second vector) (2 ^ qubits)
      (fun index => entry (swapBits first second index)) := by
  have pairing : Pairing (2 ^ qubits) (fun index => index.testBit first && !index.testBit second)
      (fun index => flipBit second (flipBit first index)) :=
    { involutive := fun index => Nat.eq_of_testBit_eq fun bit => by
        simp only [testBit_flipBit]
        grind
      inside := fun index below => flipBit_lt insideSecond (flipBit_lt insideFirst below)
      alone := fun index selected => by
        simp only [Bool.and_eq_true] at selected
        simp [testBit_flipBit, selected.1, Ne.symm apart] }
  refine (pairing.shows_exchange shown).congr fun index _ => ?_
  cases firstBit : index.testBit first <;> cases secondBit : index.testBit second <;>
    simp [exchanged, swapBits, testBit_flipBit, firstBit, secondBit, apart, Ne.symm apart]

/-- A loop that moves entries by an involution undoes itself. -/
theorem apply_apply_of_shows {size : Nat} {apply : Array α → Array α} {move : Nat → Nat}
    (moves : ∀ {vector : Array α} {entry : Nat → α}, Shows vector size entry →
      Shows (apply vector) size (fun index => entry (move index)))
    (involutive : ∀ index, move (move index) = index) (shown : Shows vector size entry) :
    apply (apply vector) = vector :=
  ((moves (moves shown)).congr fun index _ => by rw [involutive]).unique shown

end Permutations

section Gates

variable {ρ α : Type} [Angles ρ] [Amplitudes ρ α] {qubits : Nat} {vector : Array α}
  {entry : Nat → α}

theorem size_applyGateOver (vector : Array α) (gate : Gate ρ) (places : List Nat) :
    (applyGateOver vector gate places).size = vector.size := by
  unfold applyGateOver
  split
  all_goals first
    | exact size_changePairs ..
    | exact size_changeEach ..
    | rfl

/-- Every one-qubit gate maps the pairs across its qubit by its formula. -/
theorem shows_applyGateOver {gate : Gate ρ} (single : gate.qubitCount = 1) {qubit : Nat}
    (inside : qubit < qubits) (shown : Shows vector (2 ^ qubits) entry) :
    Shows (applyGateOver vector gate [qubit]) (2 ^ qubits)
      (pairedEntry qubit gate.formula entry) := by
  cases gate with
  | id => exact shown.congr fun index _ => by simp [pairedEntry, Gate.formula]
  | x => exact shows_changeQubit inside exchange shown
  | y => exact shows_changeQubit inside _ shown
  | z => exact shows_changeByBit (fun _ _ => rfl) shown
  | h => exact shows_changeQubit inside _ shown
  | s => exact shows_changeByBit (fun _ _ => rfl) shown
  | sdg => exact shows_changeByBit (fun _ _ => rfl) shown
  | t => exact shows_changeByBit (fun _ _ => rfl) shown
  | tdg => exact shows_changeByBit (fun _ _ => rfl) shown
  | rx theta => exact shows_changeQubit inside _ shown
  | ry theta => exact shows_changeQubit inside _ shown
  | rz theta => exact shows_changeByBit (fun _ _ => rfl) shown
  | u1 lambda => exact shows_changeByBit (fun _ _ => rfl) shown
  | u2 phi lambda => exact shows_changeQubit inside _ shown
  | u3 theta phi lambda => exact shows_changeQubit inside _ shown
  | cx => cases single
  | cz => cases single
  | swap => cases single
  | ccx => cases single

theorem shows_applyGateOver_x {qubit : Nat} (inside : qubit < qubits)
    (shown : Shows vector (2 ^ qubits) entry) :
    Shows (applyGateOver vector .x [qubit]) (2 ^ qubits)
      (fun index => entry (flipUnder [] qubit index)) :=
  shows_flipUnder inside (by simp) (by simp) shown

theorem shows_applyGateOver_cx {control target : Nat} (inside : target < qubits)
    (apart : control ≠ target) (shown : Shows vector (2 ^ qubits) entry) :
    Shows (applyGateOver vector .cx [control, target]) (2 ^ qubits)
      (fun index => entry (flipUnder [control] target index)) :=
  shows_flipUnder inside (by simpa using Ne.symm apart) (by simp) shown

theorem shows_applyGateOver_ccx {first second target : Nat} (inside : target < qubits)
    (apart : target ∉ [first, second]) (shown : Shows vector (2 ^ qubits) entry) :
    Shows (applyGateOver vector .ccx [first, second, target]) (2 ^ qubits)
      (fun index => entry (flipUnder [first, second] target index)) :=
  shows_flipUnder inside apart (by simp) shown

theorem applyGateOver_twice {gate : Gate ρ}
    (moves : gate ∈ ([.x, .cx, .ccx, .swap] : List (Gate ρ))) {places : List Nat}
    (counted : places.length = gate.qubitCount) (distinct : places.Nodup)
    (inside : ∀ place ∈ places, place < qubits) (shown : Shows vector (2 ^ qubits) entry) :
    applyGateOver (applyGateOver vector gate places) gate places = vector := by
  simp only [List.mem_cons, List.not_mem_nil, or_false] at moves
  rcases moves with rfl | rfl | rfl | rfl
  · obtain ⟨qubit, rfl⟩ := List.length_eq_one_iff.1 counted
    exact apply_apply_of_shows (shows_applyGateOver_x (inside _ (by simp)))
      (flipUnder_flipUnder (by simp)) shown
  · obtain ⟨control, target, rfl⟩ := List.length_eq_two.1 counted
    have apart : control ≠ target := by simpa using distinct
    exact apply_apply_of_shows (shows_applyGateOver_cx (inside _ (by simp)) apart)
      (flipUnder_flipUnder (by simpa using Ne.symm apart)) shown
  · obtain ⟨first, second, target, rfl⟩ := List.length_eq_three.1 counted
    have apart : target ∉ [first, second] := by grind
    exact apply_apply_of_shows (shows_applyGateOver_ccx (inside _ (by simp)) apart)
      (flipUnder_flipUnder apart) shown
  · obtain ⟨first, second, rfl⟩ := List.length_eq_two.1 counted
    have apart : first ≠ second := by simpa using distinct
    exact apply_apply_of_shows
      (shows_applySwap (inside _ (by simp)) (inside _ (by simp)) apart)
      (swapBits_swapBits first second) shown

/--
The gates of the simulator are these gates over floating-point amplitudes.  Over any
amplitudes a gate keeps the size of the vector, and every new entry is a function of
the old ones: a one-qubit gate maps the two entries across its qubit by its formula;
the controlled not gates and the exchange of two qubits read the entry at the index
with its bits flipped or exchanged; the controlled sign gate negates the entries with
both bits set; and the gates that only move entries undo themselves.
-/
theorem applyGateOver_maps_old_entries (sized : vector.size = 2 ^ qubits) :
    (∀ (state : Array Amplitude) (gate : Gate Float) (places : List Nat),
      StateVector.applyGate state gate places = applyGateOver state gate places) ∧
    (∀ (gate : Gate ρ) (places : List Nat), (applyGateOver vector gate places).size = 2 ^ qubits) ∧
    (∀ gate : Gate ρ, gate.qubitCount = 1 → ∀ qubit < qubits, ∀ index : Nat,
      index < 2 ^ qubits → index.testBit qubit = false →
      ∃ clear set : α, vector[index]? = some clear ∧ vector[index + 2 ^ qubit]? = some set ∧
        (applyGateOver vector gate [qubit])[index]? = some (gate.formula clear set).1 ∧
        (applyGateOver vector gate [qubit])[index + 2 ^ qubit]? =
          some (gate.formula clear set).2) ∧
    (∀ control < qubits, ∀ target < qubits, control ≠ target → ∀ index : Nat,
      index < 2 ^ qubits →
      (applyGateOver vector .cx [control, target])[index]? =
        vector[if index.testBit control then flipBit target index else index]? ∧
      (applyGateOver vector .cz [control, target])[index]? =
        if index.testBit control && index.testBit target then vector[index]?.map (-·)
        else vector[index]?) ∧
    (∀ first < qubits, ∀ second < qubits, ∀ target < qubits, [first, second, target].Nodup →
      ∀ index : Nat, index < 2 ^ qubits →
      (applyGateOver vector .ccx [first, second, target])[index]? =
        vector[if index.testBit first && index.testBit second then flipBit target index
          else index]?) ∧
    (∀ first < qubits, ∀ second < qubits, first ≠ second → ∀ index : Nat,
      index < 2 ^ qubits →
      ∃ exchanged : Nat,
        (∀ bit, exchanged.testBit bit = index.testBit (Equiv.swap first second bit)) ∧
        (applyGateOver vector .swap [first, second])[index]? = vector[exchanged]?) ∧
    (∀ gate : Gate ρ, gate ∈ ([.x, .cx, .ccx, .swap] : List (Gate ρ)) → ∀ places : List Nat,
      places.length = gate.qubitCount → places.Nodup → (∀ place ∈ places, place < qubits) →
      applyGateOver (applyGateOver vector gate places) gate places = vector) := by
  obtain ⟨entry, shown⟩ := Shows.exists_of_size_pos (sized ▸ Nat.two_pow_pos qubits)
  rw [sized] at shown
  have read {changed : Array α} {move : Nat → Nat} {index : Nat} (below : index < 2 ^ qubits)
      (moved : Shows changed (2 ^ qubits) (fun index => entry (move index)))
      (stays : move index < 2 ^ qubits) : changed[index]? = vector[move index]? := by
    rw [moved.get index below, shown.get _ stays]
  have flipped {controls : List Nat} {target index : Nat} (insideTarget : target < qubits)
      (below : index < 2 ^ qubits) : flipUnder controls target index < 2 ^ qubits := by
    rw [flipUnder]
    split
    · exact flipBit_lt insideTarget below
    · exact below
  refine ⟨applyGate_eq_applyGateOver, ?_, ?_, ?_, ?_, ?_, ?_⟩
  · intro gate places
    rw [size_applyGateOver, sized]
  · intro gate single qubit inside index below clearBit
    exact shown.get_pair (shows_applyGateOver single inside shown) inside below clearBit
  · intro control _ target insideTarget apart index below
    constructor
    · have moved := read below (shows_applyGateOver_cx insideTarget apart shown)
        (flipped insideTarget below)
      simpa [flipUnder] using moved
    · have negated := shows_changeEach (fun index entry =>
        if index.testBit control && index.testBit target then -entry else entry) shown
      refine (negated.get index below).trans ?_
      rw [shown.get index below]
      split <;> rfl
  · intro first _ second _ target insideTarget distinct index below
    have apart : target ∉ [first, second] := by grind
    have moved := read below (shows_applyGateOver_ccx insideTarget apart shown)
      (flipped insideTarget below)
    simpa [flipUnder] using moved
  · intro first insideFirst second insideSecond apart index below
    refine ⟨swapBits first second index, testBit_swapBits first second index,
      read below (shows_applySwap insideFirst insideSecond apart shown) ?_⟩
    rw [swapBits]
    split
    · exact below
    · exact flipBit_lt insideSecond (flipBit_lt insideFirst below)
  · intro gate moves places counted distinct inside
    exact applyGateOver_twice moves counted distinct inside shown

/-- Two qubits, the first of them set. -/
theorem applyGateOver_maps_old_entries_sample :
    let vector : Array Amplitude := #[.zero, .one, .zero, .zero]
    (∃ clear set : Amplitude, vector[2]? = some clear ∧ vector[3]? = some set ∧
      (applyGateOver vector .y [0])[2]? = some (Gate.formula .y clear set).1 ∧
      (applyGateOver vector .y [0])[3]? = some (Gate.formula .y clear set).2) ∧
    (applyGateOver vector .cx [0, 1])[3]? = some Amplitude.one ∧
    (applyGateOver vector .cz [0, 1])[1]? = some Amplitude.one ∧
    applyGateOver (applyGateOver vector .swap [0, 1]) .swap [0, 1] = vector := by
  intro vector
  obtain ⟨-, -, pairs, controlled, -, -, twice⟩ :=
    @applyGateOver_maps_old_entries Float Amplitude _ _ 2 vector rfl
  have below {bit : Nat} (listed : bit ∈ [0, 1]) : bit < 2 := by
    simp only [List.mem_cons, List.not_mem_nil, or_false] at listed
    omega
  refine ⟨pairs .y rfl 0 (by decide) 2 (by decide) (by decide), ?_, ?_, ?_⟩
  · exact (controlled 0 (by decide) 1 (by decide) (by decide) 3 (by decide)).1
  · exact (controlled 0 (by decide) 1 (by decide) (by decide) 1 (by decide)).2
  · exact twice .swap (by simp) [0, 1] rfl (by decide) fun _ => below

end Gates

end HybridQuantum.Circuit
