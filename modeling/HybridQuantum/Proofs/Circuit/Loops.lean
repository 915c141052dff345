import HybridQuantum.Circuit.StateVector
import Mathlib.Data.Nat.Bitwise
import Mathlib.Logic.Function.Basic

/-!
# Loops over state vectors

The loops change a vector in place, but each pair of entries is changed once, so
the new entries are a function of the old ones.  `Shows` relates a vector to the
function of its entries; `entryAfter` is the function that a loop leaves behind.
-/

namespace HybridQuantum.Circuit

variable {α : Type}

theorem size_pairLoop (selects : Nat → Bool) (partner : Nat → Nat) (change : α → α → α × α)
    (remaining first : Nat) (vector : Array α) :
    (pairLoop selects partner change remaining first vector).size = vector.size := by
  induction remaining generalizing first vector with
  | zero => rfl
  | succ remaining ih =>
      rw [pairLoop]
      split
      · dsimp only
        split
        · rw [ih, Array.size_setIfInBounds, Array.size_setIfInBounds]
        · exact ih _ _
      · exact ih _ _

theorem size_changePairs (selects : Nat → Bool) (partner : Nat → Nat) (change : α → α → α × α)
    (vector : Array α) : (changePairs selects partner change vector).size = vector.size :=
  size_pairLoop ..

theorem size_changeEach (change : Nat → α → α) (vector : Array α) :
    (changeEach change vector).size = vector.size :=
  Array.size_mapIdx

/-- A vector of a given size whose entries are the values of a function. -/
structure Shows (vector : Array α) (size : Nat) (entry : Nat → α) : Prop where
  size_eq : vector.size = size
  get : ∀ index < size, vector[index]? = some (entry index)

namespace Shows

variable {vector : Array α} {size : Nat} {entry other : Nat → α}

theorem congr (shown : Shows vector size entry) (same : ∀ index < size, entry index = other index) :
    Shows vector size other :=
  ⟨shown.size_eq, fun index below => by rw [shown.get index below, same index below]⟩

theorem setIfInBounds (shown : Shows vector size entry) (place : Nat) (value : α) :
    Shows (vector.setIfInBounds place value) size (Function.update entry place value) := by
  refine ⟨by rw [Array.size_setIfInBounds, shown.size_eq], fun index below => ?_⟩
  rw [Array.getElem?_setIfInBounds]
  by_cases same : place = index
  · subst same
    simp [shown.size_eq, below]
  · rw [if_neg same, Function.update_of_ne (Ne.symm same), shown.get index below]

theorem toList_eq (shown : Shows vector size entry) :
    vector.toList = (List.range size).map entry := by
  refine List.ext_getElem? fun index => ?_
  by_cases below : index < size
  · rw [Array.getElem?_toList, shown.get index below]
    simp [below]
  · have outside : vector.size ≤ index := by
      rw [shown.size_eq]
      omega
    simp [outside, below]

theorem exists_of_size_pos {vector : Array α} (nonempty : 0 < vector.size) :
    ∃ entry, Shows vector vector.size entry := by
  refine ⟨fun index => vector.getD index vector[0], rfl, fun index below => ?_⟩
  rw [Array.getElem?_eq_getElem below, Array.getD_eq_getD_getElem?,
    Array.getElem?_eq_getElem below, Option.getD_some]

theorem unique {other : Array α} (shown : Shows vector size entry)
    (otherShown : Shows other size entry) : vector = other :=
  Array.toList_inj.1 (by rw [shown.toList_eq, otherShown.toList_eq])

end Shows

/--
A choice of pairs: partners lead back to each other and stay inside the vector,
and at most one of two partners is selected.
-/
structure Pairing (size : Nat) (selects : Nat → Bool) (partner : Nat → Nat) : Prop where
  involutive : ∀ index, partner (partner index) = index
  inside : ∀ index < size, partner index < size
  alone : ∀ index, selects index = true → selects (partner index) = false

/-- The entry at an index after a loop has gone from `first` up to, and not including, `last`. -/
def entryAfter (first last : Nat) (selects : Nat → Bool) (partner : Nat → Nat)
    (change : α → α → α × α) (entry : Nat → α) (index : Nat) : α :=
  if selects index = true ∧ first ≤ index ∧ index < last then
    (change (entry index) (entry (partner index))).1
  else if selects (partner index) = true ∧ first ≤ partner index ∧ partner index < last then
    (change (entry (partner index)) (entry index)).2
  else entry index

/-- The index whose entry comes to stand at an index when selected pairs are exchanged. -/
def exchanged (selects : Nat → Bool) (partner : Nat → Nat) (index : Nat) : Nat :=
  if selects index || selects (partner index) then partner index else index

/-- An index that is not selected is passed over. -/
theorem entryAfter_skip {selects : Nat → Bool} (partner : Nat → Nat) (change : α → α → α × α)
    {first : Nat} (last : Nat) (unselected : selects first = false) (entry : Nat → α)
    (index : Nat) :
    entryAfter (first + 1) last selects partner change entry index =
      entryAfter first last selects partner change entry index := by
  have here : selects index = true → first ≠ index := by
    rintro selected rfl
    rw [selected] at unselected
    cases unselected
  have there : selects (partner index) = true → first ≠ partner index := by
    rintro selected rfl
    rw [selected] at unselected
    cases unselected
  simp only [entryAfter]
  congr 1
  · simp only [eq_iff_iff]
    constructor
    · rintro ⟨selected, above, below⟩
      exact ⟨selected, by omega, below⟩
    · rintro ⟨selected, above, below⟩
      exact ⟨selected, by have := here selected; omega, below⟩
  · congr 1
    simp only [eq_iff_iff]
    constructor
    · rintro ⟨selected, above, below⟩
      exact ⟨selected, by omega, below⟩
    · rintro ⟨selected, above, below⟩
      exact ⟨selected, by have := there selected; omega, below⟩

namespace Pairing

variable {size : Nat} {selects : Nat → Bool} {partner : Nat → Nat}

theorem partner_ne (pairing : Pairing size selects partner) {index : Nat}
    (selected : selects index = true) : partner index ≠ index := by
  intro same
  have unselected := pairing.alone index selected
  rw [same, selected] at unselected
  cases unselected

theorem partner_eq_iff (pairing : Pairing size selects partner) {first second : Nat} :
    partner first = second ↔ first = partner second := by
  constructor
  · rintro rfl
    exact (pairing.involutive first).symm
  · rintro rfl
    exact pairing.involutive second

/--
A selected index is changed together with its partner before the loop goes on, which does not
come back to the pair.
-/
theorem entryAfter_step (pairing : Pairing size selects partner) (change : α → α → α × α)
    {first last : Nat} (selected : selects first = true) (before : first < last) (entry : Nat → α)
    (index : Nat) :
    entryAfter (first + 1) last selects partner change
        (Function.update
          (Function.update entry first (change (entry first) (entry (partner first))).1)
          (partner first) (change (entry first) (entry (partner first))).2) index =
      entryAfter first last selects partner change entry index := by
  have unselected := pairing.alone first selected
  have apart := pairing.partner_ne selected
  have passed : ¬ first + 1 ≤ first := by omega
  by_cases atFirst : index = first
  · subst atFirst
    simp [entryAfter, selected, unselected, before, Ne.symm apart, passed]
  by_cases atPartner : index = partner first
  · subst atPartner
    simp [entryAfter, selected, unselected, before, pairing.involutive, passed]
  · have partnerNotFirst : partner index ≠ first := fun same =>
      atPartner (pairing.partner_eq_iff.1 same)
    have partnerNotPartner : partner index ≠ partner first := fun same =>
      atFirst (by rw [pairing.partner_eq_iff.1 same, pairing.involutive])
    have above : first + 1 ≤ index ↔ first ≤ index := by omega
    have partnerAbove : first + 1 ≤ partner index ↔ first ≤ partner index := by omega
    simp only [entryAfter, Function.update_of_ne atPartner, Function.update_of_ne atFirst,
      Function.update_of_ne partnerNotPartner, Function.update_of_ne partnerNotFirst, above,
      partnerAbove]

/-- A loop over a stretch of indices changes the pairs selected there, and nothing else. -/
theorem shows_pairLoop (pairing : Pairing size selects partner) (change : α → α → α × α)
    (remaining first : Nat) {vector : Array α} {entry : Nat → α} (fits : first + remaining ≤ size)
    (shown : Shows vector size entry) :
    Shows (pairLoop selects partner change remaining first vector) size
      (entryAfter first (first + remaining) selects partner change entry) := by
  induction remaining generalizing first vector entry with
  | zero =>
      rw [pairLoop]
      refine shown.congr fun index _ => ?_
      rw [entryAfter, if_neg (by omega), if_neg (by omega)]
  | succ remaining ih =>
      have last : first + 1 + remaining = first + (remaining + 1) := by omega
      have inside : first < vector.size := by
        rw [shown.size_eq]
        omega
      rw [pairLoop]
      cases chosen : selects first with
      | false =>
          have later := ih (first + 1) (by omega) shown
          rw [last] at later
          simp only [Bool.false_eq_true, if_false]
          exact later.congr fun index _ => entryAfter_skip partner change _ chosen entry index
      | true =>
          have partnerInside : partner first < vector.size := by
            rw [shown.size_eq]
            exact pairing.inside first (by omega)
          have here : vector[first] = entry first := by
            have found := shown.get first (by omega)
            rwa [Array.getElem?_eq_getElem inside, Option.some.injEq] at found
          have there : vector[partner first] = entry (partner first) := by
            have found := shown.get (partner first) (by rwa [← shown.size_eq])
            rwa [Array.getElem?_eq_getElem partnerInside, Option.some.injEq] at found
          have one := shown.setIfInBounds first (change (entry first) (entry (partner first))).1
          have changed := one.setIfInBounds (partner first)
            (change (entry first) (entry (partner first))).2
          have later := ih (first + 1) (by omega) changed
          rw [last] at later
          simp only [if_true, inside, partnerInside, and_self, dif_pos, here, there]
          exact later.congr fun index _ =>
            pairing.entryAfter_step change chosen (by omega) entry index

/-- A loop over the whole vector changes every selected pair. -/
theorem shows_changePairs (pairing : Pairing size selects partner) (change : α → α → α × α)
    {vector : Array α} {entry : Nat → α} (shown : Shows vector size entry) :
    Shows (changePairs selects partner change vector) size
      (entryAfter 0 size selects partner change entry) := by
  have looped := pairing.shows_pairLoop change size 0 (by omega) shown
  rw [Nat.zero_add] at looped
  rw [changePairs, shown.size_eq]
  exact looped

/-- Exchanging selected pairs moves every entry to where its partner was. -/
theorem shows_exchange (pairing : Pairing size selects partner) {vector : Array α}
    {entry : Nat → α} (shown : Shows vector size entry) :
    Shows (changePairs selects partner exchange vector) size
      (fun index => entry (exchanged selects partner index)) := by
  refine (pairing.shows_changePairs exchange shown).congr fun index below => ?_
  have partnerBelow := pairing.inside index below
  cases chosen : selects index with
  | true => simp [entryAfter, exchanged, chosen, below, exchange]
  | false =>
      cases partnerChosen : selects (partner index) <;>
        simp [entryAfter, exchanged, chosen, partnerChosen, partnerBelow, exchange]

end Pairing

section Bits

theorem testBit_flipBit (qubit index bit : Nat) :
    (flipBit qubit index).testBit bit = (index.testBit bit ^^ decide (qubit = bit)) := by
  rw [flipBit, Nat.testBit_xor, Nat.one_shiftLeft, Nat.testBit_two_pow]

theorem flipBit_of_clear {qubit index : Nat} (clear : index.testBit qubit = false) :
    flipBit qubit index = index + 2 ^ qubit := by
  rw [flipBit, Nat.one_shiftLeft]
  induction qubit generalizing index with
  | zero =>
      have halves : (index ^^^ 1) / 2 = index / 2 := by
        rw [Nat.xor_div_two, Nat.div_eq_of_lt (by decide : 1 < 2), Nat.xor_zero]
      have parity : (index ^^^ 1) % 2 = (index + 1) % 2 := Nat.xor_mod_two_eq
      simp only [Nat.testBit_zero, decide_eq_false_iff_not] at clear
      rw [Nat.pow_zero]
      omega
  | succ qubit ih =>
      rw [Nat.testBit_succ] at clear
      rw [Nat.pow_succ]
      have halves : (index ^^^ 2 ^ qubit * 2) / 2 = index / 2 + 2 ^ qubit := by
        rw [Nat.xor_div_two, Nat.mul_div_cancel _ (by decide), ih clear]
      have parity : (index ^^^ 2 ^ qubit * 2) % 2 = index % 2 := by
        rw [Nat.xor_mod_two_eq, Nat.add_mul_mod_self_right]
      omega

theorem flipBit_flipBit (qubit index : Nat) : flipBit qubit (flipBit qubit index) = index := by
  rw [flipBit, flipBit, Nat.xor_assoc, Nat.xor_self, Nat.xor_zero]

/-- A basis state with the target bit flipped where the control bit is set. -/
def controlledFlip (control target index : Nat) : Nat :=
  if index.testBit control then flipBit target index else index

theorem controlledFlip_controlledFlip {control target : Nat} (apart : control ≠ target)
    (index : Nat) :
    controlledFlip control target (controlledFlip control target index) = index := by
  cases controlled : index.testBit control
  · simp [controlledFlip, controlled]
  · simp [controlledFlip, controlled, testBit_flipBit, Ne.symm apart, flipBit_flipBit]

theorem flipBit_lt {qubits qubit index : Nat} (inside : qubit < qubits)
    (below : index < 2 ^ qubits) : flipBit qubit index < 2 ^ qubits := by
  rw [flipBit, Nat.one_shiftLeft]
  exact Nat.xor_lt_two_pow below (Nat.pow_lt_pow_right (by decide) inside)

theorem controlledFlip_lt {qubits control target index : Nat} (inside : target < qubits)
    (below : index < 2 ^ qubits) : controlledFlip control target index < 2 ^ qubits := by
  rw [controlledFlip]
  split
  · exact flipBit_lt inside below
  · exact below

/-- Indices that agree on a bit are paired with those that have it flipped. -/
theorem pairing_flipBit {qubits qubit : Nat} (inside : qubit < qubits) {selects : Nat → Bool}
    {value : Bool} (agree : ∀ index, selects index = true → index.testBit qubit = value) :
    Pairing (2 ^ qubits) selects (flipBit qubit) where
  involutive := flipBit_flipBit qubit
  inside index below := flipBit_lt inside below
  alone index selected := by
    by_contra partnerSelected
    have flipped := agree _ (Bool.eq_true_of_not_eq_false partnerSelected)
    rw [testBit_flipBit, agree index selected] at flipped
    simp at flipped

end Bits

section Gates

variable {qubits : Nat} {vector : Array α} {entry : Nat → α}

/-- The not gate flips one bit of every index. -/
theorem shows_applyX {qubit : Nat} (inside : qubit < qubits)
    (shown : Shows vector (2 ^ qubits) entry) :
    Shows (applyX qubit vector) (2 ^ qubits) (fun index => entry (flipBit qubit index)) := by
  have pairing : Pairing (2 ^ qubits) (fun index => !index.testBit qubit) (flipBit qubit) :=
    pairing_flipBit inside fun _ selected => by rwa [Bool.not_eq_true'] at selected
  refine (pairing.shows_exchange shown).congr fun index _ => ?_
  cases index.testBit qubit <;> simp [exchanged, testBit_flipBit]

/-- The controlled gate flips the target bit of every index whose control bit is set. -/
theorem shows_applyCX {control target : Nat} (inside : target < qubits) (apart : control ≠ target)
    (shown : Shows vector (2 ^ qubits) entry) :
    Shows (applyCX control target vector) (2 ^ qubits)
      (fun index => entry (controlledFlip control target index)) := by
  have pairing : Pairing (2 ^ qubits)
      (fun index => index.testBit control && !index.testBit target) (flipBit target) :=
    pairing_flipBit inside fun index selected => by
      simp only [Bool.and_eq_true, Bool.not_eq_true'] at selected
      exact selected.2
  refine (pairing.shows_exchange shown).congr fun index _ => ?_
  cases controlled : index.testBit control <;> cases targeted : index.testBit target <;>
    simp [exchanged, controlledFlip, testBit_flipBit, controlled, targeted, Ne.symm apart]

end Gates

end HybridQuantum.Circuit
