import HybridQuantum.Circuit.Simulator
import HybridQuantum.Proofs.Circuit.Loops
import HybridQuantum.Proofs.Numeric.Rounding

/-!
# Resetting a clear qubit

A reset replaces the two entries across its qubit by their common length, so what it
keeps is never negative and has no imaginary part.  On a qubit that is clear already it
therefore changes nothing only where every entry is such a number, and loses the phase
of all others.
-/

namespace HybridQuantum.Circuit

open Float.Model (Format UnpackedFloat)
open Float.Model.UnpackedFloat

namespace Amplitude

/-- Equal as complex numbers, whatever the signs of zeros. -/
def Same (left right : Amplitude) : Prop :=
  (left.re == right.re) = true ∧ (left.im == right.im) = true

instance (left right : Amplitude) : Decidable (left.Same right) :=
  inferInstanceAs (Decidable (_ ∧ _))

/-- The smallest number whose square keeps all its bits. -/
def leastSide : Float :=
  Float.ofBits 0x2000000000000000

/-- Zero, or a positive number whose square neither vanishes nor overflows. -/
def IsModerate (side : Float) : Prop :=
  (side == 0) = true ∨ leastSide ≤ side ∧ side ≤ huge

theorem parts_huge : parts huge = .finite .positive (2 ^ 52) 459 (by decide) := by
  rfl

theorem parts_leastSide : parts leastSide = .finite .positive (2 ^ 52) (-563) (by decide) := by
  rfl

theorem parts_tiny : parts tiny = .finite .positive (2 ^ 52) (-511) (by decide) := by
  rfl

theorem parts_negligible :
    parts negligible = .finite .positive (2 ^ 52) (-106) (by decide) := by
  rfl

/-- What the absolute value of a side unpacks to: zero, or a number of ordinary size. -/
inductive IsModerateSide : UnpackedFloat → Prop
  | zero : IsModerateSide (.zero .positive)
  | finite (mantissa : Nat) (exponent : Int) (positive : 0 < mantissa) (above : -563 ≤ exponent)
      (notHuge : exponent < 459 ∨ exponent = 459 ∧ mantissa ≤ 2 ^ 52) :
      IsModerateSide (.finite .positive mantissa exponent positive)

theorem IsModerate.parts_abs {side : Float} (moderate : IsModerate side) :
    IsModerateSide (parts side.abs) ∧ (side == side.abs) = true := by
  rw [beq_iff_parts, HybridQuantum.parts_abs]
  rcases moderate with zero | ⟨atLeast, atMost⟩
  · obtain ⟨sign, unpacked⟩ := beq_zero_iff.1 zero
    rw [unpacked]
    exact ⟨.zero, rfl⟩
  · rw [le_iff_parts, parts_leastSide] at atLeast
    rw [le_iff_parts, parts_huge] at atMost
    cases unpacked : parts side with
    | notANumber | zero sign =>
        rw [unpacked] at atLeast
        cases atLeast
    | infinity sign =>
        rw [unpacked] at atLeast atMost
        cases sign with
        | positive => cases atMost
        | negative => cases atLeast
    | finite sign mantissa exponent positive =>
        rw [unpacked] at atLeast atMost
        cases sign with
        | negative => cases atLeast
        | positive =>
            rw [isLE_compare_finite] at atLeast atMost
            refine ⟨.finite mantissa exponent positive (by omega) atMost, ?_⟩
            change some ((compare exponent exponent).then (compare mantissa mantissa)) = some .eq
            rw [Int.compare_eq_eq.2 rfl, Nat.compare_eq_eq.2 rfl]
            rfl

/--
Next to a side of length zero, the other side is the hypotenuse: each test of the computation
goes one way, down to a sum with zero.
-/
theorem parts_hypotenuse {first second : Float} (moderate : IsModerateSide (parts first.abs))
    (flat : (second == 0) = true) : parts (hypotenuse first second) = parts first.abs := by
  have none : parts second.abs = .zero .positive := by
    obtain ⟨sign, unpacked⟩ := beq_zero_iff.1 flat
    rw [HybridQuantum.parts_abs, unpacked]
    rfl
  simp only [hypotenuse]
  generalize first.abs = long at moderate ⊢
  generalize second.abs = short at none ⊢
  generalize unpacked : parts long = side at moderate ⊢
  have notShorter : ¬ long < short := by
    rw [lt_iff_parts, unpacked, none]
    cases moderate <;> nofun
  have bounded : (long.isInf || short.isInf) = false := by
    have infinite : (long.isInf || short.isInf) = ((parts long).isInf || (parts short).isInf) := rfl
    rw [infinite, unpacked, none]
    cases moderate <;> rfl
  have notHuge : ¬ huge < long := by
    rw [lt_iff_parts, unpacked, parts_huge]
    cases moderate with
    | zero => nofun
    | finite mantissa exponent positive above notHuge =>
        rw [compare_finite_eq_lt]
        omega
  have vanishes : short < tiny := by
    rw [lt_iff_parts, none, parts_tiny]
    rfl
  have quotient : parts (short / negligible) = .zero .positive :=
    parts_div (by rw [none, parts_negligible]; rfl) trivial
  have negligibleSide : short / negligible ≤ long := by
    rw [le_iff_parts, quotient, unpacked]
    cases moderate <;> rfl
  rw [if_neg notShorter, if_neg notShorter, bounded, if_neg Bool.false_ne_true, if_neg notHuge,
    if_pos vanishes, if_pos negligibleSide]
  refine parts_add ?_ (unpacked ▸ inRange_parts long)
  rw [unpacked, none]
  cases moderate <;> rfl

theorem parts_sqrt_lengths {moved kept : Float} (nothing : parts moved = .zero .positive)
    (moderate : IsModerateSide (parts kept)) :
    parts (moved * moved + kept * kept).sqrt = parts kept := by
  have noSquare : parts (moved * moved) = .zero .positive :=
    parts_mul (by rw [nothing]; rfl) trivial
  have root : parts (kept * kept).sqrt = parts kept := by
    generalize unpacked : parts kept = side at moderate ⊢
    cases moderate with
    | zero =>
        have square : parts (kept * kept) = .zero .positive :=
          parts_mul (by rw [unpacked]; rfl) trivial
        exact parts_sqrt (by rw [square]; rfl) trivial
    | finite mantissa exponent positive above notHuge =>
        exact parts_sqrt_mul_self positive unpacked above (by omega)
  have notNegative : parts (kept * kept) ≠ .zero .negative := by
    intro negative
    have negativeRoot : parts (kept * kept).sqrt = .zero .negative :=
      parts_sqrt (by rw [negative]; rfl) trivial
    rw [← root, negativeRoot] at moderate
    cases moderate
  rw [parts_sqrt_congr (parts_zero_add noSquare notNegative), root]

end Amplitude

section Reset

open Amplitude StateVector

variable {qubits qubit : Nat} {vector : Array Amplitude} {entry : Nat → Amplitude}

/-- A reset empties the entries with the bit set and merges each into the one across. -/
theorem shows_applyReset (inside : qubit < qubits) (shown : Shows vector (2 ^ qubits) entry) :
    Shows (applyReset qubit vector) (2 ^ qubits) (fun index =>
      if index.testBit qubit then .zero
      else (mergeBranches (entry (flipBit qubit index)) (entry index)).2) := by
  have pairing : Pairing (2 ^ qubits) (·.testBit qubit) (flipBit qubit) :=
    pairing_flipBit inside fun _ selected => selected
  refine (pairing.shows_changePairs mergeBranches shown).congr fun index below => ?_
  have partnerBelow := flipBit_lt inside below
  cases tested : index.testBit qubit with
  | false => simp [entryAfter, tested, testBit_flipBit, partnerBelow]
  | true => simp [entryAfter, tested, below, mergeBranches]

/-- Merging with an empty branch keeps a real number that is not negative. -/
theorem same_mergeBranches {set clear : Amplitude} (empty : set.Same .zero)
    (moderate : IsModerate clear.re) (real : (clear.im == 0) = true) :
    clear.Same (mergeBranches set clear).2 := by
  obtain ⟨emptyRe, emptyIm⟩ := empty
  obtain ⟨side, equal⟩ := moderate.parts_abs
  have moved : parts set.length = .zero .positive := by
    obtain ⟨sign, unpacked⟩ := beq_zero_iff.1 emptyRe
    have flat : parts set.re.abs = .zero .positive := by
      rw [HybridQuantum.parts_abs, unpacked]
      rfl
    rw [length, parts_hypotenuse (flat ▸ .zero) emptyIm, flat]
  have kept : parts clear.length = parts clear.re.abs := parts_hypotenuse side real
  refine ⟨?_, real⟩
  rw [beq_iff_parts] at equal ⊢
  rw [← equal, ← kept]
  exact congrArg _ (parts_sqrt_lengths moved (kept ▸ side))

/--
Resetting a qubit whose set entries are all zero.  If it changes no entry, every entry it
keeps is real and not negative; and it does change none where the entries it keeps are
real, not negative, and zero or of a size whose square is exact in its range.
-/
theorem applyReset_of_clear (inside : qubit < qubits) (sized : vector.size = 2 ^ qubits)
    (clear : ∀ index : Nat, index < 2 ^ qubits → index.testBit qubit = true →
      ∃ entry : Amplitude, vector[index]? = some entry ∧ entry.Same .zero) :
    let unchanged := ∀ index < 2 ^ qubits, ∃ old new : Amplitude, vector[index]? = some old ∧
      (applyReset qubit vector)[index]? = some new ∧ old.Same new
    (unchanged → ∀ index : Nat, index < 2 ^ qubits → index.testBit qubit = false →
      ∃ entry : Amplitude, vector[index]? = some entry ∧ 0 ≤ entry.re ∧
        (entry.im == 0) = true) ∧
    ((∀ index : Nat, index < 2 ^ qubits → index.testBit qubit = false →
      ∃ entry : Amplitude, vector[index]? = some entry ∧ IsModerate entry.re ∧
        (entry.im == 0) = true) → unchanged) := by
  intro unchanged
  obtain ⟨entry, shown⟩ := Shows.exists_of_size_pos (sized ▸ Nat.two_pow_pos qubits)
  rw [sized] at shown
  have reset := shows_applyReset inside shown
  constructor
  · intro same index below clearBit
    obtain ⟨old, new, oldHere, newHere, sameRe, sameIm⟩ := same index below
    rw [reset.get index below, clearBit, if_neg Bool.false_ne_true, Option.some.injEq] at newHere
    subst newHere
    exact ⟨old, oldHere, nonneg_of_beq_sqrt sameRe, sameIm⟩
  · intro kept index below
    refine ⟨entry index, _, shown.get index below, reset.get index below, ?_⟩
    have empty {place : Nat} (placeBelow : place < 2 ^ qubits)
        (setBit : place.testBit qubit = true) : (entry place).Same .zero := by
      obtain ⟨old, oldHere, zero⟩ := clear place placeBelow setBit
      rw [shown.get place placeBelow, Option.some.injEq] at oldHere
      exact oldHere ▸ zero
    cases tested : index.testBit qubit with
    | true =>
        rw [if_pos rfl]
        exact empty below tested
    | false =>
        obtain ⟨old, oldHere, moderate, real⟩ := kept index below tested
        rw [shown.get index below, Option.some.injEq] at oldHere
        subst oldHere
        have setBit : (flipBit qubit index).testBit qubit = true := by
          simp [testBit_flipBit, tested]
        rw [if_neg Bool.false_ne_true]
        exact same_mergeBranches (empty (flipBit_lt inside below) setBit) moderate real

theorem applyReset_of_clear_single :
    (∀ index : Nat, index < 2 ^ 1 → index.testBit 0 = true →
      ∃ entry : Amplitude, #[.one, .zero][index]? = some entry ∧ entry.Same .zero) ∧
    ∀ index < 2 ^ 1, ∃ old new : Amplitude, (#[.one, .zero] : Array Amplitude)[index]? = some old ∧
      (applyReset 0 #[.one, .zero])[index]? = some new ∧ old.Same new := by
  have clear : ∀ index : Nat, index < 2 ^ 1 → index.testBit 0 = true →
      ∃ entry : Amplitude, #[.one, .zero][index]? = some entry ∧ entry.Same .zero := by
    intro index below set
    obtain rfl | rfl : index = 0 ∨ index = 1 := by omega
    · cases set
    · exact ⟨.zero, rfl, by decide +kernel⟩
  have ofOrdinarySize : IsModerate 1 := .inr (by decide +kernel)
  refine ⟨clear, (@applyReset_of_clear 1 0 #[.one, .zero] (by decide) rfl clear).2 ?_⟩
  intro index below clearBit
  obtain rfl | rfl : index = 0 ∨ index = 1 := by omega
  · exact ⟨.one, rfl, ofOrdinarySize, by decide +kernel⟩
  · cases clearBit

/-- A program that turns one qubit and measures it, with a statement on the other between. -/
def turnedProgram (between : String) : String :=
  "OPENQASM 2.0; qreg q[2]; creg c[2]; h q[0]; z q[0]; " ++ between ++ "h q[0]; measure q -> c;"

/-- The state of two qubits before the reset. -/
def minusState : StateVector :=
  [.gate .h [0], .gate .z [0]].foldl apply (init 2)

/-- The reset of a qubit no gate has touched turns the sign of an entry and with it the outcome. -/
theorem applyReset_turned :
    ∃ plain circuit : Circuit Float,
      parse (turnedProgram "") = .ok plain ∧
      parse (turnedProgram "reset q[1]; ") = .ok circuit ∧
      circuit.ops = [.gate .h [0], .gate .z [0], .reset 1, .gate .h [0], .measure 0 0,
        .measure 1 1] ∧
      (let before := ((circuit.ops.take 2).foldl apply (init circuit.qubits)).amplitudes;
        (∀ index : Nat, index < 2 ^ 2 → index.testBit 1 = true →
          ∃ entry : Amplitude, before[index]? = some entry ∧ entry.Same .zero) ∧
        ∃ old new : Amplitude, before[1]? = some old ∧ (applyReset 1 before)[1]? = some new ∧
          ¬ old.Same new) ∧
      (plain.simulate [0]).map (Counts.get · "01") = some 1 ∧
      (circuit.simulate [0]).map (Counts.get · "00") = some 1 := by
  have emptied : ∀ index < 2 ^ 2, Nat.testBit index 1 = true →
      (minusState.amplitudes[index]?.any fun entry => decide (entry.Same .zero)) = true := by
    decide +kernel
  have turned : ∃ old ∈ minusState.amplitudes[1]?,
      ∃ new ∈ (applyReset 1 minusState.amplitudes)[1]?, ¬ old.Same new := by
    decide +kernel
  refine ⟨⟨2, 2, [.gate .h [0], .gate .z [0], .gate .h [0], .measure 0 0, .measure 1 1]⟩,
    ⟨2, 2, [.gate .h [0], .gate .z [0], .reset 1, .gate .h [0], .measure 0 0, .measure 1 1]⟩,
    by decide +kernel, by decide +kernel, rfl, ⟨?_, ?_⟩, by decide +kernel, by decide +kernel⟩
  · intro index below set
    obtain ⟨entry, here, same⟩ := (Option.any_eq_true _ _).1 (emptied index below set)
    exact ⟨entry, here, of_decide_eq_true same⟩
  · obtain ⟨old, oldHere, new, newHere, different⟩ := turned
    exact ⟨old, new, oldHere, newHere, different⟩

end Reset

end HybridQuantum.Circuit
