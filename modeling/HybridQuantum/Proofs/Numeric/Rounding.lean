import HybridQuantum.Proofs.Numeric.Binary64
import Mathlib.Tactic.Ring

/-!
# Rounding, squares and square roots

Rounding drops the low bits of a mantissa and errs by at most half of the last bit
kept.  A square of ordinary size therefore has its root closer to the number that was
squared than to any other number, and taking the root gives that number back.
-/

namespace HybridQuantum

open Float.Model (Format UnpackedFloat totalExponent)
open Float.Model.UnpackedFloat

section Shifting

/-- What is left of a mantissa after bits are dropped, with the two bits that describe the rest. -/
structure Dropped (mantissa count : Nat) (kept : ExtendedMantissa) : Prop where
  mantissa_eq : kept.mantissa = mantissa / 2 ^ count
  round_iff : kept.roundBit = true ↔ 2 ^ count ≤ 2 * (mantissa % 2 ^ count)
  sticky_iff : kept.stickyBit = true ↔ 2 * (mantissa % 2 ^ count) % 2 ^ count ≠ 0

namespace Dropped

variable {mantissa count : Nat} {kept : ExtendedMantissa}

theorem zero (mantissa : Nat) : Dropped mantissa 0 ⟨mantissa, false, false⟩ := by
  refine ⟨?_, ?_, ?_⟩ <;> simp [Nat.mod_one]

theorem shiftRightOne (dropped : Dropped mantissa count kept) :
    Dropped mantissa (count + 1) kept.shiftRightOne := by
  have rest : mantissa % 2 ^ count < 2 ^ count := Nat.mod_lt _ (Nat.two_pow_pos count)
  have longer : mantissa % 2 ^ (count + 1) =
      mantissa % 2 ^ count + 2 ^ count * (mantissa / 2 ^ count % 2) := Nat.mod_pow_succ
  refine ⟨?_, ?_, ?_⟩
  · rw [ExtendedMantissa.shiftRightOne, dropped.mantissa_eq, Nat.div_div_eq_div_mul, Nat.pow_succ]
  · rw [ExtendedMantissa.shiftRightOne, dropped.mantissa_eq, longer, Nat.pow_succ', bne_iff_ne]
    generalize 2 ^ count = power at rest ⊢
    rcases Nat.mod_two_eq_zero_or_one (mantissa / power) with even | odd
    · rw [even]
      omega
    · rw [odd]
      omega
  · rw [ExtendedMantissa.shiftRightOne, Bool.or_eq_true, dropped.round_iff, dropped.sticky_iff,
      longer, Nat.pow_succ', Nat.mul_add, ← Nat.mul_assoc, Nat.add_mul_mod_self_left,
      Nat.mod_eq_of_lt (Nat.mul_lt_mul_of_pos_left rest (by decide))]
    generalize mantissa % 2 ^ count = low at rest ⊢
    rcases Nat.lt_or_ge (2 * low) (2 ^ count) with below | above
    · rw [Nat.mod_eq_of_lt below]
      omega
    · omega

theorem shiftRight (mantissa count : Nat) :
    Dropped mantissa count ((⟨mantissa, false, false⟩ : ExtendedMantissa) >>> count) := by
  induction count with
  | zero => exact zero mantissa
  | succ count ih => exact ih.shiftRightOne

/-- Rounding errs by at most half of the last bit that is kept. -/
theorem rounded (dropped : Dropped mantissa count kept) :
    2 * (kept.roundedMantissa * 2 ^ count) ≤ 2 * mantissa + 2 ^ count ∧
      2 * mantissa ≤ 2 * (kept.roundedMantissa * 2 ^ count) + 2 ^ count := by
  obtain ⟨high, round, sticky⟩ := kept
  obtain ⟨rfl, round_iff, sticky_iff⟩ := dropped
  have whole := Nat.div_add_mod' mantissa (2 ^ count)
  have rest : mantissa % 2 ^ count < 2 ^ count := Nat.mod_lt _ (Nat.two_pow_pos count)
  have doubled :
      2 ^ count ≤ 2 * (mantissa % 2 ^ count) ∧
        2 * (mantissa % 2 ^ count) % 2 ^ count = 2 * (mantissa % 2 ^ count) - 2 ^ count ∨
      2 * (mantissa % 2 ^ count) < 2 ^ count ∧
        2 * (mantissa % 2 ^ count) % 2 ^ count = 2 * (mantissa % 2 ^ count) := by
    rcases Nat.lt_or_ge (2 * (mantissa % 2 ^ count)) (2 ^ count) with below | above
    · exact .inr ⟨below, Nat.mod_eq_of_lt below⟩
    · exact .inl ⟨above, by rw [Nat.mod_eq_sub_mod above, Nat.mod_eq_of_lt (by omega)]⟩
  simp only at round_iff sticky_iff
  generalize 2 * (mantissa % 2 ^ count) % 2 ^ count = tail at *
  generalize mantissa / 2 ^ count = high at whole ⊢
  generalize mantissa % 2 ^ count = low at *
  generalize 2 ^ count = power at *
  have even : (high + high % 2) * power = high * power ∨
      (high + high % 2) * power = high * power + power := by
    rcases Nat.mod_two_eq_zero_or_one high with zero | one
    · exact .inl (by rw [zero, Nat.add_zero])
    · exact .inr (by rw [one, Nat.add_mul, Nat.one_mul])
  cases round <;> cases sticky <;>
    simp only [ExtendedMantissa.roundedMantissa, ExtendedMantissa.accuracy,
      Accuracy.roundToNearestEven, Nat.add_mul high 1, Nat.one_mul, Bool.false_eq_true, false_iff,
      true_iff] at round_iff sticky_iff ⊢ <;>
    omega

end Dropped

end Shifting

section Rounding

theorem targetExponent_binary64 (total : Int) :
    Format.binary64.targetExponent total = max (total - 53) (-1074) :=
  rfl

theorem log2_eq_of_le_of_lt {mantissa bits : Nat} (lower : 2 ^ bits ≤ mantissa)
    (upper : mantissa < 2 ^ (bits + 1)) : mantissa.log2 = bits := by
  have nonzero : mantissa ≠ 0 := by
    have := Nat.two_pow_pos bits
    omega
  have least := (Nat.le_log2 nonzero).2 lower
  have most := (Nat.log2_lt nonzero).2 upper
  omega

/-- A mantissa of more bits than fit is cut down to those that do. -/
theorem shiftToTargetExponent_of_long {mantissa count : Nat} {exponent : Int} (accuracy : Accuracy)
    (lower : 2 ^ (52 + count) ≤ mantissa) (upper : mantissa < 2 ^ (53 + count))
    (above : -1074 ≤ exponent + count) :
    shiftToTargetExponent Format.binary64 mantissa exponent accuracy =
      (ExtendedMantissa.ofMantissaAndAccuracy mantissa accuracy >>> count, exponent + count) := by
  have bits : mantissa.log2 = 52 + count :=
    log2_eq_of_le_of_lt lower (by rwa [Nat.add_right_comm])
  have shift : (max (((52 + count : Nat) : Int) + 1 + exponent - 53) (-1074) - exponent).toNat =
      count := by omega
  rw [shiftToTargetExponent, targetExponent_binary64, totalExponent, bits, shiftToExponent, shift]

/-- A mantissa that fits stays as it is. -/
theorem shiftToTargetExponent_of_short {mantissa : Nat} {exponent : Int} (accuracy : Accuracy)
    (upper : mantissa < 2 ^ 53) (above : -1074 ≤ exponent) :
    shiftToTargetExponent Format.binary64 mantissa exponent accuracy =
      (ExtendedMantissa.ofMantissaAndAccuracy mantissa accuracy, exponent) := by
  have bits : mantissa.log2 ≤ 52 := by
    rcases Nat.eq_zero_or_pos mantissa with rfl | positive
    · decide
    · exact Nat.le_of_lt_succ ((Nat.log2_lt (Nat.ne_of_gt positive)).2 upper)
  have shift : (max ((mantissa.log2 : Int) + 1 + exponent - 53) (-1074) - exponent).toNat = 0 := by
    omega
  rw [shiftToTargetExponent, targetExponent_binary64, totalExponent, shiftToExponent, shift]
  simp [HShiftRight.hShiftRight, Nat.repeat]

theorem roundedMantissa_ofMantissaAndAccuracy (mantissa : Nat) (accuracy : Accuracy) :
    (ExtendedMantissa.ofMantissaAndAccuracy mantissa accuracy).roundedMantissa =
      accuracy.roundToNearestEven mantissa := by
  rcases accuracy with _ | ⟨_ | _ | _⟩ <;> rfl

/-- A mantissa is shifted once before it is rounded and once more after that. -/
theorem roundWithAccuracy_eq (sign : Sign) {mantissa rounded : Nat}
    {exponent shiftedExponent finalExponent : Int} {accuracy : Accuracy}
    {shifted final : ExtendedMantissa}
    (first : shiftToTargetExponent Format.binary64 mantissa exponent accuracy =
      (shifted, shiftedExponent))
    (second : shiftToTargetExponent Format.binary64 shifted.roundedMantissa shiftedExponent .exact =
      (final, finalExponent))
    (kept : final.mantissa = rounded) (positive : 0 < rounded) :
    roundWithAccuracy Format.binary64 sign mantissa exponent accuracy =
      .finite sign rounded finalExponent positive := by
  subst kept
  unfold roundWithAccuracy
  rw [first]
  change (match shiftToTargetExponent Format.binary64 shifted.roundedMantissa shiftedExponent .exact
    with
    | (extended, exponent) => if none : extended.mantissa = 0 then UnpackedFloat.zero sign
        else UnpackedFloat.finite sign extended.mantissa exponent (Nat.pos_of_ne_zero none)) = _
  rw [second]
  exact dif_neg (Nat.ne_of_gt positive)

/-- Rounding a mantissa that fits only looks at what was lost before. -/
theorem roundWithAccuracy_of_short (sign : Sign) {mantissa rounded : Nat} {exponent : Int}
    {accuracy : Accuracy} (upper : mantissa < 2 ^ 53) (above : -1074 ≤ exponent)
    (outcome : accuracy.roundToNearestEven mantissa = rounded) (positive : 0 < rounded)
    (fits : rounded < 2 ^ 53) :
    roundWithAccuracy Format.binary64 sign mantissa exponent accuracy =
      .finite sign rounded exponent positive := by
  have first := shiftToTargetExponent_of_short accuracy upper above
  have second : shiftToTargetExponent Format.binary64
      (ExtendedMantissa.ofMantissaAndAccuracy mantissa accuracy).roundedMantissa exponent .exact =
        (ExtendedMantissa.ofMantissaAndAccuracy rounded .exact, exponent) := by
    rw [roundedMantissa_ofMantissaAndAccuracy, outcome]
    exact shiftToTargetExponent_of_short .exact fits above
  exact roundWithAccuracy_eq sign first second rfl positive

/-- Rounding a long mantissa keeps its leading bits and errs by half of the last one at most. -/
theorem exists_roundWithAccuracy (sign : Sign) {mantissa count : Nat} {exponent : Int}
    (lower : 2 ^ (52 + count) ≤ mantissa) (upper : mantissa < 2 ^ (53 + count))
    (above : -1074 ≤ exponent + count) :
    ∃ (rounded shift : Nat) (positive : 0 < rounded),
      roundWithAccuracy Format.binary64 sign mantissa exponent .exact =
        .finite sign rounded (exponent + shift) positive ∧
      2 ^ 52 ≤ rounded ∧ rounded < 2 ^ 53 ∧ (shift = count ∨ shift = count + 1) ∧
      2 * (rounded * 2 ^ shift) ≤ 2 * mantissa + 2 ^ count ∧
      2 * mantissa ≤ 2 * (rounded * 2 ^ shift) + 2 ^ count := by
  have first := shiftToTargetExponent_of_long .exact lower upper above
  obtain ⟨atMost, atLeast⟩ := (Dropped.shiftRight mantissa count).rounded
  rw [Nat.pow_add] at lower upper
  have exact_eq : ExtendedMantissa.ofMantissaAndAccuracy mantissa .exact =
      ⟨mantissa, false, false⟩ := rfl
  rw [exact_eq] at first
  generalize (⟨mantissa, false, false⟩ : ExtendedMantissa) >>> count = kept at *
  have least : 2 ^ 52 ≤ kept.roundedMantissa := by
    by_contra less
    have scaled := Nat.mul_le_mul_right (2 ^ count) (Nat.lt_of_not_le less)
    rw [Nat.succ_mul] at scaled
    have := Nat.two_pow_pos count
    omega
  have most : kept.roundedMantissa ≤ 2 ^ 53 := by
    by_contra more
    have scaled := Nat.mul_le_mul_right (2 ^ count) (Nat.lt_of_not_le more)
    rw [Nat.succ_mul] at scaled
    omega
  rcases Nat.lt_or_eq_of_le most with fits | carried
  · have second := shiftToTargetExponent_of_short .exact fits above
    refine ⟨kept.roundedMantissa, count, by omega, ?_, least, fits, .inl rfl, atMost, atLeast⟩
    exact roundWithAccuracy_eq sign first second rfl _
  · have second := @shiftToTargetExponent_of_long kept.roundedMantissa 1 (exponent + count) .exact
      (by omega) (by omega) (by omega)
    have halved :
        (ExtendedMantissa.ofMantissaAndAccuracy kept.roundedMantissa .exact >>> 1).mantissa =
          2 ^ 52 := by
      rw [carried]
      rfl
    refine ⟨2 ^ 52, count + 1, by decide, ?_, Nat.le_refl _, by decide, .inr rfl, ?_, ?_⟩
    · have carries : exponent + ((count + 1 : Nat) : Int) = exponent + count + (1 : Nat) := by
        omega
      rw [carries]
      exact roundWithAccuracy_eq sign first second halved _
    · rw [carried] at atMost
      rw [Nat.pow_succ]
      omega
    · rw [carried] at atLeast
      rw [Nat.pow_succ]
      omega

end Rounding

section Roots

variable {mantissa : Nat} {exponent : Int}

/-- The square of a number of ordinary size, rounded, is nearer to it than the number is large. -/
theorem exists_square (sign : Sign) (positive : 0 < mantissa) (lower : 2 ^ 52 ≤ mantissa)
    (upper : mantissa < 2 ^ 53) (above : -563 ≤ exponent) :
    ∃ (rounded shift : Nat) (roundedPos : 0 < rounded),
      mul Format.binary64 (.finite sign mantissa exponent positive)
          (.finite sign mantissa exponent positive) =
        .finite .positive rounded (exponent + exponent + shift) roundedPos ∧
      2 ^ 52 ≤ rounded ∧ rounded < 2 ^ 53 ∧ (shift = 52 ∨ shift = 53) ∧
      rounded * 2 ^ shift < mantissa * mantissa + mantissa ∧
      mantissa * mantissa < rounded * 2 ^ shift + mantissa := by
  have signs : sign * sign = .positive := by cases sign <;> rfl
  have product : mul Format.binary64 (.finite sign mantissa exponent positive)
      (.finite sign mantissa exponent positive) =
        roundWithAccuracy Format.binary64 (sign * sign) (mantissa * mantissa) (exponent + exponent)
          .exact := rfl
  have least : 2 ^ 52 * 2 ^ 52 ≤ mantissa * mantissa := Nat.mul_le_mul lower lower
  have most : mantissa * mantissa ≤ (2 ^ 53 - 1) * (2 ^ 53 - 1) :=
    Nat.mul_le_mul (by omega) (by omega)
  rcases Nat.lt_or_ge (mantissa * mantissa) (2 ^ 105) with short | long
  · obtain ⟨rounded, shift, roundedPos, result, atLeast, atMost, shifts, below, beyond⟩ :=
      @exists_roundWithAccuracy .positive (mantissa * mantissa) 52 (exponent + exponent)
        (by omega) (by omega) (by omega)
    refine ⟨rounded, shift, roundedPos, ?_, atLeast, atMost, by omega, by omega, by omega⟩
    rw [product, signs, result]
  · obtain ⟨rounded, shift, roundedPos, result, atLeast, atMost, shifts, below, beyond⟩ :=
      @exists_roundWithAccuracy .positive (mantissa * mantissa) 53 (exponent + exponent)
        (by omega) (by omega) (by omega)
    have wide : 2 ^ 52 < mantissa := by
      by_contra narrow
      have := Nat.mul_le_mul (Nat.le_of_not_lt narrow) (Nat.le_of_not_lt narrow)
      omega
    have notCarried : shift = 53 := by
      rcases shifts with rfl | rfl
      · rfl
      · omega
    refine ⟨rounded, shift, roundedPos, ?_, atLeast, atMost, .inr notCarried, ?_, ?_⟩
    · rw [product, signs, result]
    · omega
    · omega

/-- A number whose distance to a square is below the side has that side for its root. -/
theorem roundToNearestEven_sqrt {near : Nat} (positive : 0 < mantissa)
    (below : near < mantissa * mantissa + mantissa)
    (beyond : mantissa * mantissa < near + mantissa) :
    let root := Nat.sqrt near
    let rest := near - root * root
    let accuracy : Accuracy :=
      if rest = 0 then .exact else .inexact (if rest ≤ root then .lt else .gt)
    root ≤ mantissa ∧ accuracy.roundToNearestEven root = mantissa := by
  rcases Nat.lt_or_ge near (mantissa * mantissa) with less | least
  · obtain ⟨before, rfl⟩ : ∃ before, mantissa = before + 1 := ⟨mantissa - 1, by omega⟩
    have square : (before + 1) * (before + 1) = before * before + 2 * before + 1 := by ring
    have root : Nat.sqrt near = before := (Nat.eq_sqrt.2 ⟨by omega, by omega⟩).symm
    simp only [root]
    refine ⟨by omega, ?_⟩
    rw [if_neg (by omega), if_neg (by omega)]
    rfl
  · have square : (mantissa + 1) * (mantissa + 1) = mantissa * mantissa + 2 * mantissa + 1 := by
      ring
    have root : Nat.sqrt near = mantissa := (Nat.eq_sqrt.2 ⟨by omega, by omega⟩).symm
    simp only [root]
    refine ⟨Nat.le_refl _, ?_⟩
    split
    · rfl
    · rw [if_pos (by omega)]
      rfl

theorem sqrt_near_square {rounded shift : Nat} (roundedPos : 0 < rounded) (positive : 0 < mantissa)
    (lower : 2 ^ 52 ≤ rounded) (upper : rounded < 2 ^ 53) (shifts : shift = 52 ∨ shift = 53)
    (fits : mantissa < 2 ^ 53) (above : -1074 ≤ exponent)
    (below : rounded * 2 ^ shift < mantissa * mantissa + mantissa)
    (beyond : mantissa * mantissa < rounded * 2 ^ shift + mantissa) :
    sqrt Format.binary64 (.finite .positive rounded (exponent + exponent + shift) roundedPos) =
      .finite .positive mantissa exponent positive := by
  have bits : rounded.log2 = 52 := log2_eq_of_le_of_lt lower upper
  have target : min ((exponent + exponent + shift).ediv 2)
      (max ((((52 : Nat) : Int) + 1 + (exponent + exponent + shift) + 1).ediv 2 - 53) (-1074)) =
        exponent := by
    have halves (number : Int) : number.ediv 2 = number / 2 := rfl
    rw [halves, halves]
    omega
  have shiftAmount : (exponent + exponent + shift - 2 * exponent).toNat = shift := by omega
  obtain ⟨small, outcome⟩ := roundToNearestEven_sqrt positive below beyond
  have rooted : sqrt Format.binary64
      (.finite .positive rounded (exponent + exponent + shift) roundedPos) =
        roundWithAccuracy Format.binary64 .positive
          (sqrtCore Format.binary64 rounded (exponent + exponent + shift)).1
          (sqrtCore Format.binary64 rounded (exponent + exponent + shift)).2.1
          (sqrtCore Format.binary64 rounded (exponent + exponent + shift)).2.2 := rfl
  rw [rooted]
  conv_lhs => simp only [sqrtCore, targetExponent_binary64, totalExponent, bits, target,
    shiftAmount, Nat.shiftLeft_eq]
  exact roundWithAccuracy_of_short .positive (by omega) above outcome positive fits

/-- The root of the square of a number of ordinary size is its absolute value. -/
theorem parts_sqrt_mul_self {number : Float} {sign : Sign} (positive : 0 < mantissa)
    (unpacked : parts number = .finite sign mantissa exponent positive) (above : -563 ≤ exponent)
    (small : exponent ≤ 459) :
    parts (number * number).sqrt = .finite .positive mantissa exponent positive := by
  have inRange := inRange_parts number
  rw [unpacked] at inRange
  obtain ⟨upper, normal, -, -⟩ := inRange
  have lower : 2 ^ 52 ≤ mantissa := by omega
  obtain ⟨rounded, shift, roundedPos, result, atLeast, atMost, shifts, below, beyond⟩ :=
    exists_square sign positive lower upper above
  have squared : parts (number * number) =
      .finite .positive rounded (exponent + exponent + shift) roundedPos := by
    refine parts_mul (by rw [unpacked, result]) ?_
    exact ⟨atMost, .inl atLeast, by omega, by omega⟩
  refine parts_sqrt ?_ ⟨upper, .inl lower, by omega, by omega⟩
  rw [squared]
  exact sqrt_near_square roundedPos positive atLeast atMost shifts upper (by omega) below beyond

end Roots

end HybridQuantum
