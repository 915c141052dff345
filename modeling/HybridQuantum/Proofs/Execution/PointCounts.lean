import HybridQuantum.Cast.Resolver
import HybridQuantum.Proofs.Circuit.BasisState
import Mathlib.Tactic.Ring

/-!
# Counts of a single bitstring

Observing one bitstring yields counts with a single entry.  The most frequent
bitstring of such counts is that bitstring, and a number written in binary digits
is read back as itself.
-/

namespace HybridQuantum

namespace Counts

/-- Counts in which a single bitstring occurs. -/
def point (bitstring : String) (count : UInt64) : Counts :=
  ⟨[(bitstring, count)], List.pairwise_singleton _ _⟩

theorem alter?_eq_some {counts result : Counts} {bitstring : String}
    {change : Option UInt64 → Option UInt64}
    (altered : alterEntry bitstring change counts.entries = some result.entries) :
    counts.alter? bitstring change = some result := by
  unfold alter?
  split
  · rename_i entries found
    rw [altered] at found
    cases found
    rfl
  · rename_i refused
    rw [altered] at refused
    cases refused

theorem add64?_one {count : Nat} (small : count + 1 < UInt64.size) :
    Word.add64? (UInt64.ofNat count) 1 = some (UInt64.ofNat (count + 1)) := by
  have exact : (UInt64.ofNat count).toNat = count := UInt64.toNat_ofNat_of_lt' (by omega)
  have fits : (UInt64.ofNat count).toNat + (1 : UInt64).toNat < UInt64.size := by
    rw [exact]
    exact small
  rw [Word.add64?, if_pos fits, UInt64.ofNat_add]
  rfl

/-- A single observation of a bitstring makes up the counts. -/
theorem collect?_singleton (bitstring : String) (count : UInt64) :
    collect? [(bitstring, count)] = some (point bitstring count) := by
  have fresh : Word.add64? 0 count = some count := by
    rw [Word.add64?, if_pos (by simpa using count.toNat_lt_size), UInt64.zero_add]
  have inserted : empty.insert? bitstring count = some (point bitstring count) :=
    alter?_eq_some (by simp [alterEntry, empty, point, fresh])
  simp [collect?, inserted]

@[simp]
theorem mostFrequent?_point (bitstring : String) (count : UInt64) :
    (point bitstring count).mostFrequent? = some (bitstring, count) :=
  rfl

end Counts

section BinaryDigits

open Circuit

theorem toList_bitsText (width number : Nat) :
    (bitsText width number).toList = (List.range width).reverse.map (bitChar number) := by
  rw [bitsText, String.toList_ofList]

theorem bitChar_cases (number bit : Nat) : bitChar number bit = '0' ∨ bitChar number bit = '1' := by
  unfold bitChar
  split
  · exact .inr rfl
  · exact .inl rfl

theorem foldl_bitChars (number width total : Nat) :
    ((List.range width).reverse.map (bitChar number)).foldl
        (fun total digit => 2 * total + (if digit == '1' then 1 else 0)) total =
      total * 2 ^ width + number % 2 ^ width := by
  induction width generalizing total with
  | zero => simp [Nat.mod_one]
  | succ width ih =>
      have digit : (if bitChar number width == '1' then 1 else 0) = number / 2 ^ width % 2 := by
        have bit : number.testBit width = decide (number / 2 ^ width % 2 = 1) :=
          Nat.testBit_eq_decide_div_mod_eq
        rcases Nat.mod_two_eq_zero_or_one (number / 2 ^ width) with even | odd
        · simp [bitChar, bit, even]
        · simp [bitChar, bit, odd]
      rw [List.range_succ, List.reverse_append, List.reverse_singleton, List.singleton_append,
        List.map_cons, List.foldl_cons, ih, digit, Nat.mod_pow_succ, Nat.pow_succ]
      ring

theorem digitsValue_bitChars {number width : Nat} (below : number < 2 ^ width) :
    Spec.digitsValue ((List.range width).reverse.map (bitChar number)) = number := by
  have value := foldl_bitChars number width 0
  rwa [Nat.zero_mul, Nat.zero_add, Nat.mod_eq_of_lt below] at value

theorem readBits?_of_unsigned {bits : String} {first : Char} {rest : List Char}
    (shape : bits.toList = first :: rest) (unsigned : first ≠ '+') :
    Spec.readBits? bits =
      if (first :: rest).all (fun digit => digit == '0' || digit == '1') then
        Word.ofNat64? (Spec.digitsValue (first :: rest))
      else none := by
  have plain : Spec.readBits? bits =
      if (first :: rest).isEmpty || !(first :: rest).all (fun digit => digit == '0' || digit == '1')
      then none else Word.ofNat64? (Spec.digitsValue (first :: rest)) := by
    unfold Spec.readBits?
    rw [shape]
    simp [unsigned]
  rw [plain]
  cases (first :: rest).all (fun digit => digit == '0' || digit == '1') <;> simp

/-- A word in binary digits is read back as itself, whatever zeros lead it. -/
theorem readBits?_bitsText {number width : Nat} (positive : 0 < width)
    (word : number < UInt64.size) (below : number < 2 ^ width) :
    Spec.readBits? (bitsText width number) = some (UInt64.ofNat number) := by
  obtain ⟨shorter, rfl⟩ : ∃ shorter, width = shorter + 1 := ⟨width - 1, by omega⟩
  have shape : (bitsText (shorter + 1) number).toList =
      bitChar number shorter :: (List.range shorter).reverse.map (bitChar number) := by
    rw [toList_bitsText, List.range_succ, List.reverse_append, List.reverse_singleton,
      List.singleton_append, List.map_cons]
  have unsigned : bitChar number shorter ≠ '+' := by
    rcases bitChar_cases number shorter with digit | digit <;> simp [digit]
  have binary : ((List.range (shorter + 1)).reverse.map (bitChar number)).all
      (fun digit => digit == '0' || digit == '1') = true := by
    rw [List.all_map, List.all_eq_true]
    intro bit _
    rcases bitChar_cases number bit with digit | digit <;> simp [digit]
  rw [readBits?_of_unsigned shape unsigned, ← shape, toList_bitsText, if_pos binary,
    digitsValue_bitChars below, Word.ofNat64?, if_pos word]

/-- The most frequent outcome of a number's counts is the number. -/
theorem highest_point {number width : Nat} (positive : 0 < width) (short : width ≤ 64)
    (below : number < 2 ^ width) (count : UInt64) :
    Resolver.highest (.point (bitsText width number) count) .int =
      .ok (.value (.uint (UInt64.ofNat number))) := by
  have word : number < UInt64.size :=
    Nat.lt_of_lt_of_le below (Nat.pow_le_pow_right (by decide) short)
  simp [Resolver.highest, Resolver.choose, Spec.ofBitstring?,
    readBits?_bitsText positive word below]

end BinaryDigits

end HybridQuantum
