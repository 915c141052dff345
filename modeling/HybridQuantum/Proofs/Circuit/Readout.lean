import HybridQuantum.Proofs.Circuit.CheckedRun
import HybridQuantum.Proofs.Execution.PointCounts

/-!
# Reading out the classical register

Measurements are done in order, so what a classical bit shows is decided by the
last measurement into it, and a bit that none writes shows `0`.  The text has the
highest bit first, which is how a bitstring is read as a number: a basis state
measured into the lowest bits comes back as itself, whatever number of unwritten
bits lead it.
-/

namespace HybridQuantum.Circuit

/-- The last measurement into a classical bit reads a given qubit. -/
def IsLastInto (measurements : List (Nat × Nat)) (clbit qubit : Nat) : Prop :=
  ∃ before after, measurements = before ++ (qubit, clbit) :: after ∧
    ∀ later ∈ after, later.2 ≠ clbit

/-- Measuring a basis state leaves a classical bit set. -/
def LeavesSet (outcome : Nat) (measurements : List (Nat × Nat)) (clbit : Nat) : Prop :=
  ∃ qubit, IsLastInto measurements clbit qubit ∧ outcome.testBit qubit = true

section LastRead

variable {outcome clbit qubit : Nat} {measurements : List (Nat × Nat)} {initial : Char}

theorem lastRead_of_unwritten (unwritten : ∀ later ∈ measurements, later.2 ≠ clbit) :
    lastRead outcome measurements initial clbit = initial := by
  induction measurements with
  | nil => rfl
  | cons measurement rest ih =>
      obtain ⟨other, others⟩ := List.forall_mem_cons.1 unwritten
      rw [lastRead_cons, if_neg other]
      exact ih others

/-- Whatever comes before it, the last measurement into a bit decides what the bit shows. -/
theorem lastRead_of_isLastInto (last : IsLastInto measurements clbit qubit) :
    lastRead outcome measurements initial clbit = bitChar outcome qubit := by
  obtain ⟨before, after, rfl, later⟩ := last
  rw [lastRead_append, lastRead_cons, if_pos rfl, lastRead_of_unwritten later]

theorem unwritten_or_exists_isLastInto (measurements : List (Nat × Nat)) (clbit : Nat) :
    (∀ measurement ∈ measurements, measurement.2 ≠ clbit) ∨
      ∃ qubit, IsLastInto measurements clbit qubit := by
  induction measurements with
  | nil => exact .inl (List.forall_mem_nil _)
  | cons measurement rest ih =>
      rcases ih with unwritten | ⟨qubit, before, after, rfl, later⟩
      · by_cases written : measurement.2 = clbit
        · subst written
          exact .inr ⟨measurement.1, [], rest, rfl, unwritten⟩
        · exact .inl (List.forall_mem_cons.2 ⟨written, unwritten⟩)
      · exact .inr ⟨qubit, measurement :: before, after, rfl, later⟩

theorem lastRead_cases (outcome : Nat) (measurements : List (Nat × Nat)) {initial : Char}
    (binary : initial = '0' ∨ initial = '1') (clbit : Nat) :
    lastRead outcome measurements initial clbit = '0' ∨
      lastRead outcome measurements initial clbit = '1' := by
  rcases unwritten_or_exists_isLastInto measurements clbit with unwritten | ⟨qubit, last⟩
  · rw [lastRead_of_unwritten unwritten]
    exact binary
  · rw [lastRead_of_isLastInto last]
    exact bitChar_cases outcome qubit

theorem bitChar_eq_one_iff : bitChar outcome qubit = '1' ↔ outcome.testBit qubit = true := by
  unfold bitChar
  split <;> simp [*]

theorem lastRead_eq_one_iff :
    lastRead outcome measurements '0' clbit = '1' ↔ LeavesSet outcome measurements clbit := by
  constructor
  · intro shown
    rcases unwritten_or_exists_isLastInto measurements clbit with unwritten | ⟨qubit, last⟩
    · rw [lastRead_of_unwritten unwritten] at shown
      simp at shown
    · rw [lastRead_of_isLastInto last] at shown
      exact ⟨qubit, last, bitChar_eq_one_iff.1 shown⟩
  · rintro ⟨qubit, last, set⟩
    rw [lastRead_of_isLastInto last]
    exact bitChar_eq_one_iff.2 set

end LastRead

theorem length_readout (outcome : Nat) (measurements : List (Nat × Nat)) (clbits : Nat) :
    (readout outcome measurements clbits).length = clbits := by
  rw [← String.length_toList, toList_readout, List.length_map, List.length_reverse,
    List.length_range]

/-- A classical bit stands as far from the end of the text as its number says. -/
theorem getElem?_toList_readout (outcome : Nat) (measurements : List (Nat × Nat))
    {clbit clbits : Nat} (below : clbit < clbits) :
    (readout outcome measurements clbits).toList[clbits - 1 - clbit]? =
      some (lastRead outcome measurements '0' clbit) := by
  have place : clbits - 1 - (clbits - 1 - clbit) = clbit := by omega
  rw [toList_readout, List.getElem?_map, List.getElem?_reverse (by simp; omega), List.length_range,
    place, List.getElem?_range below]
  rfl

/-- A number measured into the lowest bits is shown in as many binary digits as there are bits. -/
theorem readout_lowest {number width clbits : Nat} (below : number < 2 ^ width) :
    readout number ((List.range width).map fun slot => (slot, slot)) clbits =
      bitsText clbits number := by
  refine readout_eq_bitsText fun clbit _ => ?_
  rw [lastRead_diagonal]
  split
  · rfl
  · rename_i unwritten
    have clear : number.testBit clbit = false :=
      Nat.testBit_lt_two_pow
        (Nat.lt_of_lt_of_le below (Nat.pow_le_pow_right (by decide) (Nat.le_of_not_lt unwritten)))
    simp [bitChar, clear]

/--
Measurements of qubits that a word has bits for, into bits that exist, are read out
without failure, one character for each bit.  The character of a bit stands as far
from the end as the bit's number says; it is `1` exactly when some measurement
writes the bit and the last one that does reads a set qubit, and `0` otherwise.  A
number measured into the lowest bits of any register that has some is read back
from the text as itself, also from more digits than a word has.
-/
theorem readout_shows_last_measurements :
    (∀ (outcome : UInt64) (measurements : List (Nat × Nat)) (clbits : Nat),
      (∀ measurement ∈ measurements, measurement.1 < 64 ∧ measurement.2 < clbits) →
        ∃ text, Checked.readout? outcome measurements clbits = some text ∧
          text = readout outcome.toNat measurements clbits ∧ text.length = clbits ∧
          ∀ clbit < clbits,
            (text.toList[clbits - 1 - clbit]? = some '1' ↔
              LeavesSet outcome.toNat measurements clbit) ∧
            (¬ LeavesSet outcome.toNat measurements clbit →
              text.toList[clbits - 1 - clbit]? = some '0')) ∧
      ∀ (number : UInt64) (width clbits : Nat), 1 ≤ clbits → width ≤ min clbits 64 →
        number.toNat < 2 ^ width →
          Spec.ofBitstring? .int
            (readout number.toNat ((List.range width).map fun slot => (slot, slot)) clbits) =
              some (.uint number) := by
  constructor
  · intro outcome measurements clbits within
    refine ⟨_, Checked.readout?_eq_of_lt outcome within, rfl, length_readout _ _ _,
      fun clbit below => ?_⟩
    rw [getElem?_toList_readout _ _ below, Option.some_inj, Option.some_inj,
      lastRead_eq_one_iff]
    refine ⟨.rfl, fun clear => ?_⟩
    rcases lastRead_cases outcome.toNat measurements (.inl rfl) clbit with zero | one
    · exact zero
    · exact absurd (lastRead_eq_one_iff.1 one) clear
  · intro number width clbits some fits below
    have shorter : 2 ^ width ≤ 2 ^ clbits := Nat.pow_le_pow_right (by decide) (by omega)
    rw [readout_lowest below, Spec.ofBitstring?,
      readBits?_bitsText some number.toNat_lt_size (Nat.lt_of_lt_of_le below shorter),
      UInt64.ofNat_toNat]
    rfl

/--
A bit written twice shows the later measurement, another reads the highest qubit
there can be; seventy digits hold a small number.
-/
theorem readout_shows_overwritten :
    (∃ text, Checked.readout? 0x8000000000000001 [(0, 2), (63, 1), (1, 2)] 4 = some text ∧
      text = "0010" ∧ LeavesSet 0x8000000000000001 [(0, 2), (63, 1), (1, 2)] 1 ∧
        ¬ LeavesSet 0x8000000000000001 [(0, 2), (63, 1), (1, 2)] 2) ∧
      Spec.ofBitstring? .int (readout 5 ((List.range 3).map fun slot => (slot, slot)) 70) =
        some (.uint 5) := by
  obtain ⟨shows, readsBack⟩ := readout_shows_last_measurements
  obtain ⟨text, read, rfl, -, places⟩ :=
    shows 0x8000000000000001 [(0, 2), (63, 1), (1, 2)] 4 (by decide)
  refine ⟨⟨_, read, by decide +kernel, ?_, fun set => ?_⟩,
    readsBack 5 3 70 (by decide) (by decide) (by decide)⟩
  · exact (places 1 (by decide)).1.1 (by decide +kernel)
  · have one := (places 2 (by decide)).1.2 set
    revert one
    decide +kernel

end HybridQuantum.Circuit
