import HybridQuantum.Proofs.Execution.PointCounts

/-!
# Histograms of bitstrings

Counts pass their check exactly when they are a histogram: bitstrings of one
positive width whose counts sum to the shots.  Collecting bitstrings of one width
yields a histogram as long as their number is a word, and the resolvers that pick
one bitstring read it as a word when it is not too wide.
-/

namespace HybridQuantum

namespace Word

theorem ofNat64?_of_lt {number : Nat} (small : number < UInt64.size) :
    ofNat64? number = some (UInt64.ofNat number) :=
  if_pos small

/-- A checked sum of words answers exactly when the mathematical sum is a word. -/
theorem foldlM_add64? (start : UInt64) (words : List UInt64) :
    words.foldlM add64? start =
      ofNat64? (start.toNat + (words.map UInt64.toNat).sum) := by
  induction words generalizing start with
  | nil => simp [ofNat64?_of_lt start.toNat_lt_size]
  | cons word rest ih =>
      rw [List.foldlM_cons, List.map_cons, List.sum_cons, ← Nat.add_assoc]
      by_cases fits : start.toNat + word.toNat < UInt64.size
      · have sum : (start + word).toNat = start.toNat + word.toNat :=
          toNat_of_add64?_eq_some (if_pos fits)
        rw [add64?, if_pos fits]
        simp only [Option.bind_eq_bind, Option.bind_some, ih, sum]
      · rw [add64?, if_neg fits, ofNat64?, if_neg (by omega)]
        rfl

end Word

/-- A text of `width` binary digits. -/
structure IsBitstring (width : Nat) (text : String) : Prop where
  length_eq : text.length = width
  binary : ∀ char ∈ text.toList, char = '0' ∨ char = '1'

/-- Binary digits are one byte each. -/
theorem utf8ByteSize_eq_length {text : String}
    (binary : ∀ char ∈ text.toList, char = '0' ∨ char = '1') :
    text.utf8ByteSize = text.length := by
  induction text using String.push_induction with
  | empty => rfl
  | push text char ih =>
      rw [String.toList_push] at binary
      have rest := ih fun other member => binary other (List.mem_append_left _ member)
      have single : char.utf8Size = 1 := by
        rcases binary char (by simp) with rfl | rfl <;> rfl
      rw [String.utf8ByteSize_push, String.length_push, rest, single]

namespace Counts

theorem checkKey_eq_ok_iff {width : Nat} {text : String} :
    checkKey width text = .ok () ↔ IsBitstring width text := by
  have binary : isBinary text = true ↔ ∀ char ∈ text.toList, char = '0' ∨ char = '1' := by
    simp [isBinary]
  constructor
  · intro passed
    unfold checkKey at passed
    split at passed
    · cases passed
    · rename_i size
      split at passed
      · rename_i digits
        have size := Decidable.not_not.1 size
        rw [utf8ByteSize_eq_length (binary.1 digits)] at size
        exact ⟨size, binary.1 digits⟩
      · cases passed
  · intro bits
    have size : text.utf8ByteSize = width := by
      rw [utf8ByteSize_eq_length bits.binary, bits.length_eq]
    rw [checkKey, if_neg (not_not.2 size), if_pos (binary.2 bits.binary)]

/-- How many observations counts stand for. -/
def occurrences (counts : Counts) : Nat :=
  (counts.entries.map fun entry => entry.2.toNat).sum

/-- Counts of `shots` observations, all of them bitstrings of one width. -/
structure IsHistogram (counts : Counts) (width shots : Nat) : Prop where
  nonempty : counts.entries ≠ []
  keys : ∀ key ∈ counts.keys, IsBitstring width key
  total : counts.occurrences = shots

variable {counts : Counts} {width shots : Nat}

theorem checkKeys_eq_ok_iff :
    counts.checkKeys = .ok () ↔
      counts.entries ≠ [] ∧ ∃ width, 0 < width ∧ ∀ key ∈ counts.keys, IsBitstring width key := by
  unfold checkKeys
  cases listed : counts.keys with
  | nil =>
      have none : counts.entries = [] := List.map_eq_nil_iff.1 listed
      simp [none]
  | cons first rest =>
      have some : counts.entries ≠ [] := by
        intro none
        simp [keys, none] at listed
      simp only [ne_eq, some, not_false_eq_true, true_and]
      split
      · rename_i empty
        constructor
        · intro passed
          cases passed
        · rintro ⟨width, positive, bits⟩
          have own := bits first List.mem_cons_self
          rw [utf8ByteSize_eq_length own.binary, own.length_eq] at empty
          omega
      · rename_i positive
        rw [forM_eq_ok_iff]
        constructor
        · intro passed
          exact ⟨_, Nat.pos_of_ne_zero positive, fun key member =>
            checkKey_eq_ok_iff.1 (passed key member)⟩
        · rintro ⟨width, -, bits⟩ key member
          have own := bits first List.mem_cons_self
          rw [utf8ByteSize_eq_length own.binary, own.length_eq]
          exact checkKey_eq_ok_iff.2 (bits key member)

theorem total?_eq (counts : Counts) : counts.total? = Word.ofNat64? counts.occurrences := by
  rw [total?, Word.foldlM_add64?, occurrences, List.map_map]
  simp [Function.comp_def]

/-- Counts pass their check exactly when they are a histogram of the shots. -/
theorem validate_eq_ok_iff {shots : UInt32} :
    counts.validate shots = .ok () ↔
      ∃ width, 0 < width ∧ counts.IsHistogram width shots.toNat := by
  unfold validate
  cases checked : counts.checkKeys with
  | error cause =>
      constructor
      · intro passed
        cases passed
      · rintro ⟨width, positive, histogram⟩
        rw [checkKeys_eq_ok_iff.2 ⟨histogram.nonempty, width, positive, histogram.keys⟩] at checked
        cases checked
  | ok done =>
      obtain ⟨nonempty, width, positive, bits⟩ := checkKeys_eq_ok_iff.1 checked
      have small := shots.toNat_lt
      rw [total?_eq, Word.ofNat64?]
      by_cases fits : counts.occurrences < UInt64.size
      · simp only [fits, if_true, UInt64.toNat_ofNat_of_lt' fits]
        split
        · rename_i total
          exact ⟨fun _ => ⟨width, positive, nonempty, bits, total⟩, fun _ => rfl⟩
        · rename_i other
          constructor
          · intro passed
            cases passed
          · rintro ⟨_, -, histogram⟩
            exact absurd histogram.total other
      · simp only [fits, if_false]
        constructor
        · intro passed
          cases passed
        · rintro ⟨_, -, histogram⟩
          rw [histogram.total] at fits
          simp only [UInt64.size] at fits
          omega

section Collecting

theorem exists_alterEntry_add {entries : List (String × UInt64)} (bitstring : String)
    {count : UInt64}
    (small : (entries.map fun entry => entry.2.toNat).sum + count.toNat < UInt64.size) :
    ∃ result,
      alterEntry bitstring (fun current => Word.add64? (current.getD 0) count) entries =
        some result ∧
      (result.map fun entry => entry.2.toNat).sum =
        (entries.map fun entry => entry.2.toNat).sum + count.toNat := by
  have fresh : Word.add64? 0 count = some (0 + count) := if_pos (by simpa using count.toNat_lt_size)
  induction entries with
  | nil => exact ⟨[(bitstring, 0 + count)], by simp [alterEntry, fresh], by simp⟩
  | cons head rest ih =>
      obtain ⟨key, held⟩ := head
      simp only [List.map_cons, List.sum_cons] at small ⊢
      simp only [alterEntry]
      split
      · exact ⟨(bitstring, 0 + count) :: (key, held) :: rest, by simp [fresh], by simp; omega⟩
      · split
        · have fits : held.toNat + count.toNat < UInt64.size := by omega
          have sum : Word.add64? held count = some (held + count) := if_pos fits
          refine ⟨(key, held + count) :: rest, by simp [sum], ?_⟩
          rw [List.map_cons, List.sum_cons, Word.toNat_of_add64?_eq_some sum]
          omega
        · obtain ⟨changed, altered, total⟩ := ih (by omega)
          refine ⟨(key, held) :: changed, by simp [altered], ?_⟩
          simp only [List.map_cons, List.sum_cons, total]
          omega

theorem exists_insert? (counts : Counts) (bitstring : String) (count : UInt64)
    (small : counts.occurrences + count.toNat < UInt64.size) :
    ∃ result, counts.insert? bitstring count = some result ∧
      result.occurrences = counts.occurrences + count.toNat ∧
      ∀ key ∈ result.keys, key = bitstring ∨ key ∈ counts.keys := by
  obtain ⟨entries, altered, total⟩ := exists_alterEntry_add bitstring small
  refine ⟨⟨entries, sorted_alterEntry counts.sorted altered⟩, alter?_eq_some altered, total, ?_⟩
  intro key member
  obtain ⟨entry, listed, rfl⟩ := List.mem_map.1 member
  rcases key_of_mem_alterEntry altered entry listed with same | ⟨other, held, same⟩
  · exact .inl same
  · exact .inr (List.mem_map.2 ⟨other, held, same⟩)

theorem exists_foldlM_insert? (counts : Counts) (observations : List (String × UInt64))
    (small : counts.occurrences + (observations.map fun seen => seen.2.toNat).sum < UInt64.size) :
    ∃ result,
      observations.foldlM (fun counts seen => counts.insert? seen.1 seen.2) counts = some result ∧
      result.occurrences =
        counts.occurrences + (observations.map fun seen => seen.2.toNat).sum ∧
      ∀ key ∈ result.keys, key ∈ counts.keys ∨ ∃ seen ∈ observations, seen.1 = key := by
  induction observations generalizing counts with
  | nil => exact ⟨counts, rfl, rfl, fun key member => .inl member⟩
  | cons seen rest ih =>
      rw [List.map_cons, List.sum_cons] at small ⊢
      obtain ⟨next, inserted, more, among⟩ :=
        counts.exists_insert? seen.1 seen.2 (by omega)
      obtain ⟨result, collected, total, keys⟩ := ih next (by omega)
      refine ⟨result, ?_, by omega, fun key member => ?_⟩
      · rw [List.foldlM_cons, inserted]
        exact collected
      · rcases keys key member with earlier | ⟨other, listed, same⟩
        · rcases among key earlier with rfl | before
          · exact .inr ⟨seen, List.mem_cons_self, rfl⟩
          · exact .inl before
        · exact .inr ⟨other, List.mem_cons_of_mem _ listed, same⟩

/-- Collected bitstrings of one width are a histogram. -/
theorem exists_isHistogram_of_collect {observations : List (String × UInt64)}
    (bits : ∀ seen ∈ observations, IsBitstring width seen.1)
    (total : (observations.map fun seen => seen.2.toNat).sum = shots) (positive : 0 < shots)
    (small : shots < UInt64.size) :
    ∃ counts, collect? observations = some counts ∧ counts.IsHistogram width shots := by
  have none : empty.occurrences = 0 := rfl
  obtain ⟨counts, collected, sum, among⟩ :=
    empty.exists_foldlM_insert? observations (by omega)
  refine ⟨counts, collected, fun absent => ?_, fun key member => ?_, by omega⟩
  · rw [occurrences, absent] at sum
    simp at sum
    omega
  · rcases among key member with outside | ⟨seen, listed, rfl⟩
    · cases outside
    · exact bits seen listed

end Collecting

section Choosing

theorem foldl_choose_mem (beats : UInt64 → UInt64 → Bool) (best : String × UInt64)
    (entries : List (String × UInt64)) :
    entries.foldl (fun best next => if beats next.2 best.2 then next else best) best ∈
      best :: entries := by
  induction entries generalizing best with
  | nil => simp
  | cons entry rest ih =>
      rw [List.foldl_cons]
      split
      · exact List.mem_cons_of_mem _ (ih entry)
      · rcases List.mem_cons.1 (ih best) with same | member
        · exact List.mem_cons.2 (.inl same)
        · exact List.mem_cons_of_mem _ (List.mem_cons_of_mem _ member)

theorem exists_first? (beats : UInt64 → UInt64 → Bool) {entries : List (String × UInt64)}
    (nonempty : entries ≠ []) : ∃ entry ∈ entries, first? beats entries = some entry := by
  cases entries with
  | nil => exact absurd rfl nonempty
  | cons entry rest => exact ⟨_, foldl_choose_mem beats entry rest, rfl⟩

end Choosing

end Counts

theorem foldl_digits_lt (digits : List Char) (total : Nat) :
    digits.foldl (fun total digit => 2 * total + (if digit == '1' then 1 else 0)) total <
      (total + 1) * 2 ^ digits.length := by
  induction digits generalizing total with
  | nil => simp
  | cons digit rest ih =>
      rw [List.foldl_cons, List.length_cons, Nat.pow_succ]
      refine Nat.lt_of_lt_of_le (ih _) ?_
      have step : 2 * total + (if digit == '1' then 1 else 0) + 1 ≤ (total + 1) * 2 := by
        split <;> omega
      calc
        (2 * total + (if digit == '1' then 1 else 0) + 1) * 2 ^ rest.length
          ≤ (total + 1) * 2 * 2 ^ rest.length := Nat.mul_le_mul_right _ step
        _ = (total + 1) * (2 ^ rest.length * 2) := by ring

/-- A bitstring of at most sixty-four digits is read as a word. -/
theorem IsBitstring.exists_readBits? {text : String} {width : Nat} (bits : IsBitstring width text)
    (positive : 0 < width) (short : width ≤ 64) : ∃ word, Spec.readBits? text = some word := by
  have length : text.toList.length = width := String.length_toList.trans bits.length_eq
  cases shape : text.toList with
  | nil => simp [shape] at length; omega
  | cons first rest =>
      have digits := bits.binary
      rw [shape] at digits length
      have unsigned : first ≠ '+' := by
        rcases digits first List.mem_cons_self with rfl | rfl <;> decide
      have binary : (first :: rest).all (fun digit => digit == '0' || digit == '1') = true := by
        simpa using digits
      have value : Spec.digitsValue (first :: rest) < UInt64.size := by
        have below := foldl_digits_lt (first :: rest) 0
        rw [length, Nat.zero_add, Nat.one_mul] at below
        exact Nat.lt_of_lt_of_le below (Nat.pow_le_pow_right (by decide) short)
      exact ⟨_, by rw [readBits?_of_unsigned shape unsigned, if_pos binary,
        Word.ofNat64?_of_lt value]⟩

namespace Counts.IsHistogram

variable {counts : Counts} {width shots : Nat}

theorem exists_choose (histogram : counts.IsHistogram width shots) (positive : 0 < width)
    (short : width ≤ 64) (beats : UInt64 → UInt64 → Bool) :
    ∃ word, Resolver.choose (first? beats counts.entries) .int = .ok (.value (.uint word)) := by
  obtain ⟨⟨key, count⟩, listed, chosen⟩ := exists_first? beats histogram.nonempty
  have bits := histogram.keys key (List.mem_map.2 ⟨_, listed, rfl⟩)
  obtain ⟨word, read⟩ := bits.exists_readBits? positive short
  exact ⟨word, by simp only [chosen, Resolver.choose, Spec.ofBitstring?, read, Option.map_some]⟩

end Counts.IsHistogram

end HybridQuantum
