import HybridQuantum.Cast.Resolver
import HybridQuantum.Proofs.Execution.Histogram
import HybridQuantum.Proofs.Text.ByteOrder
import Mathlib.Algebra.BigOperators.Group.List.Basic
import Mathlib.Data.List.Induction

/-!
# Counts do not depend on arrival order

What observations add up to is a property of how often each bitstring was given,
in whatever order.  Collecting them fails exactly when one bitstring was given
more often than a word can tell.  The most and the least frequent bitstring are
a property of the entries alone; of several that are equally frequent it is the
one with the smallest bytes.
-/

namespace HybridQuantum.Counts

section Entries

variable {entries result : List (String × UInt64)} {bitstring : String}
  {change : Option UInt64 → Option UInt64}

theorem lookup_eq_none_of_below (below : ∀ entry ∈ entries, bitstring < entry.1) :
    entries.lookup bitstring = none :=
  List.lookup_eq_none_iff.2 fun entry member => bne_iff_ne.2 (ne_of_lt (below entry member))

theorem lookup_eq_none_of_lt {key : String} {count : UInt64}
    (sorted : ((key, count) :: entries).Pairwise fun left right => left.1 < right.1)
    (less : bitstring < key) : ((key, count) :: entries).lookup bitstring = none := by
  refine lookup_eq_none_of_below fun entry member => ?_
  rcases List.mem_cons.1 member with rfl | later
  · exact less
  · exact String.lt_trans less ((List.pairwise_cons.1 sorted).1 entry later)

/-- A change at a bitstring is one of what is noted under it. -/
theorem alterEntry_eq_none_iff
    (sorted : entries.Pairwise fun left right => left.1 < right.1) :
    alterEntry bitstring change entries = none ↔ change (entries.lookup bitstring) = none := by
  induction entries with
  | nil => simp [alterEntry]
  | cons head rest ih =>
      obtain ⟨key, count⟩ := head
      have restSorted := (List.pairwise_cons.1 sorted).2
      rw [alterEntry]
      split
      · rename_i less
        rw [lookup_eq_none_of_lt sorted less, Option.map_eq_none_iff]
      · split
        · rename_i same
          rw [Option.map_eq_none_iff, same, List.lookup_cons_self]
        · rename_i different
          rw [Option.map_eq_none_iff, ih restSorted, List.lookup_cons, beq_false_of_ne different]

/-- A change at a bitstring leaves what is noted under the others. -/
theorem lookup_alterEntry (sorted : entries.Pairwise fun left right => left.1 < right.1)
    (altered : alterEntry bitstring change entries = some result) (other : String) :
    result.lookup other =
      if other = bitstring then change (entries.lookup bitstring) else entries.lookup other := by
  induction entries generalizing result with
  | nil =>
      obtain ⟨count, changed, rfl⟩ := Option.map_eq_some_iff.1 altered
      split
      · rename_i same
        simp [same, changed]
      · rename_i apart
        simp [List.lookup_cons, beq_false_of_ne apart]
  | cons head rest ih =>
      obtain ⟨key, count⟩ := head
      have restSorted := (List.pairwise_cons.1 sorted).2
      rw [alterEntry] at altered
      split at altered
      · rename_i less
        obtain ⟨fresh, changed, rfl⟩ := Option.map_eq_some_iff.1 altered
        rw [lookup_eq_none_of_lt sorted less, changed, List.lookup_cons]
        by_cases same : other = bitstring
        · simp [same]
        · simp [same, beq_false_of_ne same]
      · split at altered
        · rename_i same
          obtain ⟨changed, found, rfl⟩ := Option.map_eq_some_iff.1 altered
          rw [same, List.lookup_cons_self, found, List.lookup_cons, List.lookup_cons]
          by_cases own : other = key
          · simp [own]
          · simp [own, beq_false_of_ne own]
        · rename_i different
          obtain ⟨changed, found, rfl⟩ := Option.map_eq_some_iff.1 altered
          rw [List.lookup_cons, List.lookup_cons, List.lookup_cons, ih restSorted found,
            beq_false_of_ne different]
          by_cases own : other = key
          · subst own
            simp [Ne.symm different]
          · simp [beq_false_of_ne own]

/-- Sorted entries are told apart by what is noted under some bitstring. -/
theorem eq_of_lookup {left right : List (String × UInt64)}
    (leftSorted : left.Pairwise fun first second => first.1 < second.1)
    (rightSorted : right.Pairwise fun first second => first.1 < second.1)
    (same : ∀ bitstring, left.lookup bitstring = right.lookup bitstring) : left = right := by
  induction left generalizing right with
  | nil =>
      cases right with
      | nil => rfl
      | cons head rest =>
          obtain ⟨key, count⟩ := head
          simpa using same key
  | cons head rest ih =>
      obtain ⟨key, count⟩ := head
      cases right with
      | nil => simpa using same key
      | cons other others =>
          obtain ⟨otherKey, otherCount⟩ := other
          rcases lt_trichotomy key otherKey with before | rfl | behind
          · simpa [lookup_eq_none_of_lt rightSorted before] using same key
          · have counts : count = otherCount := by simpa using same key
            subst counts
            congr 1
            refine ih (List.pairwise_cons.1 leftSorted).2 (List.pairwise_cons.1 rightSorted).2
              fun bitstring => ?_
            by_cases own : bitstring = key
            · rw [own, lookup_eq_none_of_below (List.pairwise_cons.1 leftSorted).1,
                lookup_eq_none_of_below (List.pairwise_cons.1 rightSorted).1]
            · simpa [List.lookup_cons, beq_false_of_ne own] using same bitstring
          · simpa [lookup_eq_none_of_lt leftSorted behind] using same otherKey

end Entries

section Collecting

/-- How often observations give a bitstring, all their counts for it together. -/
def given (observations : List (String × UInt64)) (bitstring : String) : Nat :=
  ((observations.filter fun seen => seen.1 = bitstring).map fun seen => seen.2.toNat).sum

/-- Counts with an entry for each bitstring that is given, and no other. -/
structure IsTally (observations : List (String × UInt64)) (counts : Counts) : Prop where
  entry : ∀ bitstring, counts.entries.lookup bitstring =
    if bitstring ∈ observations.map Prod.fst then
      some (UInt64.ofNat (given observations bitstring))
    else none
  small : ∀ bitstring, given observations bitstring < UInt64.size

variable {observations permuted : List (String × UInt64)} {counts : Counts}

theorem given_perm (perm : observations.Perm permuted) (bitstring : String) :
    given observations bitstring = given permuted bitstring :=
  ((perm.filter _).map _).sum_eq

theorem given_append_singleton (observations : List (String × UInt64)) (seen : String × UInt64)
    (bitstring : String) :
    given (observations ++ [seen]) bitstring =
      given observations bitstring + if bitstring = seen.1 then seen.2.toNat else 0 := by
  by_cases own : seen.1 = bitstring
  · simp [given, own]
  · simp [given, own, Ne.symm own]

theorem given_eq_zero {bitstring : String} (absent : bitstring ∉ observations.map Prod.fst) :
    given observations bitstring = 0 := by
  have none : observations.filter (fun seen => seen.1 = bitstring) = [] := by
    refine List.filter_eq_nil_iff.2 fun seen member => ?_
    rw [decide_eq_true_eq]
    rintro rfl
    exact absent (List.mem_map_of_mem member)
  rw [given, none, List.map_nil, List.sum_nil]

namespace IsTally

theorem toNat_get (tally : IsTally observations counts) (bitstring : String) :
    (counts.get bitstring).toNat = given observations bitstring := by
  rw [get, tally.entry]
  split
  · rw [Option.getD_some, UInt64.toNat_ofNat_of_lt' (tally.small bitstring)]
  · rename_i absent
    rw [Option.getD_none, given_eq_zero absent]
    rfl

theorem empty : IsTally [] .empty where
  entry _ := rfl
  small _ := Nat.two_pow_pos 64

theorem eq_of_perm (tally : IsTally observations counts) {others : Counts}
    (perm : observations.Perm permuted) (otherTally : IsTally permuted others) :
    counts = others := by
  have same : counts.entries = others.entries := by
    refine eq_of_lookup counts.sorted others.sorted fun bitstring => ?_
    simp only [tally.entry, otherTally.entry, given_perm perm, (perm.map Prod.fst).mem_iff]
  cases counts
  cases others
  cases same
  rfl

end IsTally

theorem alter?_eq_none {bitstring : String} {change : Option UInt64 → Option UInt64}
    (refused : alterEntry bitstring change counts.entries = none) :
    counts.alter? bitstring change = none := by
  unfold alter?
  split
  · rename_i altered
    rw [refused] at altered
    cases altered
  · rfl

/-- Adding occurrences of a bitstring fails on overflow only, and changes its entry only. -/
theorem insert?_cases (counts : Counts) (bitstring : String) (count : UInt64) :
    (counts.insert? bitstring count = none ∧
        UInt64.size ≤ (counts.get bitstring).toNat + count.toNat) ∨
      ∃ result sum, counts.insert? bitstring count = some result ∧
        Word.add64? (counts.get bitstring) count = some sum ∧
        ∀ other, result.entries.lookup other =
          if other = bitstring then some sum else counts.entries.lookup other := by
  cases altered : alterEntry bitstring (fun current => Word.add64? (current.getD 0) count)
      counts.entries with
  | none =>
      have overflow : Word.add64? (counts.get bitstring) count = none :=
        (alterEntry_eq_none_iff counts.sorted).1 altered
      exact .inl ⟨alter?_eq_none altered, by simpa [Word.add64?] using overflow⟩
  | some entries =>
      have fits : Word.add64? (counts.get bitstring) count ≠ none := fun overflow =>
        Option.some_ne_none entries
          (altered.symm.trans ((alterEntry_eq_none_iff counts.sorted).2 overflow))
      obtain ⟨sum, added⟩ := Option.ne_none_iff_exists'.1 fits
      let result : Counts := ⟨entries, sorted_alterEntry counts.sorted altered⟩
      refine .inr ⟨result, sum, alter?_eq_some altered, added, fun other => ?_⟩
      rw [← added]
      exact lookup_alterEntry counts.sorted altered other

theorem collect?_append_singleton (observations : List (String × UInt64))
    (seen : String × UInt64) :
    collect? (observations ++ [seen]) =
      (collect? observations).bind fun counts => counts.insert? seen.1 seen.2 := by
  rw [collect?, List.foldlM_append]
  simp only [List.foldlM_cons, List.foldlM_nil, bind_pure]
  rfl

theorem IsTally.insert {result : Counts} {seen : String × UInt64} {sum : UInt64}
    (tally : IsTally observations counts)
    (added : Word.add64? (counts.get seen.1) seen.2 = some sum)
    (entry : ∀ other, result.entries.lookup other =
      if other = seen.1 then some sum else counts.entries.lookup other) :
    IsTally (observations ++ [seen]) result := by
  have total : sum.toNat = given (observations ++ [seen]) seen.1 := by
    rw [Word.toNat_of_add64?_eq_some added, tally.toNat_get, given_append_singleton, if_pos rfl]
  have apart {bitstring : String} (other : bitstring ≠ seen.1) :
      given (observations ++ [seen]) bitstring = given observations bitstring := by
    rw [given_append_singleton, if_neg other, Nat.add_zero]
  refine ⟨fun bitstring => ?_, fun bitstring => ?_⟩
  · rw [entry]
    by_cases own : bitstring = seen.1
    · rw [if_pos own, if_pos (by simp [own]), own, ← total, UInt64.ofNat_toNat]
    · have listed : bitstring ∈ (observations ++ [seen]).map Prod.fst ↔
          bitstring ∈ observations.map Prod.fst := by simp [own]
      rw [if_neg own, tally.entry, apart own, if_congr listed rfl rfl]
  · by_cases own : bitstring = seen.1
    · rw [own, ← total]
      exact sum.toNat_lt_size
    · rw [apart own]
      exact tally.small bitstring

/-- Observations add up to a tally, or one bitstring is given more often than a word can tell. -/
theorem collect?_cases (observations : List (String × UInt64)) :
    (∃ counts, collect? observations = some counts ∧ IsTally observations counts) ∨
      (collect? observations = none ∧
        ∃ bitstring, UInt64.size ≤ given observations bitstring) := by
  induction observations using List.reverseRecOn with
  | nil => exact .inl ⟨empty, rfl, .empty⟩
  | append_singleton observations seen ih =>
      rw [collect?_append_singleton]
      rcases ih with ⟨counts, collected, tally⟩ | ⟨failed, bitstring, large⟩
      · rw [collected, Option.bind_some]
        rcases counts.insert?_cases seen.1 seen.2 with
          ⟨refused, large⟩ | ⟨result, sum, inserted, added, entry⟩
        · refine .inr ⟨refused, seen.1, ?_⟩
          rwa [given_append_singleton, if_pos rfl, ← tally.toNat_get]
        · exact .inl ⟨result, inserted, tally.insert added entry⟩
      · refine .inr ⟨by rw [failed, Option.bind_none], bitstring, ?_⟩
        rw [given_append_singleton]
        exact Nat.le_add_right_of_le large

theorem isTally_of_collect? (collected : collect? observations = some counts) :
    IsTally observations counts := by
  rcases collect?_cases observations with ⟨others, same, tally⟩ | ⟨failed, -⟩
  · cases collected.symm.trans same
    exact tally
  · cases collected.symm.trans failed

theorem collect?_eq_none_iff :
    collect? observations = none ↔ ∃ bitstring, UInt64.size ≤ given observations bitstring := by
  rcases collect?_cases observations with ⟨counts, collected, tally⟩ | ⟨failed, large⟩
  · simp [collected, tally.small]
  · simp [failed, large]

theorem collect?_perm (perm : observations.Perm permuted) :
    collect? observations = collect? permuted := by
  cases collected : collect? permuted with
  | none => simpa only [collect?_eq_none_iff, given_perm perm] using collected
  | some counts =>
      rcases collect?_cases observations with ⟨others, same, tally⟩ | ⟨failed, large⟩
      · rw [same, tally.eq_of_perm perm (isTally_of_collect? collected)]
      · simp only [given_perm perm, ← collect?_eq_none_iff, collected] at large
        cases large

end Collecting

section Extremes

/-- Of the entries whose count is extreme, the one with the smallest bytes. -/
structure IsFirstExtreme (atMost : UInt64 → UInt64 → Prop) (entries : List (String × UInt64))
    (best : String × UInt64) : Prop where
  mem : best ∈ entries
  extreme : ∀ entry ∈ entries, atMost entry.2 best.2
  smallest : ∀ entry ∈ entries, entry.2 = best.2 →
    Text.utf8Bytes best.1 ≤ Text.utf8Bytes entry.1

instance : IsLinearOrder UInt64 (· ≤ ·) where
  refl := UInt64.le_refl
  trans _ _ _ := UInt64.le_trans
  antisymm _ _ := UInt64.le_antisymm
  total := UInt64.le_total

instance : IsLinearOrder UInt64 (· ≥ ·) :=
  inferInstanceAs (IsLinearOrder UInt64 (Function.swap (· ≤ ·)))

variable {atMost : UInt64 → UInt64 → Prop} [IsLinearOrder UInt64 atMost]
  {beats : UInt64 → UInt64 → Bool} {entries : List (String × UInt64)}
  {best other : String × UInt64}

theorem IsFirstExtreme.unique (first : IsFirstExtreme atMost entries best)
    (second : IsFirstExtreme atMost entries other) : best = other := by
  have counts : best.2 = other.2 :=
    antisymm_of atMost (second.extreme best first.mem) (first.extreme other second.mem)
  have below := Text.le_iff_utf8Bytes_le.2 (first.smallest other second.mem counts.symm)
  have above := Text.le_iff_utf8Bytes_le.2 (second.smallest best first.mem counts)
  exact Prod.ext (le_antisymm below above) counts

/--
The scan over sorted entries that keeps what nothing later beats ends at the first extreme:
an entry that does not beat the one kept comes after it, also when the two are even.
-/
theorem isFirstExtreme_foldl (decides : ∀ next best, beats next best = true ↔ ¬ atMost next best)
    (sorted : (best :: entries).Pairwise fun left right => left.1 < right.1) :
    IsFirstExtreme atMost (best :: entries)
      (entries.foldl (fun best next => if beats next.2 best.2 then next else best) best) := by
  induction entries generalizing best with
  | nil =>
      refine ⟨List.mem_cons_self, fun entry member => ?_, fun entry member _ => ?_⟩
      · rw [List.mem_singleton.1 member]
        exact refl_of atMost _
      · rw [List.mem_singleton.1 member]
        exact Text.le_iff_utf8Bytes_le.1 (le_refl _)
  | cons next rest ih =>
      have ⟨below, restSorted⟩ := List.pairwise_cons.1 sorted
      rw [List.foldl_cons]
      by_cases beaten : beats next.2 best.2 = true
      · have above := (decides _ _).1 beaten
        have chosen := ih restSorted
        rw [if_pos beaten]
        generalize rest.foldl _ next = final at chosen
        have least := chosen.extreme next List.mem_cons_self
        refine ⟨List.mem_cons_of_mem _ chosen.mem,
          List.forall_mem_cons.2 ⟨?_, chosen.extreme⟩,
          List.forall_mem_cons.2 ⟨fun tie => ?_, chosen.smallest⟩⟩
        · exact trans_of atMost ((total_of atMost _ _).resolve_left above) least
        · exact absurd (tie ▸ least) above
      · have under : atMost next.2 best.2 := not_not.1 (mt (decides _ _).2 beaten)
        have later := List.pairwise_cons.1 restSorted
        have chosen := ih (List.pairwise_cons.2
          ⟨fun entry member => below entry (List.mem_cons_of_mem _ member), later.2⟩)
        rw [if_neg beaten]
        generalize rest.foldl _ best = final at chosen
        have ⟨bestUnder, restUnder⟩ := List.forall_mem_cons.1 chosen.extreme
        have ⟨bestTie, restTie⟩ := List.forall_mem_cons.1 chosen.smallest
        refine ⟨?_,
          List.forall_mem_cons.2 ⟨bestUnder, List.forall_mem_cons.2 ⟨?_, restUnder⟩⟩,
          List.forall_mem_cons.2 ⟨bestTie, List.forall_mem_cons.2 ⟨fun tie => ?_, restTie⟩⟩⟩
        · rcases List.mem_cons.1 chosen.mem with same | member
          · exact same ▸ List.mem_cons_self
          · exact List.mem_cons_of_mem _ (List.mem_cons_of_mem _ member)
        · exact trans_of atMost under bestUnder
        · have even : best.2 = final.2 := antisymm_of atMost bestUnder (tie ▸ under)
          have before := le_of_lt (below next List.mem_cons_self)
          exact Text.le_iff_utf8Bytes_le.1
            (le_trans (Text.le_iff_utf8Bytes_le.2 (bestTie even)) before)

theorem first?_eq_none_iff : first? beats entries = none ↔ entries = [] := by
  cases entries <;> simp [first?]

theorem first?_eq_some_iff (decides : ∀ next best, beats next best = true ↔ ¬ atMost next best)
    (sorted : entries.Pairwise fun left right => left.1 < right.1) :
    first? beats entries = some best ↔ IsFirstExtreme atMost entries best := by
  cases entries with
  | nil =>
      constructor
      · intro found
        cases found
      · intro chosen
        cases chosen.mem
  | cons entry rest =>
      have chosen := isFirstExtreme_foldl decides sorted
      rw [first?, Option.some.injEq]
      exact ⟨fun same => same ▸ chosen, fun first => chosen.unique first⟩

theorem mostFrequent?_eq_some_iff (counts : Counts) :
    counts.mostFrequent? = some best ↔ IsFirstExtreme (· ≤ ·) counts.entries best :=
  first?_eq_some_iff (by simp) counts.sorted

theorem leastFrequent?_eq_some_iff (counts : Counts) :
    counts.leastFrequent? = some best ↔ IsFirstExtreme (· ≥ ·) counts.entries best :=
  first?_eq_some_iff (by simp) counts.sorted

end Extremes

/--
Collecting observations in another order yields equal counts, or overflows in
both: when some bitstring is given more often than a word can tell.  What is
noted under a bitstring is how often it was given.  The most frequent bitstring
of any counts is the one with the smallest bytes among those of the greatest
count, the least frequent one likewise, and there is none only of empty counts;
the resolvers that choose one of them resolve reordered observations alike.
-/
theorem collect?_in_any_order {observations permuted : List (String × UInt64)}
    (perm : observations.Perm permuted) :
    collect? observations = collect? permuted ∧
      (collect? observations = none ↔
        ∃ bitstring, UInt64.size ≤ given observations bitstring) ∧
      (∀ counts, collect? observations = some counts →
        IsTally observations counts ∧
        ∀ bitstring, (counts.get bitstring).toNat = given observations bitstring) ∧
      (∀ counts : Counts,
        (counts.mostFrequent? = none ↔ counts.entries = []) ∧
        (counts.leastFrequent? = none ↔ counts.entries = []) ∧
        ∀ best,
          (counts.mostFrequent? = some best ↔ IsFirstExtreme (· ≤ ·) counts.entries best) ∧
          (counts.leastFrequent? = some best ↔ IsFirstExtreme (· ≥ ·) counts.entries best)) ∧
      ∀ spec,
        (collect? observations).map (Resolver.highest · spec) =
          (collect? permuted).map (Resolver.highest · spec) ∧
        (collect? observations).map (Resolver.lowest · spec) =
          (collect? permuted).map (Resolver.lowest · spec) := by
  have same := collect?_perm perm
  refine ⟨same, collect?_eq_none_iff, fun counts collected => ?_, fun counts => ?_, fun spec => ?_⟩
  · have tally := isTally_of_collect? collected
    exact ⟨tally, tally.toNat_get⟩
  · exact ⟨first?_eq_none_iff, first?_eq_none_iff, fun best =>
      ⟨counts.mostFrequent?_eq_some_iff, counts.leastFrequent?_eq_some_iff⟩⟩
  · rw [same]
    exact ⟨rfl, rfl⟩

/-- Two bitstrings are equally frequent, one of them given twice. -/
def evenCounts : Counts :=
  ⟨[("01", 3), ("10", 3), ("11", 1)], by decide⟩

/-- Of two equally frequent bitstrings the smaller one is chosen, in whatever order they came. -/
theorem collect?_in_any_order_even :
    [("10", 1), ("01", 3), ("10", 2), ("11", 1)].Perm
        [("11", 1), ("10", (2 : UInt64)), ("10", 1), ("01", 3)] ∧
      collect? [("11", 1), ("10", 2), ("10", 1), ("01", 3)] = some evenCounts ∧
      (evenCounts.get "10").toNat = given [("10", 1), ("01", 3), ("10", 2), ("11", 1)] "10" ∧
      IsFirstExtreme (· ≤ ·) evenCounts.entries ("01", 3) ∧
      IsFirstExtreme (· ≥ ·) evenCounts.entries ("11", 1) := by
  have perm : [("10", 1), ("01", 3), ("10", 2), ("11", 1)].Perm
      [("11", 1), ("10", (2 : UInt64)), ("10", 1), ("01", 3)] := by decide
  have collected : collect? [("10", 1), ("01", 3), ("10", 2), ("11", 1)] = some evenCounts := by
    rfl
  obtain ⟨same, -, sums, extremes, -⟩ := collect?_in_any_order perm
  obtain ⟨-, -, chosen⟩ := extremes evenCounts
  exact ⟨perm, same ▸ collected, (sums _ collected).2 "10", (chosen _).1.1 rfl, (chosen _).2.1 rfl⟩

end HybridQuantum.Counts
