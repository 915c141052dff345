import HybridQuantum.Proofs.Circuit.Loops
import HybridQuantum.Proofs.Numeric.Binary64
import Mathlib.Data.List.Induction

/-!
# Sampling

A draw picks the first basis state whose running sum exceeds it, and the last one of
positive weight if none does.  A weight of zero leaves the comparison with the running
sum as it was, so neither of the two is a state of weight zero.
-/

namespace HybridQuantum.Circuit.Sampler

variable {weights : Array Float} {draw : Float}

/-- The sum of the first weights, rounded after each one. -/
def sumTo (weights : Array Float) (count : Nat) : Float :=
  (weights.toList.take count).foldl (· + ·) 0

theorem sumTo_succ {index : Nat} {weight : Float} (here : weights[index]? = some weight) :
    sumTo weights (index + 1) = sumTo weights index + weight := by
  rw [sumTo, List.take_add_one, Array.getElem?_toList, here, Option.toList_some,
    List.foldl_append]
  rfl

theorem foldl_push_sum (weights : List Float) (sums : Array Float) (sum : Float) :
    (weights.foldl (fun (sums, sum) weight =>
        let sum := sum + weight
        (sums.push sum, sum)) (sums, sum)).1.toList =
      sums.toList ++
        (List.range weights.length).map fun index =>
          (weights.take (index + 1)).foldl (· + ·) sum := by
  induction weights generalizing sums sum with
  | nil => simp
  | cons weight rest ih =>
      rw [List.foldl_cons, ih, List.length_cons, List.range_succ_eq_map, List.map_cons,
        List.map_map]
      simp [Function.comp_def]

theorem shows_runningSums (weights : Array Float) :
    Shows (runningSums weights) weights.size (fun index => sumTo weights (index + 1)) := by
  have listed : (runningSums weights).toList =
      (List.range weights.size).map fun index => sumTo weights (index + 1) := by
    rw [runningSums, ← Array.foldl_toList, foldl_push_sum]
    simp [sumTo]
  refine ⟨by rw [← Array.length_toList, listed, List.length_map, List.length_range],
    fun index below => ?_⟩
  rw [← Array.getElem?_toList, listed]
  simp [below]

/-- The first running sum that exceeds a draw is reached by a weight that is not zero. -/
theorem exists_weight_of_findIdx? (nonneg : 0 ≤ draw) {index : Nat}
    (found : (runningSums weights).findIdx? (fun sum => draw < sum) = some index) :
    ∃ weight, weights[index]? = some weight ∧ (weight == 0) = false := by
  have shown := shows_runningSums weights
  obtain ⟨inside, exceeds, earlier⟩ := Array.findIdx?_eq_some_iff_getElem.1 found
  have sum_eq {place : Nat} (below : place < (runningSums weights).size) :
      (runningSums weights)[place] = sumTo weights (place + 1) := by
    have read := shown.get place (shown.size_eq ▸ below)
    rwa [Array.getElem?_eq_getElem below, Option.some.injEq] at read
  have insideWeights : index < weights.size := shown.size_eq ▸ inside
  have here : weights[index]? = some weights[index] := Array.getElem?_eq_getElem insideWeights
  refine ⟨_, here, ?_⟩
  by_contra weightless
  rw [Bool.not_eq_false] at weightless
  have exceedsBefore : draw < sumTo weights index := by
    rw [sum_eq inside, sumTo_succ here, decide_eq_true_iff] at exceeds
    exact (lt_add_zero_iff draw _ weightless).1 exceeds
  cases index with
  | zero => exact not_lt_zero_of_nonneg nonneg exceedsBefore
  | succ before =>
      refine earlier before (Nat.lt_succ_self before) ?_
      rw [sum_eq, decide_eq_true_iff]
      exact exceedsBefore

theorem foldl_last (weights : List Float) :
    let scanned := weights.foldl (fun (index, last) weight =>
      (index + 1, if 0 < weight then index else last)) (0, 0)
    scanned.1 = weights.length ∧ ((∃ weight ∈ weights, 0 < weight) →
      ∃ weight, weights[scanned.2]? = some weight ∧ 0 < weight) := by
  induction weights using List.reverseRecOn with
  | nil => simp
  | append_singleton rest weight ih =>
      obtain ⟨counted, last⟩ := ih
      simp only [List.foldl_append, List.foldl_cons, List.foldl_nil, counted, List.length_append,
        List.length_singleton, true_and]
      rintro ⟨positive, listed, above⟩
      by_cases here : 0 < weight
      · exact ⟨weight, by simp [here], here⟩
      · have inRest : positive ∈ rest := by
          rcases List.mem_append.1 listed with earlier | only
          · exact earlier
          · rw [List.mem_singleton] at only
            subst only
            exact absurd above here
        obtain ⟨found, at_last, foundAbove⟩ := last ⟨positive, inRest, above⟩
        rw [if_neg here]
        refine ⟨found, ?_, foundAbove⟩
        rw [List.getElem?_append_left (List.getElem?_eq_some_iff.1 at_last).1, at_last]

/-- The state kept for draws beyond all sums has positive weight, if any state has. -/
theorem exists_weight_lastPositive (weights : Array Float)
    (positive : ∃ weight ∈ weights, 0 < weight) :
    ∃ weight, weights[lastPositive weights]? = some weight ∧ 0 < weight := by
  obtain ⟨-, last⟩ := foldl_last weights.toList
  rw [lastPositive, ← Array.foldl_toList, ← Array.getElem?_toList]
  exact last (by simpa using positive)

/--
A draw never yields a state of weight zero, wherever it lies among the rounded sums and
whatever the other weights are, numbers or not.
-/
theorem sample_possible {state : StateVector} (nonneg : 0 ≤ draw)
    (possible : ∃ amplitude ∈ state.amplitudes, 0 < amplitude.weight) :
    ∃ amplitude, state.amplitudes[(ofState state).sample draw]? = some amplitude ∧
      (amplitude.weight == 0) = false := by
  have weighed : ∃ weight, (state.amplitudes.map Amplitude.weight)[(ofState state).sample draw]? =
      some weight ∧ (weight == 0) = false := by
    simp only [ofState, sample]
    cases found : (runningSums (state.amplitudes.map Amplitude.weight)).findIdx?
        (fun sum => draw < sum) with
    | some index => exact exists_weight_of_findIdx? nonneg found
    | none =>
        obtain ⟨weight, here, positive⟩ :=
          exists_weight_lastPositive (state.amplitudes.map Amplitude.weight)
            (by simpa using possible)
        exact ⟨weight, here, beq_zero_of_pos positive⟩
  obtain ⟨weight, here, nonzero⟩ := weighed
  rw [Array.getElem?_map, Option.map_eq_some_iff] at here
  obtain ⟨amplitude, read, rfl⟩ := here
  exact ⟨amplitude, read, nonzero⟩

/-- A draw beyond the total weight, with impossible states around the possible one. -/
theorem sample_possible_beyond :
    (0 : Float) ≤ 2 ∧ ∃ amplitude,
      (#[.zero, .one, .zero] : Array Amplitude)[(ofState ⟨#[.zero, .one, .zero]⟩).sample 2]? =
        some amplitude ∧ (amplitude.weight == 0) = false := by
  have nonneg : (0 : Float) ≤ 2 := by decide +kernel
  have certain : 0 < Amplitude.one.weight := by decide +kernel
  exact ⟨nonneg, sample_possible nonneg ⟨.one, by simp, certain⟩⟩

end HybridQuantum.Circuit.Sampler
