import HybridQuantum.Proofs.Circuit.Readout
import HybridQuantum.Proofs.Circuit.Submission
import HybridQuantum.Proofs.Execution.Histogram
import Mathlib.Algebra.BigOperators.Group.List.Basic

/-!
# Counts of simulated circuits

Whatever a circuit does and whatever is drawn, each shot reads the classical
register out as one character for each of its bits, so the counts are a
histogram of the shots.  A program is turned away for its size exactly when it
needs more qubits than the simulator has.
-/

namespace HybridQuantum

open Circuit

namespace Circuit

/-- The classical register is read out with one binary digit for each bit. -/
theorem isBitstring_readout (outcome : Nat) (measurements : List (Nat × Nat)) (clbits : Nat) :
    IsBitstring clbits (readout outcome measurements clbits) := by
  refine ⟨length_readout outcome measurements clbits, fun char member => ?_⟩
  rw [toList_readout] at member
  obtain ⟨clbit, -, rfl⟩ := List.mem_map.1 member
  exact lastRead_cases outcome measurements (.inl rfl) clbit

/-- The readouts of tallied draws are a histogram, in whatever order the tally is gone through. -/
theorem exists_isHistogram_of_report (circuit : Circuit Float) {tally : FiniteMap Nat UInt64}
    {order : List (Nat × UInt64)} (visits : order.Perm tally.entries)
    (positive : 0 < drawn tally) (small : drawn tally < UInt64.size) :
    ∃ counts, circuit.report? order = some counts ∧
      counts.IsHistogram circuit.clbits (drawn tally) := by
  refine Counts.exists_isHistogram_of_collect (fun seen member => ?_) ?_ positive small
  · obtain ⟨entry, -, rfl⟩ := List.mem_map.1 member
    exact isBitstring_readout _ _ _
  · rw [List.map_map, drawn, FiniteMap.values, List.map_map]
    exact (visits.map _).sum_eq

theorem exists_isHistogram_of_simulate (circuit : Circuit Float) {draws : List Float}
    (positive : 0 < draws.length) (small : draws.length < UInt64.size) :
    ∃ counts, circuit.simulate draws = some counts ∧
      counts.IsHistogram circuit.clbits draws.length := by
  have length : (draws.map (Sampler.ofState (StateVector.run circuit)).sample).length =
      draws.length := List.length_map _
  obtain ⟨tally, tallied, all⟩ := exists_tally? _ (length.symm ▸ small)
  rw [length] at all
  obtain ⟨counts, reported, histogram⟩ :=
    circuit.exists_isHistogram_of_report (.refl tally.entries) (all ▸ positive) (all ▸ small)
  exact ⟨counts, by rw [simulate, tallied]; exact reported, all ▸ histogram⟩

end Circuit

namespace Simulator

variable {simulator : Simulator} {program : String} {shots : UInt32} {circuit : Circuit Float}

theorem exists_isHistogram_of_runShots (simulator : Simulator) (submission : Nat)
    (circuit : Circuit Float) (positive : shots ≠ 0) :
    ∃ counts, simulator.runShots submission circuit shots = some ⟨counts, shots, none⟩ ∧
      counts.IsHistogram circuit.clbits shots.toNat := by
  have length : ((List.range shots.toNat).map (simulator.source submission)).length =
      shots.toNat := by simp
  have some : 0 < shots.toNat :=
    UInt32.lt_iff_toNat_lt.1 (UInt32.pos_iff_ne_zero.2 positive)
  have small : shots.toNat < UInt64.size := Nat.lt_trans shots.toNat_lt (by decide)
  obtain ⟨counts, simulated, histogram⟩ :=
    circuit.exists_isHistogram_of_simulate (length.symm ▸ some) (length.symm ▸ small)
  rw [length] at histogram
  exact ⟨counts, by rw [runShots, simulated]; rfl, histogram⟩

end Simulator

end HybridQuantum
