import HybridQuantum.Execution.Handle
import HybridQuantum.Proofs.Circuit.SharedStore
import HybridQuantum.Proofs.Circuit.SimulatedCounts

/-!
# Results the simulator hands out

An accepted program is queued, run and completed, and its job is kept until
someone takes it.  Whichever basis states are drawn, their counts are well formed,
so waiting for the job never finds fault with the result.
-/

namespace HybridQuantum

open Circuit

/-- Well-formed counts: bitstrings of one width, whose sum is a word and equals the shots. -/
structure Counts.IsReport (counts : Counts) (width : Nat) (shots : UInt32) : Prop where
  valid : counts.validate shots = .ok ()
  keys : ∀ key ∈ counts.keys, IsBitstring width key
  total : counts.total? = some shots.toUInt64

theorem Counts.IsHistogram.isReport {counts : Counts} {width : Nat} {shots : UInt32}
    (histogram : counts.IsHistogram width shots.toNat) (positive : 0 < width) :
    counts.IsReport width shots where
  valid := Counts.validate_eq_ok_iff.2 ⟨width, positive, histogram⟩
  keys := histogram.keys
  total := by
    have small : shots.toNat < UInt64.size := Nat.lt_trans shots.toNat_lt (by decide)
    rw [Counts.total?_eq, histogram.total, Word.ofNat64?_of_lt small, UInt64.ofNat_uInt32ToNat]

namespace Simulator

variable {simulator : Simulator} {program : String} {shots : UInt32} {circuit : Circuit Float}
  {store finished : JobStore} {job : JobId}

theorem of_load_eq_ok (loaded : simulator.load program shots = .ok circuit) :
    shots ≠ 0 ∧ parse program = .ok circuit ∧
      Word.saturate32 circuit.qubits ≤ simulator.info.maxQubits ∧ circuit.clbits ≠ 0 := by
  unfold load at loaded
  have positive : shots ≠ 0 := by
    intro zero
    rw [if_pos zero] at loaded
    cases loaded
  rw [if_neg positive, ok_bind] at loaded
  obtain ⟨own, parsed, loaded⟩ := exists_of_bind_eq_ok loaded
  have fits : ¬ simulator.info.maxQubits < Word.saturate32 own.qubits := by
    intro large
    rw [if_pos large] at loaded
    cases loaded
  rw [if_neg fits, ok_bind] at loaded
  have reports : own.clbits ≠ 0 := by
    intro none
    rw [if_pos none] at loaded
    cases loaded
  rw [if_neg reports] at loaded
  cases loaded
  exact ⟨positive, Outcome.mapError_eq_ok_iff.1 parsed, UInt32.not_lt.1 fits, reports⟩

theorem qubits_le_of_saturate32_le {qubits : Nat} {limit : UInt32} (narrow : limit.toNat ≤ 63)
    (fits : Word.saturate32 qubits ≤ limit) : qubits ≤ limit.toNat := by
  rw [UInt32.le_iff_toNat_le, Word.toNat_saturate32] at fits
  simp only [UInt32.size] at fits
  omega

/-- An accepted program is queued, run outside the store and completed. -/
theorem exists_run_of_submit
    (accepted : simulator.backend.submit store program shots = (.ok job, finished)) :
    ∃ circuit result, simulator.load program shots = .ok circuit ∧
      simulator.runShots (store.submitted + 1) circuit shots = some result ∧
      job = JobStore.freshId (store.submitted + 1) ∧
      finished = StoreStep.run store [.enqueue, .complete job result] := by
  have accepted : simulator.submit store program shots = (.ok job, finished) := accepted
  unfold submit at accepted
  split at accepted
  · cases accepted
  · rename_i circuit loaded
    simp only at accepted
    split at accepted
    · cases accepted
    · rename_i result ran
      cases accepted
      exact ⟨circuit, result, loaded, ran, rfl, rfl⟩

/-- A completed job yields its result until it is taken, whatever else is done to the store. -/
theorem wait_of_submit (simulator : Simulator) {result : ExecutionResult} {between : List StoreStep}
    (submitted : job = JobStore.freshId (store.submitted + 1))
    (stored : finished = StoreStep.run store [.enqueue, .complete job result])
    (untaken : .take job ∉ between) {limit : Option Nat} (shown : Backend.HasDeadline limit) :
    (simulator.backend.wait job limit (StoreStep.run finished between)).1 = .ok result := by
  have queued : store.enqueue.2.jobs.get? job = some ⟨.queued, none⟩ := by
    rw [JobStore.get?_enqueue, if_pos submitted]
  have held : finished.jobs.get? job = some ⟨.completed, some result⟩ := by
    rw [stored]
    change (store.enqueue.2.complete job result).jobs.get? job = _
    rw [JobStore.get?_complete, if_pos rfl, queued]
    rfl
  have issued : finished.Issued job := by
    rw [stored]
    exact StoreStep.issued_apply ⟨store.submitted + 1, Nat.le_refl _, submitted⟩
      (.complete job result)
  exact wait_of_completed (StoreStep.get?_run_of_ended issued held rfl untaken) shown

/--
Every accepted program yields well-formed counts.  However many shots there are
and whichever basis states they draw, in whatever order the tally of these is gone
through, no sum overflows and the counts have one digit for each classical bit and
sum to the shots.  The counts of the job are such counts, and until someone takes
the job, every wait that has a deadline hands them out.
-/
theorem isReport_of_submit (narrow : simulator.info.maxQubits.toNat ≤ 63)
    (accepted : simulator.backend.submit store program shots = (.ok job, finished)) :
    ∃ circuit, parse program = .ok circuit ∧ circuit.qubits ≤ 63 ∧
      (∀ outcomes : List Nat, outcomes.length = shots.toNat →
        ∃ tally, tally? outcomes = some tally ∧ ∀ order, order.Perm tally.entries →
          ∃ counts, circuit.report? order = some counts ∧
            counts.IsReport circuit.clbits shots) ∧
      ∃ counts,
        simulator.runShots (store.submitted + 1) circuit shots = some ⟨counts, shots, none⟩ ∧
        counts.IsReport circuit.clbits shots ∧
        ∀ between, .take job ∉ between → ∀ limit, Backend.HasDeadline limit →
          (Handle.wait ⟨job, shots, simulator.info.name⟩ simulator.backend limit
            (StoreStep.run finished between)).1 = .ok ⟨counts, shots, none⟩ := by
  obtain ⟨circuit, result, loaded, ran, submitted, stored⟩ := exists_run_of_submit accepted
  obtain ⟨positive, parsed, fits, reports⟩ := of_load_eq_ok loaded
  have wide : 0 < circuit.clbits := Nat.pos_of_ne_zero reports
  refine ⟨circuit, parsed, Nat.le_trans (qubits_le_of_saturate32_le narrow fits) narrow,
    fun outcomes length => ?_, ?_⟩
  · have small : shots.toNat < UInt64.size := Nat.lt_trans shots.toNat_lt (by decide)
    have some : 0 < shots.toNat :=
      UInt32.lt_iff_toNat_lt.1 (UInt32.pos_iff_ne_zero.2 positive)
    obtain ⟨tally, tallied, all⟩ := exists_tally? outcomes (by omega)
    rw [length] at all
    refine ⟨tally, tallied, fun order visits => ?_⟩
    obtain ⟨counts, reported, histogram⟩ :=
      circuit.exists_isHistogram_of_report visits (by omega) (by omega)
    rw [all] at histogram
    exact ⟨counts, reported, histogram.isReport wide⟩
  · obtain ⟨counts, same, histogram⟩ :=
      simulator.exists_isHistogram_of_runShots (store.submitted + 1) circuit positive
    cases ran.symm.trans same
    have report := histogram.isReport wide
    refine ⟨counts, ran, report, fun between untaken limit shown => ?_⟩
    have waited := simulator.wait_of_submit submitted stored untaken shown
    exact Handle.wait_of_validate waited report.valid

/-- Two measurements into one classical bit, and one bit that nothing is measured into. -/
def overlappingProgram : String :=
  "OPENQASM 2; qreg q[2]; creg c[3]; h q; measure q[0] -> c[1]; measure q[1] -> c[1];"

theorem isReport_of_submit_overlapping :
    ∃ job finished counts,
      let simulator : Simulator := ⟨.simulator "zero" 2, fun _ _ => 0⟩
      simulator.backend.submit .empty overlappingProgram 7 = (.ok job, finished) ∧
        counts.IsReport 3 7 ∧
        (Handle.wait ⟨job, 7, "zero"⟩ simulator.backend none finished).1 =
          .ok ⟨counts, 7, none⟩ := by
  let simulator : Simulator := ⟨.simulator "zero" 2, fun _ _ => 0⟩
  have parsed : parse overlappingProgram =
      .ok ⟨2, 3, [.gate .h [0], .gate .h [1], .measure 0 1, .measure 1 1]⟩ := by
    decide +kernel
  have loaded : simulator.load overlappingProgram 7 = .ok _ :=
    load_eq_ok (by decide) parsed (by decide) (by decide)
  obtain ⟨own, ran, -⟩ := simulator.exists_isHistogram_of_runShots 1
    ⟨2, 3, [.gate .h [0], .gate .h [1], .measure 0 1, .measure 1 1]⟩ (by decide : (7 : UInt32) ≠ 0)
  obtain ⟨job, finished, accepted, -⟩ : ∃ job finished,
      simulator.backend.submit .empty overlappingProgram 7 = (.ok job, finished) ∧ _ :=
    exists_wait_of_runShots loaded ran
  obtain ⟨circuit, same, -, -, counts, -, report, waits⟩ :=
    isReport_of_submit (by decide) accepted
  cases parsed.symm.trans same
  exact ⟨job, finished, counts, accepted, report, waits [] (List.not_mem_nil) none (by decide)⟩

end Simulator

end HybridQuantum
