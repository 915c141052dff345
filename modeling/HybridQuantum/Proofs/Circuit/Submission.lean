import HybridQuantum.Proofs.Circuit.Tally

/-!
# Submitting a program and waiting for its result

A program that parses, fits the simulator and reports something is loaded, and
what its shots yield is handed out to whoever waits for the job, whatever the
store held before.  A circuit that ends in a basis state yields that state in
every shot.
-/

namespace HybridQuantum

open Circuit

/-- A circuit that ends in a basis state yields its readout in every shot. -/
theorem Circuit.simulate_of_isBasisState {circuit : Circuit Float} {qubits basis : Nat}
    (isBasis : IsBasisState (StateVector.run circuit) qubits basis) {draws : List Float}
    (nonneg : ∀ draw ∈ draws, 0 ≤ draw) (positive : 0 < draws.length)
    (small : draws.length < UInt64.size) :
    circuit.simulate draws =
      some (.point (readout basis circuit.measurements circuit.clbits)
        (UInt64.ofNat draws.length)) := by
  have same : draws.map (Sampler.ofState (StateVector.run circuit)).sample =
      List.replicate draws.length basis := by
    refine List.eq_replicate_iff.2 ⟨List.length_map _, fun outcome member => ?_⟩
    obtain ⟨draw, drawn, rfl⟩ := List.mem_map.1 member
    exact Sampler.sample_ofState isBasis (nonneg draw drawn)
  obtain ⟨fewer, length⟩ : ∃ fewer, draws.length = fewer + 1 := ⟨draws.length - 1, by omega⟩
  obtain ⟨tally, tallied, entries⟩ := Option.map_eq_some_iff.1
    (tally?_replicate basis fewer (by omega))
  rw [simulate, same, length, tallied, Option.bind_some, report?, entries]
  exact Counts.collect?_singleton _ _

namespace Simulator

variable {simulator : Simulator} {program : String} {shots : UInt32} {circuit : Circuit Float}

theorem load_eq_ok (positive : shots ≠ 0) (parsed : parse program = .ok circuit)
    (fits : circuit.qubits ≤ simulator.info.maxQubits.toNat) (reports : circuit.clbits ≠ 0) :
    simulator.load program shots = .ok circuit := by
  have required : ¬ simulator.info.maxQubits < Word.saturate32 circuit.qubits := by
    rw [UInt32.lt_iff_toNat_lt, Word.toNat_saturate32]
    omega
  simp [load, positive, parsed, Outcome.mapError, required, reports]

theorem runShots_of_isBasisState {qubits basis : Nat}
    (isBasis : IsBasisState (StateVector.run circuit) qubits basis) (submission : Nat)
    (nonneg : ∀ shot, 0 ≤ simulator.source submission shot) (positive : shots ≠ 0) :
    simulator.runShots submission circuit shots =
      some ⟨.point (readout basis circuit.measurements circuit.clbits) shots.toUInt64, shots,
        none⟩ := by
  have length : ((List.range shots.toNat).map (simulator.source submission)).length =
      shots.toNat := by simp
  have some : 0 < shots.toNat :=
    UInt32.lt_iff_toNat_lt.1 (UInt32.pos_iff_ne_zero.2 positive)
  have small : shots.toNat < UInt64.size := Nat.lt_trans shots.toNat_lt (by decide)
  have drawn : ∀ draw ∈ (List.range shots.toNat).map (simulator.source submission), 0 ≤ draw := by
    intro draw member
    obtain ⟨shot, -, rfl⟩ := List.mem_map.1 member
    exact nonneg shot
  have counted := simulate_of_isBasisState isBasis drawn (by rwa [length]) (by rwa [length])
  rw [length, UInt64.ofNat_uInt32ToNat] at counted
  rw [runShots, counted]
  rfl

/-- Whoever waits for a completed job gets its result at the first poll. -/
theorem wait_of_completed {store : JobStore} {job : JobId} {result : ExecutionResult}
    (held : store.jobs.get? job = some ⟨.completed, some result⟩) {limit : Option Nat}
    (shown : Backend.HasDeadline limit) :
    (simulator.backend.wait job limit store).1 = .ok result := by
  rw [Backend.wait_of_hasDeadline shown, Backend.pollFrom]
  simp [backend, JobStore.status, JobStore.take, held, Outcome.ofExcept, JobStatus.isTerminal,
    JobStore.settle]

/-- A loaded program that yields a result hands it out, whatever the store held before. -/
theorem exists_wait_of_runShots {store : JobStore} {result : ExecutionResult}
    (loaded : simulator.load program shots = .ok circuit)
    (ran : simulator.runShots (store.submitted + 1) circuit shots = some result) :
    ∃ job finished, simulator.backend.submit store program shots = (.ok job, finished) ∧
      ∀ limit, Backend.HasDeadline limit →
        (simulator.backend.wait job limit finished).1 = .ok result := by
  refine ⟨JobStore.freshId (store.submitted + 1),
    store.enqueue.2.complete (JobStore.freshId (store.submitted + 1)) result, ?_, ?_⟩
  · simp only [backend, submit, loaded, JobStore.enqueue, ran]
  · refine fun limit => wait_of_completed ?_
    simp [JobStore.enqueue, JobStore.complete, FiniteMap.get?_insert, JobStatus.advance?,
      JobStatus.isTerminal]

end Simulator

end HybridQuantum
