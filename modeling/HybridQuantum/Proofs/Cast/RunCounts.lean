import HybridQuantum.Cast.QuantumProgram
import HybridQuantum.Execution.Script
import HybridQuantum.Proofs.Execution.Histogram
import HybridQuantum.Proofs.Execution.Waiting
import HybridQuantum.Proofs.Lowering.RoundTrip

/-!
# Counts of a run on any back end

Nothing is assumed of a back end: it may answer every call with anything.  What
a run hands out has still passed two checks, of the counts against the shots and
of the bitstrings against the indices of the variable.
-/

namespace HybridQuantum

variable {σ : Type}

namespace Script

variable {script : Script} {job : JobId} {deadline now : Nat} {late : Nat → Nat} {log : ScriptLog}

theorem pollFrom_of_pending {status : JobStatus} (going : log.cancelled = false)
    (answered : script.statusAt log.statusCalls = .ok status) (pending : status.isPending = true)
    (early : now < deadline) :
    script.backend.pollFrom job deadline late now log =
      script.backend.pollFrom job deadline late (now + Backend.pollInterval + late now)
        { log with statusCalls := log.statusCalls + 1 } := by
  have polled : script.backend.status log job =
      (.ok status, { log with statusCalls := log.statusCalls + 1 }) := by
    simp [backend, going, answered, Outcome.ofExcept]
  rw [Backend.pollFrom_eq_goOn polled, Backend.goOn_of_pending pending,
    if_neg (Nat.not_le_of_lt early)]

theorem pollFrom_of_completed (going : log.cancelled = false)
    (answered : script.statusAt log.statusCalls = .ok .completed) :
    (script.backend.pollFrom job deadline late now log).1 = script.result := by
  have polled : script.backend.status log job =
      (.ok .completed, { log with statusCalls := log.statusCalls + 1 }) := by
    simp [backend, going, answered, Outcome.ofExcept]
  rw [Backend.pollFrom_eq_goOn polled]
  rfl

end Script

namespace Handle

/-- Only a positive number of shots gets a handle, which remembers it. -/
theorem shots_of_execute {backend : Backend σ} {text : String} {shots : UInt32} {state : σ}
    {handle : Handle} (executed : (execute backend text shots state).1 = .ok handle) :
    shots ≠ 0 ∧ handle.shots = shots := by
  unfold execute at executed
  split at executed
  · cases executed
  · rename_i positive
    split at executed
    · cases executed
    · cases executed
      exact ⟨positive, rfl⟩

theorem validate_of_wait {handle : Handle} {backend : Backend σ} {limit : Option Nat} {state : σ}
    {result : ExecutionResult} (waited : (handle.wait backend limit state).1 = .ok result) :
    result.counts.validate handle.shots = .ok () := by
  unfold wait at waited
  split at waited
  · cases waited
  · split at waited
    · cases waited
    · rename_i checked
      cases waited
      exact checked

end Handle

namespace QuantumProgram

variable {program : QuantumProgram} {backend : Backend σ} {config : ExecutionConfig}
  {evaluator : Evaluator} {state : σ}

theorem width_eq_ok {indexes : List Nat}
    (held : program.pool.indexesOf? program.var = some indexes) :
    program.width = .ok indexes.length := by
  simp only [width, held]

theorem shots_of_submit {width : Nat} {handle : Handle} (spanned : program.width = .ok width)
    (submitted : (program.submit backend config evaluator state).1 = .ok handle) :
    config.shotsFor width ≠ 0 ∧ handle.shots = config.shotsFor width := by
  unfold submit at submitted
  rw [spanned] at submitted
  split at submitted
  · cases submitted
  · cases submitted
  · rename_i same
    cases same
    exact Handle.shots_of_execute (Outcome.mapError_eq_ok_iff.1 submitted)

theorem checkSpan_eq_ok_iff {width : Nat} {counts result : Counts}
    (spanned : program.width = .ok width) :
    program.checkSpan counts = .ok result ↔
      result = counts ∧ ∀ key ∈ counts.keys, key.utf8ByteSize = width := by
  rw [checkSpan, spanned, ok_bind]
  split
  · rename_i key found
    have wrong : key.utf8ByteSize ≠ width := by simpa using List.find?_some found
    constructor
    · intro passed
      cases passed
    · rintro ⟨-, all⟩
      exact absurd (all key (List.mem_of_find?_eq_some found)) wrong
  · rename_i none
    have all : ∀ key ∈ counts.keys, key.utf8ByteSize = width := by
      simpa using none
    constructor
    · intro same
      exact ⟨(Except.ok.inj same).symm, all⟩
    · rintro ⟨rfl, -⟩
      rfl

/-- The steps of a run that hands out counts. -/
theorem exists_of_run_eq_ok {counts : Counts}
    (done : (program.run backend config evaluator state).1 = .ok counts) :
    ∃ handle result running,
      (program.submit backend config evaluator state).1 = .ok handle ∧
      (handle.wait backend config.timeout running).1 = .ok result ∧
      program.checkSpan result.counts = .ok counts := by
  unfold run at done
  split at done
  · cases done
  · rename_i handle running submitted
    split at done
    · rename_i fault _ _
      cases fault <;> cases done
    · rename_i result _ waited
      exact ⟨handle, result, running, by rw [submitted], by rw [waited],
        Outcome.ofExcept_eq_ok_iff.1 done⟩

/--
Whatever a back end answers, counts that a run hands out are a histogram of the
shots asked for: there are some, each key has one binary digit for every index
of the variable, and they sum to a positive number of shots.  Over at most
sixty-four indices both resolvers that pick a bitstring yield a number.
-/
theorem isHistogram_of_run {indexes : List Nat} {counts : Counts}
    (held : program.pool.indexesOf? program.var = some indexes)
    (done : (program.run backend config evaluator state).1 = .ok counts) :
    counts.entries ≠ [] ∧
      (∀ key ∈ counts.keys, key.length = indexes.length ∧
        ∀ char ∈ key.toList, char = '0' ∨ char = '1') ∧
      (counts.entries.map fun entry => entry.2.toNat).sum =
        (config.shotsFor indexes.length).toNat ∧
      0 < config.shotsFor indexes.length ∧
      (indexes.length ≤ 64 →
        (∃ word, Resolver.highest counts .int = .ok (.value (.uint word))) ∧
        ∃ word, Resolver.lowest counts .int = .ok (.value (.uint word))) := by
  have spanned := width_eq_ok held
  obtain ⟨handle, result, running, submitted, waited, checked⟩ := exists_of_run_eq_ok done
  obtain ⟨rfl, spans⟩ := (checkSpan_eq_ok_iff spanned).1 checked
  obtain ⟨positive, shots⟩ := shots_of_submit spanned submitted
  have valid := Handle.validate_of_wait waited
  rw [shots] at valid
  obtain ⟨width, wide, histogram⟩ := Counts.validate_eq_ok_iff.1 valid
  have same : width = indexes.length := by
    obtain ⟨entry, listed⟩ := List.exists_mem_of_ne_nil _ histogram.nonempty
    have key : entry.1 ∈ result.counts.keys := List.mem_map_of_mem listed
    have bits := histogram.keys entry.1 key
    rw [← spans entry.1 key, utf8ByteSize_eq_length bits.binary, bits.length_eq]
  subst same
  refine ⟨histogram.nonempty, fun key listed => ?_, histogram.total, ?_, fun short => ?_⟩
  · exact ⟨(histogram.keys key listed).length_eq, (histogram.keys key listed).binary⟩
  · exact UInt32.pos_iff_ne_zero.2 positive
  · exact ⟨histogram.exists_choose wide short _, histogram.exists_choose wide short _⟩

theorem run_of_submit {handle : Handle} {running : σ} {result : ExecutionResult} {counts : Counts}
    (submitted : program.submit backend config evaluator state = (.ok handle, running))
    (waited : (handle.wait backend config.timeout running).1 = .ok result)
    (spans : program.checkSpan result.counts = .ok counts) :
    (program.run backend config evaluator state).1 = .ok counts := by
  rcases answered : handle.wait backend config.timeout running with ⟨answer, finished⟩
  rw [answered] at waited
  cases waited
  simp only [run, submitted, answered, spans, Outcome.ofExcept]

/-- The sample block over the three indices of its variable. -/
def sample : QuantumProgram :=
  ⟨.ofLeaf "@v", Lowering.sampleBlock, Lowering.samplePool⟩

def sampleCounts : Counts :=
  ⟨[("000", 600), ("011", 400)], by decide⟩

/-- A back end that is busy once and then reports the sample counts. -/
def sampleScript : Script :=
  ⟨.standard, none, [.ok .running, .ok .completed], .ok ⟨sampleCounts, 1000, none⟩, none⟩

def sampleConfig : ExecutionConfig :=
  { ExecutionConfig.standard with shots := some 1000 }

theorem run_sample :
    (sample.run sampleScript.backend sampleConfig Lowering.sampleEvaluator .empty).1 =
      .ok sampleCounts := by
  obtain ⟨text, submitted⟩ : ∃ text,
      sample.submit sampleScript.backend sampleConfig Lowering.sampleEvaluator .empty =
        (.ok ⟨⟨"job-1"⟩, 1000, BackendInfo.standard.name⟩, ⟨[(text, 1000)], 0, 0, 0, false⟩) :=
    ⟨_, rfl⟩
  have waited : (sampleScript.backend.wait ⟨"job-1"⟩ sampleConfig.timeout
      ⟨[(text, 1000)], 0, 0, 0, false⟩).1 = .ok ⟨sampleCounts, 1000, none⟩ := by
    rw [Backend.wait_of_hasDeadline (by decide),
      Script.pollFrom_of_pending rfl rfl rfl (by decide), Script.pollFrom_of_completed rfl rfl]
    rfl
  exact run_of_submit submitted (Handle.wait_of_validate waited rfl) rfl

theorem isHistogram_of_run_sample :
    (sample.run sampleScript.backend sampleConfig Lowering.sampleEvaluator .empty).1 =
        .ok sampleCounts ∧
      (∀ key ∈ sampleCounts.keys, key.length = 3 ∧
        ∀ char ∈ key.toList, char = '0' ∨ char = '1') ∧
      (sampleCounts.entries.map fun entry => entry.2.toNat).sum = 1000 ∧
      ∃ word, Resolver.lowest sampleCounts .int = .ok (.value (.uint word)) := by
  have held : sample.pool.indexesOf? sample.var = some [0, 1, 2] := rfl
  obtain ⟨-, keys, total, -, chosen⟩ := isHistogram_of_run held run_sample
  exact ⟨run_sample, keys, total, (chosen (by decide)).2⟩

end QuantumProgram

end HybridQuantum
