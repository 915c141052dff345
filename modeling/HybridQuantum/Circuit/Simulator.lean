import HybridQuantum.Circuit.Parse
import HybridQuantum.Circuit.Random
import HybridQuantum.Circuit.StateVector
import HybridQuantum.Execution.Backend
import HybridQuantum.FiniteMap

/-!
# The simulator

A back end that evolves the state of a program once and draws every shot from
the final distribution; measurements in the middle behave as if they came last.
Jobs are kept in a store until their result is taken, which is possible once.
Each operation on the store is one indivisible step, and submitting a program is
two of them with the simulation in between.
-/

namespace HybridQuantum

namespace Circuit

/--
The classical register after measuring a basis state: the highest bit first, each
bit as the last measurement into it left it, and `0` where there is none.
-/
def readout (outcome : Nat) (measurements : List (Nat × Nat)) (clbits : Nat) : String :=
  let bits := measurements.foldl
    (fun bits (qubit, clbit) =>
      bits.setIfInBounds clbit (if outcome.testBit qubit then '1' else '0'))
    (Array.replicate clbits '0')
  String.ofList bits.toList.reverse

/-- One more draw of a basis state. -/
def countDraw? (tally : FiniteMap Nat UInt64) (outcome : Nat) : Option (FiniteMap Nat UInt64) :=
  (Word.add64? ((tally.get? outcome).getD 0) 1).map (tally.insert outcome)

/-- How often each basis state was drawn. -/
def tally? (outcomes : List Nat) : Option (FiniteMap Nat UInt64) :=
  outcomes.foldlM countDraw? .empty

/-- The counts of tallied basis states; states with one readout count together. -/
def report? (circuit : Circuit Float) (tallied : List (Nat × UInt64)) : Option Counts :=
  let measurements := circuit.measurements
  Counts.collect? (tallied.map fun (outcome, count) =>
    (readout outcome measurements circuit.clbits, count))

/-- The counts of a circuit, one shot for each draw. -/
def simulate (circuit : Circuit Float) (draws : List Float) : Option Counts :=
  let sampler := Sampler.ofState (StateVector.run circuit)
  (tally? (draws.map sampler.sample)).bind fun tally => circuit.report? tally.entries

end Circuit

/-- A job of the simulator with the result it holds. -/
structure SimulatedJob where
  status : JobStatus
  result : Option ExecutionResult
deriving DecidableEq

/-- The jobs of a simulator and how many were submitted. -/
structure JobStore where
  jobs : FiniteMap JobId SimulatedJob
  submitted : Nat

namespace JobStore

def empty : JobStore :=
  ⟨.empty, 0⟩

/-- The last group of an identifier: twelve digits. -/
def idDigits (number : Nat) : String :=
  let digits := Nat.toDigits 10 number
  String.ofList (List.replicate (12 - digits.length) '0' ++ digits)

/-- The identifier of the job with a number. -/
def freshId (number : Nat) : JobId :=
  ⟨"00000000-0000-4000-8000-" ++ idDigits number⟩

/-- Put a queued job under the next identifier. -/
def enqueue (store : JobStore) : JobId × JobStore :=
  let id := freshId (store.submitted + 1)
  (id, ⟨store.jobs.insert id ⟨.queued, none⟩, store.submitted + 1⟩)

/-- Run a job and complete it; a job that has ended meanwhile keeps no result. -/
def complete (store : JobStore) (id : JobId) (result : ExecutionResult) : JobStore :=
  match store.jobs.get? id with
  | none => store
  | some job =>
      let started := (job.status.advance? .running).getD job.status
      let changed : SimulatedJob := match started.advance? .completed with
        | some ended => ⟨ended, some result⟩
        | none => ⟨started, job.result⟩
      { store with jobs := store.jobs.insert id changed }

def status (store : JobStore) (id : JobId) : Except BackendError JobStatus :=
  match store.jobs.get? id with
  | some job => .ok job.status
  | none => .error (.jobNotFound id)

/-- What a job that has ended hands out. -/
def settle (id : JobId) : SimulatedJob → Except BackendError ExecutionResult
  | ⟨.completed, some result⟩ => .ok result
  | ⟨.cancelled, _⟩ => .error .jobCancelled
  | ⟨.failed reason, _⟩ => .error (.jobFailed reason)
  | ⟨status, none⟩ =>
      .error (.other ("job " ++ id.text ++ " finished as " ++ status.text ++
        " without a result"))
  | ⟨_, some _⟩ =>
      .error (.other ("job " ++ id.text ++ " holds a result it never completed"))

/-- Take the result of a job that has ended, and forget the job. -/
def take (store : JobStore) (id : JobId) : Except BackendError ExecutionResult × JobStore :=
  match store.jobs.get? id with
  | none => (.error (.jobNotFound id), store)
  | some job =>
      if job.status.isTerminal then
        (settle id job, { store with jobs := store.jobs.erase id })
      else
        (.error (.other ("job " ++ id.text ++ " has no result yet (" ++ job.status.text ++ ")")),
          store)

/-- Cancel a job; one that has ended stays as it is. -/
def cancel (store : JobStore) (id : JobId) : Except BackendError Unit × JobStore :=
  match store.jobs.get? id with
  | none => (.error (.jobNotFound id), store)
  | some job =>
      match job.status.advance? .cancelled with
      | none => (.ok (), store)
      | some ended => (.ok (), { store with jobs := store.jobs.insert id { job with status := ended } })

end JobStore

/-- A local simulator. -/
structure Simulator where
  info : BackendInfo
  /-- The draw of each shot, by the number of the submission and of the shot. -/
  source : Nat → Nat → Float

namespace Simulator

/-- A simulator that draws every job from the same seed. -/
def seeded (info : BackendInfo) (seed : UInt64) : Simulator :=
  let key := Circuit.Random.keyWords seed
  ⟨info, fun _ shot => Circuit.Random.draw key shot⟩

/-- A simulator must support the digital paradigm. -/
def checkInfo (info : BackendInfo) : Except BackendError Unit :=
  if info.supports .digital then .ok ()
  else .error (.unavailable ("'" ++ info.name ++ "' does not support the digital paradigm"))

/-- Check a program before it is run: it parses, fits and has something to report. -/
def load (simulator : Simulator) (program : String) (shots : UInt32) :
    Outcome BackendError (Circuit Float) := do
  if shots = 0 then .fail (.invalidShots "shots must be positive") else .ok ()
  let circuit ← Outcome.mapError (fun cause => .invalidProgram cause.message)
    (Circuit.parse program)
  let required := Word.saturate32 circuit.qubits
  if simulator.info.maxQubits < required then
    .fail (.programTooLarge simulator.info.name required simulator.info.maxQubits)
  else .ok ()
  if circuit.clbits = 0 then
    .fail (.invalidProgram "program declares no classical bits to report")
  else .ok ()
  return circuit

/-- The result of running a circuit as a numbered submission. -/
def runShots (simulator : Simulator) (submission : Nat) (circuit : Circuit Float)
    (shots : UInt32) : Option ExecutionResult :=
  let draws := (List.range shots.toNat).map (simulator.source submission)
  (circuit.simulate draws).map fun counts => ⟨counts, shots, none⟩

/-- Load a program, queue a job, run it and complete the job. -/
def submit (simulator : Simulator) (store : JobStore) (program : String) (shots : UInt32) :
    Outcome BackendError JobId × JobStore :=
  match simulator.load program shots with
  | .error fault => (.error fault, store)
  | .ok circuit =>
      let (id, store) := store.enqueue
      match simulator.runShots store.submitted circuit shots with
      | none => (.error .overflow, store)
      | some result => (.ok id, store.complete id result)

def backend (simulator : Simulator) : Backend JobStore where
  info := simulator.info
  submit := simulator.submit
  status store id := (.ofExcept (store.status id), store)
  result store id :=
    match store.take id with
    | (answer, store) => (.ofExcept answer, store)
  cancel store id :=
    match store.cancel id with
    | (answer, store) => (.ofExcept answer, store)

end Simulator

end HybridQuantum
