import HybridQuantum.Exchange.Fields
import HybridQuantum.Exchange.Stored
import HybridQuantum.Execution.Counts
import HybridQuantum.Execution.Info
import HybridQuantum.Execution.Job
import HybridQuantum.Execution.Shots

/-!
# Execution data in exchange

Targets, job states, counts, results and shot policies as data trees, and back.
-/

namespace HybridQuantum

namespace DeviceType

def ofDatum? : Datum → Option DeviceType :=
  Datum.choice? text [simulator, emulator, qpu]

end DeviceType

namespace Paradigm

def ofDatum? : Datum → Option Paradigm :=
  Datum.choice? text [digital, analog, classical]

end Paradigm

namespace BackendInfo

def toDatum (info : BackendInfo) : Datum :=
  .record [("name", .string info.name), ("version", .string info.version),
    ("max_qubits", .ofNat info.maxQubits.toNat), ("device_type", .string info.deviceType.text),
    ("paradigms", .list (info.paradigms.map fun paradigm => .string paradigm.text))]

def ofDatum? (datum : Datum) : Option BackendInfo := do
  let fields ←
    Fields.of? ["name", "version", "max_qubits", "device_type", "paradigms"] datum
  let name ← fields.required "name" Datum.text?
  let version ← fields.required "version" Datum.text?
  let maxQubits ← fields.required "max_qubits" Datum.word32?
  let deviceType ← fields.required "device_type" DeviceType.ofDatum?
  let paradigms ← fields.required "paradigms" (Datum.list? Paradigm.ofDatum?)
  return { name, version, maxQubits, deviceType, paradigms }

end BackendInfo

namespace JobStatus

def toDatum : JobStatus → Datum
  | failed reason => .tagged "Failed" (.string reason)
  | other => .string other.text

def ofDatum? (datum : Datum) : Option JobStatus :=
  match datum.tagged? with
  | some ("Failed", content) => content.text?.map failed
  | _ => datum.choice? text [queued, running, completed, cancelled]

end JobStatus

namespace Counts

def toDatum (counts : Counts) : Datum :=
  .record (counts.entries.map fun entry => (entry.1, .ofNat entry.2.toNat))

/-- Read counts; of several counts of one bitstring the last is kept. -/
def ofDatum? : Datum → Option Counts
  | .record fields =>
      fields.foldlM (fun counts field =>
        field.2.word64?.map fun count => counts.set field.1 count) empty
  | _ => none

end Counts

namespace ExecutionResult

/-- The fields of a result; an unknown run time is left out. -/
def toDatum (result : ExecutionResult) : Datum :=
  .record ([("counts", result.counts.toDatum), ("shots", .ofNat result.shots.toNat)] ++
    (result.milliseconds.map fun time => ("execution_time_ms", .ofNat time.toNat)).toList)

def ofDatum? (datum : Datum) : Option ExecutionResult := do
  let fields ← Fields.of? ["counts", "shots", "execution_time_ms"] datum
  let counts ← fields.required "counts" Counts.ofDatum?
  let shots ← fields.required "shots" Datum.word32?
  let milliseconds ← fields.optional "execution_time_ms" Datum.word64?
  return ⟨counts, shots, milliseconds⟩

end ExecutionResult

namespace LinearShots

def fieldData (policy : LinearShots) : List (String × Datum) :=
  [("threshold", .ofNat policy.threshold.toNat),
    ("per_index_low", .ofNat policy.perIndexLow.toNat),
    ("per_index_high", .ofNat policy.perIndexHigh.toNat),
    ("offset_high", .ofNat policy.offsetHigh.toNat)]

/-- Read a linear policy that is stored; fields that are not there are the standard ones. -/
def ofStored? (content : Datum) : Option LinearShots := do
  let fields ←
    Fields.ofStored? ["threshold", "per_index_low", "per_index_high", "offset_high"] content
  let threshold ← fields.defaulted "threshold" standard.threshold Datum.word32?
  let perIndexLow ← fields.defaulted "per_index_low" standard.perIndexLow Datum.word32?
  let perIndexHigh ← fields.defaulted "per_index_high" standard.perIndexHigh Datum.word32?
  let offsetHigh ← fields.defaulted "offset_high" standard.offsetHigh Datum.word32?
  return { threshold, perIndexLow, perIndexHigh, offsetHigh }

end LinearShots

namespace ShotsPolicy

/-- The fields of a policy, its name among them. -/
def toDatum : ShotsPolicy → Datum
  | linear policy => .record (("policy", .string "linear") :: policy.fieldData)
  | fixed shots => .record [("policy", .string "fixed"), ("shots", .ofNat shots.toNat)]

/-- The text of a policy's name and the other entries, as they are stored. -/
def splitEntries? (entries : List (Datum × Datum)) : Option (String × Datum) := do
  let entries ← entries.mapM fun (key, content) => key.stored?.map (·, content)
  let names := entries.filter (·.1.text? == some "policy")
  let others := entries.filter (·.1.text? != some "policy")
  match names with
  | [(_, name)] =>
      let name ← name.text?
      let others ← others.mapM fun (key, content) => content.stored?.map (key, ·)
      return (name, .mapping others)
  | _ => none

/-- The text of a policy's name, which comes first, and the other items, as they are stored. -/
def splitItems? : List Datum → Option (String × Datum)
  | [] => none
  | name :: others => do
      let name ← name.text?
      let others ← others.mapM Datum.stored?
      return (name, .list others)

/-- The name of a policy and the rest of its content, which is stored until the name is known. -/
def split? : Datum → Option (String × Datum)
  | .record fields => splitEntries? (fields.map fun (name, content) => (.string name, content))
  | .mapping entries => splitEntries? entries
  | .list items => splitItems? items
  | .sequence items => splitItems? items
  | .marked (.variant _) _ => none
  | .marked .overgrown _ => none
  | .marked _ content => split? content
  | _ => none

def ofDatum? (datum : Datum) : Option ShotsPolicy :=
  match split? datum with
  | some ("linear", content) => (LinearShots.ofStored? content).map linear
  | some ("fixed", content) => do
      let fields ← Fields.ofStored? ["shots"] content
      let shots ← fields.required "shots" Datum.word32?
      return fixed shots
  | _ => none

end ShotsPolicy

end HybridQuantum
