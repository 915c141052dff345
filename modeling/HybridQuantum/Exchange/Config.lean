import HybridQuantum.Cast.Config
import HybridQuantum.Exchange.Execution
import HybridQuantum.Exchange.Json
import HybridQuantum.Exchange.Yaml.Document

/-!
# Configuration texts

A runtime configuration as a data tree, and back; what a text leaves out takes
its standard value.  The format of a configuration file is told by its
extension, and a loaded file is checked.
-/

namespace HybridQuantum

namespace ResolverKind

def ofDatum? : Datum → Option ResolverKind :=
  Datum.choice? text all

end ResolverKind

namespace ExecutionConfig

def toDatum (config : ExecutionConfig) : Datum :=
  .record [("shots", .ofOption (fun shots => .ofNat shots.toNat) config.shots),
    ("timeout_seconds", .ofOption (fun seconds => .ofNat seconds.toNat) config.timeoutSeconds),
    ("shots_policy", config.policy.toDatum)]

/-- Read the execution part; a limit that is written as nothing is no limit. -/
def ofDatum? (datum : Datum) : Option ExecutionConfig := do
  let fields ← Fields.of? ["shots", "timeout_seconds", "shots_policy"] datum
  let shots ← fields.defaulted "shots" standard.shots (Datum.option? Datum.word32?)
  let timeoutSeconds ←
    fields.defaulted "timeout_seconds" standard.timeoutSeconds (Datum.option? Datum.word64?)
  let policy ← fields.defaulted "shots_policy" standard.policy ShotsPolicy.ofDatum?
  return { shots, timeoutSeconds, policy }

end ExecutionConfig

namespace MemoryConfig

def toDatum (config : MemoryConfig) : Datum :=
  .record [("max_num_index", .ofNat config.maxIndexes.toNat),
    ("stack_capacity", .ofNat config.stackCapacity.toNat)]

def ofDatum? (datum : Datum) : Option MemoryConfig := do
  let fields ← Fields.of? ["max_num_index", "stack_capacity"] datum
  let maxIndexes ← fields.defaulted "max_num_index" standard.maxIndexes Datum.word64?
  let stackCapacity ← fields.defaulted "stack_capacity" standard.stackCapacity Datum.word64?
  return { maxIndexes, stackCapacity }

end MemoryConfig

namespace RuntimeConfig

def toDatum (config : RuntimeConfig) : Datum :=
  .record [("backend", config.backend.toDatum), ("execution", config.execution.toDatum),
    ("resolver", .string config.resolver.text), ("memory", config.memory.toDatum)]

def ofDatum? (datum : Datum) : Option RuntimeConfig := do
  let fields ← Fields.of? ["backend", "execution", "resolver", "memory"] datum
  let backend ← fields.defaulted "backend" standard.backend BackendInfo.ofDatum?
  let execution ← fields.defaulted "execution" standard.execution ExecutionConfig.ofDatum?
  let resolver ← fields.defaulted "resolver" standard.resolver ResolverKind.ofDatum?
  let memory ← fields.defaulted "memory" standard.memory MemoryConfig.ofDatum?
  return { backend, execution, resolver, memory }

def ofJson (text : String) : Except ConfigError RuntimeConfig :=
  match (Json.read text).bind ofDatum? with
  | some config => .ok config
  | none => .error .json

def ofYaml (text : String) : Except ConfigError RuntimeConfig :=
  match (Yaml.read text).bind ofDatum? with
  | some config => .ok config
  | none => .error .yaml

/-- What follows the last dot of a file name, unless that dot comes first. -/
def extension? (fileName : String) : Option String :=
  let letters := fileName.toList.reverse.takeWhile (· ≠ '.')
  if letters.length + 1 < fileName.length then some (String.ofList letters.reverse) else none

/-- Read a text in the format that the extension of its file name tells. -/
def ofText (fileName text : String) : Except ConfigError RuntimeConfig :=
  match extension? fileName with
  | some "yaml" => ofYaml text
  | some "yml" => ofYaml text
  | some "json" => ofJson text
  | _ => .error .unsupportedFormat

/-- Read and check a file with a name; a file without content cannot be read. -/
def ofFile (fileName : String) (content : Option String) : Except ConfigError RuntimeConfig :=
  match content with
  | none => .error .unreadable
  | some text => do
      let config ← ofText fileName text
      config.validate
      return config

/-- Read the file, if there is one, apply the variables that are set, and check the whole. -/
def load (file : Option (String × Option String)) (lookup : String → Option String) :
    Except ConfigError RuntimeConfig := do
  let config ← match file with
    | none => .ok standard
    | some (fileName, content) => ofFile fileName content
  let config ← config.withOverrides lookup
  config.validate
  return config

end RuntimeConfig

end HybridQuantum
