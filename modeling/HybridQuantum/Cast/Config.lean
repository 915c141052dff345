import HybridQuantum.Cast.Resolver
import HybridQuantum.Execution.Info
import HybridQuantum.Execution.Shots
import HybridQuantum.Memory.Scope
import HybridQuantum.Text.Blank

/-!
# Runtime configuration

What a host sets once: the execution target, shots and time limit, the resolver
and the memory limits.  Named variables override fields of a configuration, and
a configuration is checked before it is used.
-/

namespace HybridQuantum

/-- Shots and time limit of runs. -/
structure ExecutionConfig where
  /-- A fixed number of shots; without one the policy decides. -/
  shots : Option UInt32
  /-- The limit of a run in seconds; without one the back end's own applies. -/
  timeoutSeconds : Option UInt64
  policy : ShotsPolicy
deriving DecidableEq, Repr

namespace ExecutionConfig

/-- The policy decides, and a run may take a minute. -/
def standard : ExecutionConfig where
  shots := none
  timeoutSeconds := some 60
  policy := .standard

def shotsFor (config : ExecutionConfig) (indexCount : Nat) : UInt32 :=
  config.shots.getD (config.policy.estimate indexCount)

/-- The limit of a run in milliseconds. -/
def timeout (config : ExecutionConfig) : Option Nat :=
  config.timeoutSeconds.map fun seconds => seconds.toNat * 1000

end ExecutionConfig

/-- The memory limits of a scope. -/
structure MemoryConfig where
  maxIndexes : UInt64
  stackCapacity : UInt64
deriving DecidableEq, Repr

namespace MemoryConfig

/-- Twenty indices, and the usual stack. -/
def standard : MemoryConfig where
  maxIndexes := 20
  stackCapacity := UInt64.ofNat Scope.defaultStackCapacity

def scope (config : MemoryConfig) : Scope :=
  .new config.maxIndexes.toNat config.stackCapacity.toNat

end MemoryConfig

/-- A complete configuration. -/
structure RuntimeConfig where
  backend : BackendInfo
  execution : ExecutionConfig
  resolver : ResolverKind
  memory : MemoryConfig
deriving DecidableEq, Repr

/-- What a configuration must not say. -/
inductive ConfigFlaw where
  | noIndexes
  | noStack
  | noShots
  | noTime
  | noQubits (backend : String)
  | notDigital (backend : String)
deriving DecidableEq, Repr

namespace ConfigFlaw

def message : ConfigFlaw → String
  | noIndexes => "max_num_index must be greater than 0"
  | noStack => "stack_capacity must be greater than 0"
  | noShots => "shots must be greater than 0"
  | noTime => "timeout_seconds must be greater than 0"
  | noQubits backend => "backend '" ++ backend ++ "' has no qubits"
  | notDigital backend => "backend '" ++ backend ++ "' does not support the digital paradigm"

end ConfigFlaw

/-- What goes wrong while a configuration is loaded. -/
inductive ConfigError where
  | unreadable
  | yaml
  | json
  | unsupportedFormat
  | invalidVariable (variableName value : String)
  | validation (flaw : ConfigFlaw)
deriving DecidableEq, Repr

namespace ConfigError

def message : ConfigError → String
  | unreadable => "Cannot read config file"
  | yaml => "YAML parse error"
  | json => "JSON parse error"
  | unsupportedFormat => "Unsupported config format"
  | invalidVariable variableName value => "Invalid value '" ++ value ++ "' for " ++ variableName
  | validation flaw => "Validation error: " ++ flaw.message

end ConfigError

namespace RuntimeConfig

def standard : RuntimeConfig where
  backend := .standard
  execution := .standard
  resolver := .highest
  memory := .standard

/-- The first flaw of a configuration. -/
def flaw? (config : RuntimeConfig) : Option ConfigFlaw :=
  if config.memory.maxIndexes = 0 then some .noIndexes
  else if config.memory.stackCapacity = 0 then some .noStack
  else if config.execution.shots = some 0 then some .noShots
  else if config.execution.timeoutSeconds = some 0 then some .noTime
  else if config.backend.maxQubits = 0 then some (.noQubits config.backend.name)
  else if !config.backend.supports .digital then some (.notDigital config.backend.name)
  else none

def validate (config : RuntimeConfig) : Except ConfigError Unit :=
  match config.flaw? with
  | some flaw => .error (.validation flaw)
  | none => .ok ()

/-- The value of a variable, read without white space around it; an unset one changes nothing. -/
def override {α : Type} (lookup : String → Option String) (variableName : String)
    (read : List Char → Option α) : Except ConfigError (Option α) :=
  match lookup variableName with
  | none => .ok none
  | some value =>
      match read (Text.trim value.toList) with
      | some content => .ok (some content)
      | none => .error (.invalidVariable variableName value)

/-- Replace fields by the variables that are set. -/
def withOverrides (config : RuntimeConfig) (lookup : String → Option String) :
    Except ConfigError RuntimeConfig := do
  let shots ← override lookup "HHAT_SHOTS" fun text =>
    (Text.unsigned? text).bind Word.ofNat32?
  let timeout ← override lookup "HHAT_TIMEOUT_SECONDS" fun text =>
    (Text.unsigned? text).bind Word.ofNat64?
  let resolver ← override lookup "HHAT_RESOLVER" fun text =>
    ResolverKind.ofText? (String.ofList text)
  let maxIndexes ← override lookup "HHAT_MAX_NUM_INDEX" fun text =>
    (Text.unsigned? text).bind Word.ofNat64?
  return { config with
    execution :=
      { config.execution with
        shots := shots.or config.execution.shots
        timeoutSeconds := timeout.or config.execution.timeoutSeconds }
    resolver := resolver.getD config.resolver
    memory := { config.memory with maxIndexes := maxIndexes.getD config.memory.maxIndexes } }

end RuntimeConfig

end HybridQuantum
