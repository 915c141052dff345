/-!
# Descriptions of execution targets
-/

namespace HybridQuantum

/-- The kind of an execution target. -/
inductive DeviceType where
  | simulator
  | emulator
  | qpu
deriving DecidableEq, Repr

namespace DeviceType

def text : DeviceType → String
  | simulator => "simulator"
  | emulator => "emulator"
  | qpu => "qpu"

end DeviceType

/-- A way of computing that a target supports. -/
inductive Paradigm where
  /-- Quantum gates. -/
  | digital
  /-- Pulses and continuous evolution. -/
  | analog
  | classical
deriving DecidableEq, Repr

namespace Paradigm

def text : Paradigm → String
  | digital => "digital"
  | analog => "analog"
  | classical => "classical"

end Paradigm

/-- What is known of an execution target in advance. -/
structure BackendInfo where
  name : String
  version : String
  maxQubits : UInt32
  deviceType : DeviceType
  paradigms : List Paradigm
deriving DecidableEq, Repr

namespace BackendInfo

/-- The version of the local targets. -/
def localVersion : String := "0.3.0"

/-- A local digital simulator. -/
def simulator (name : String) (maxQubits : UInt32) : BackendInfo where
  name := name
  version := localVersion
  maxQubits := maxQubits
  deviceType := .simulator
  paradigms := [.digital]

/-- The simulator that is used when nothing else is configured. -/
def standard : BackendInfo :=
  simulator "simulator" 20

def supports (info : BackendInfo) (paradigm : Paradigm) : Bool :=
  info.paradigms.contains paradigm

def isSimulator (info : BackendInfo) : Bool :=
  info.deviceType = .simulator

end BackendInfo

end HybridQuantum
