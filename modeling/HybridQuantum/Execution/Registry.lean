import HybridQuantum.Execution.Error
import HybridQuantum.Execution.Info
import HybridQuantum.FiniteMap

/-!
# The registry of back ends

Constructors of back ends under names, so that a configuration can choose one.
-/

namespace HybridQuantum

/-- Constructors of back ends of type `β` under names. -/
structure Registry (β : Type) where
  factories : FiniteMap String (BackendInfo → Except BackendError β)

namespace Registry

variable {β : Type}

def empty : Registry β :=
  ⟨.empty⟩

/-- Put a constructor under a name, whatever was there before. -/
def register (registry : Registry β) (name : String)
    (factory : BackendInfo → Except BackendError β) : Registry β :=
  ⟨registry.factories.insert name factory⟩

def has (registry : Registry β) (name : String) : Bool :=
  registry.factories.contains name

def create (registry : Registry β) (name : String) (info : BackendInfo) :
    Except BackendError β :=
  match registry.factories.get? name with
  | some factory => factory info
  | none => .error (.unavailable ("No backend registered with name '" ++ name ++ "'"))

/-- The names in ascending order. -/
def available (registry : Registry β) : List String :=
  registry.factories.keys.mergeSort

end Registry

end HybridQuantum
