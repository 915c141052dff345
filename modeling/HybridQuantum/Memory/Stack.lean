import HybridQuantum.Memory.Error

/-!
# The value stack

A last-in first-out stack with a fixed capacity.
-/

namespace HybridQuantum

/-- A bounded stack. -/
structure Stack (α : Type) where
  /-- The items, the top one first. -/
  items : List α
  capacity : Nat

namespace Stack

variable {α : Type}

/-- No items. -/
def new (capacity : Nat) : Stack α :=
  ⟨[], capacity⟩

def push (stack : Stack α) (item : α) : Except MemoryError (Stack α) :=
  if stack.items.length < stack.capacity then .ok { stack with items := item :: stack.items }
  else .error (.stackOverflow stack.capacity)

def pop (stack : Stack α) : Except MemoryError (α × Stack α) :=
  match stack.items with
  | [] => .error .stackEmpty
  | item :: items => .ok (item, { stack with items })

def peek (stack : Stack α) : Except MemoryError α :=
  match stack.items with
  | [] => .error .stackEmpty
  | item :: _ => .ok item

end Stack

end HybridQuantum
