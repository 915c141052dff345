import HybridQuantum.Memory.Error
import HybridQuantum.Program.Literal
import HybridQuantum.Types.DataType

/-!
# Variables

A variable holds literals laid out after its data type: one slot per member, or
a single slot for a type without members.  Assignments are checked against the
slots, by position or by name, before anything is stored.
-/

namespace HybridQuantum

/-- How a variable may be written after its first assignment. -/
inductive Mutability where
  | constant
  | immutable
  | mutable
  | appendable
deriving DecidableEq, Repr

namespace Mutability

/-- Whether a second assignment is allowed. -/
def allowsReassign : Mutability → Bool
  | mutable => true
  | appendable => true
  | _ => false

end Mutability

/-- A place for one value: its member name and the type it takes. -/
structure Slot where
  name : Option String
  type : Option Name
deriving DecidableEq, Repr

namespace Slot

def ofMember (member : Member) : Slot :=
  ⟨member.name?, member.type?⟩

/-- The slots of a type: its members, or the type itself when it has none. -/
def layout (type : DataType) : List Slot :=
  if type.members.isEmpty then [⟨none, some type.name⟩] else type.members.map ofMember

end Slot

/-- A typed variable with its stored values. -/
structure Variable where
  name : Name
  type : Name
  container : Container
  mutability : Mutability
  slots : List Slot
  /-- The stored values with the member or tag each belongs to. -/
  data : List (Option String × Literal)
  assigned : Bool

namespace Variable

/-- An unassigned variable; name and type must be both quantum or both classical. -/
def new (name : Name) (type : DataType) (mutability : Mutability) :
    Except MemoryError Variable :=
  if name.isQuantum = type.isQuantum then
    .ok
      { name := name
        type := type.name
        container := type.kind
        mutability := mutability
        slots := Slot.layout type
        data := []
        assigned := false }
  else .error (.variableCreation name type.name)

def isQuantum (holder : Variable) : Bool :=
  holder.name.isQuantum

def values (holder : Variable) : List Literal :=
  holder.data.map Prod.snd

/-- The error of a value that does not fit. -/
def misfit (holder : Variable) (reason : Misfit) : MemoryError :=
  .type (.assignMismatch holder.container holder.type reason)

/-- A first assignment is always allowed, a later one only where values may change. -/
def checkWritable (holder : Variable) : Except MemoryError Unit :=
  if holder.assigned && !holder.mutability.allowsReassign then
    .error (.immutable holder.name)
  else .ok ()

/-- A value must have exactly the type of its slot. -/
def checkSlot (holder : Variable) (slot : Slot) (value : Literal) : Except MemoryError Unit :=
  match slot.type with
  | none => .error (holder.misfit (.noPayload slot.name))
  | some expected =>
      if expected = value.type then .ok ()
      else .error (holder.misfit (.wrongType slot.name expected value.type))

/-- Lay values into slots one by one. -/
def fillSlots (holder : Variable) :
    List Slot → List Literal → Except MemoryError (List (Option String × Literal))
  | slot :: slots, value :: values => do
      holder.checkSlot slot value
      let rest ← holder.fillSlots slots values
      return (slot.name, value) :: rest
  | _, _ => .ok []

/-- One value per slot, in slot order. -/
def layPositional (holder : Variable) (values : List Literal) :
    Except MemoryError (List (Option String × Literal)) :=
  if values.length = holder.slots.length then holder.fillSlots holder.slots values
  else .error (holder.misfit (.wrongCount holder.slots.length values.length))

/-- The only value of a list. -/
def exactlyOne (holder : Variable) : List Literal → Except MemoryError Literal
  | [value] => .ok value
  | _ => .error (holder.misfit .notExactlyOne)

/-- The first alternative of the value's type takes it. -/
def layAlternative (holder : Variable) (value : Literal) :
    Except MemoryError (List (Option String × Literal)) :=
  match holder.slots.find? fun slot => slot.type == some value.type with
  | some slot => .ok [(slot.name, value)]
  | none => .error (holder.misfit (.noAlternative value.type))

/-- A text value names a tag that carries no payload. -/
def layTag (holder : Variable) (value : Literal) :
    Except MemoryError (List (Option String × Literal)) :=
  match value.core?.map CoreLiteral.value with
  | some (.str tag) =>
      match holder.slots.find? fun slot => slot.name == some tag with
      | none => .error (holder.misfit (.unknownTag tag))
      | some slot =>
          if slot.type.isSome then .error (holder.misfit (.payloadRequired tag))
          else .ok [(some tag, value)]
  | _ => .error (holder.misfit .tagExpected)

/-- Replace the stored values. -/
def store (holder : Variable) (data : List (Option String × Literal)) : Variable :=
  { holder with data, assigned := true }

/--
Assign by position: one value per member for single and struct types, one value
of a matching alternative for a union, one tag name for an enum.
-/
def assign (holder : Variable) (values : List Literal) : Except MemoryError Variable := do
  holder.checkWritable
  let data ← match holder.container with
    | .single => holder.layPositional values
    | .struct => holder.layPositional values
    | .union => do holder.layAlternative (← holder.exactlyOne values)
    | .enum => do holder.layTag (← holder.exactlyOne values)
  return holder.store data

/-- The number of named values an assignment takes. -/
def namedCount (holder : Variable) : Nat :=
  match holder.container with
  | .union => 1
  | .enum => 1
  | .single => holder.slots.length
  | .struct => holder.slots.length

/-- Check named values one after another against the slots and what came before. -/
def collectNamed (holder : Variable) (data : List (Option String × Literal)) :
    List (String × Literal) → Except MemoryError (List (Option String × Literal))
  | [] => .ok data
  | (member, value) :: rest => do
      match holder.slots.find? fun slot => slot.name == some member with
      | none => .error (.wrongMember holder.name (some member))
      | some slot => holder.checkSlot slot value
      if data.any fun entry => entry.1 == some member then
        .error (holder.misfit (.assignedTwice member))
      else holder.collectNamed (data ++ [(some member, value)]) rest

/-- The position of the slot with a member's name. -/
def slotIndex (holder : Variable) (member : Option String) : Nat :=
  holder.slots.findIdx fun slot => slot.name == member

/-- Assign by member name or tag; the values are kept in declaration order. -/
def assignNamed (holder : Variable) (values : List (String × Literal)) :
    Except MemoryError Variable := do
  holder.checkWritable
  if values.length = holder.namedCount then .ok ()
  else .error (holder.misfit (.wrongCount holder.namedCount values.length))
  let data ← holder.collectNamed [] values
  return holder.store (data.mergeSort fun left right =>
    holder.slotIndex left.1 ≤ holder.slotIndex right.1)

/-- The value of a member, or the first stored value. -/
def get (holder : Variable) (member : Option String) : Except MemoryError Literal :=
  let found := match member with
    | none => holder.data.head?
    | some name => holder.data.find? fun entry => entry.1 == some name
  match found with
  | some (_, value) => .ok value
  | none => .error (.wrongMember holder.name member)

end Variable

end HybridQuantum
