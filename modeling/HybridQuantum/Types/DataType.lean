import HybridQuantum.Types.Error
import HybridQuantum.Types.Size

/-!
# Data types

A data type is a container with members.  Members are checked one at a time as
they are added: their kind fits the container, names are distinct, and nothing
quantum enters a classical container.
-/

namespace HybridQuantum

/-- A member of a container. -/
inductive Member where
  /-- The type a single type wraps. -/
  | single (memberType : Name)
  /-- A named struct member or union alternative. -/
  | typed (name : String) (memberType : Name)
  /-- An enum tag with an optional payload type. -/
  | variant (tag : String) (payload : Option Name)
deriving DecidableEq, Repr

namespace Member

def kind : Member → MemberKind
  | single _ => .single
  | typed _ _ => .typed
  | variant _ _ => .variant

/-- The name or tag; a single member has none. -/
def name? : Member → Option String
  | single _ => none
  | typed name _ => some name
  | variant tag _ => some tag

/-- The type a member refers to. -/
def type? : Member → Option Name
  | single memberType => some memberType
  | typed _ memberType => some memberType
  | variant _ payload => payload

end Member

/-- A declared type with its recorded sizes. -/
structure DataType where
  name : Name
  kind : Container
  members : List Member
  size : Size
  /-- The quantum size, once it is known. -/
  qsize : Option QSize
  isBuiltin : Bool
deriving DecidableEq, Repr

namespace DataType

/-- A user type without members or sizes. -/
def new (name : Name) (kind : Container) : DataType where
  name := name
  kind := kind
  members := []
  size := .unset
  qsize := none
  isBuiltin := false

/-- A builtin with its sizes. -/
def builtin (name : Name) (size : Size) (qsize : QSize) : DataType where
  name := name
  kind := .single
  members := []
  size := size
  qsize := some qsize
  isBuiltin := true

def isQuantum (type : DataType) : Bool :=
  type.name.isQuantum

def member? (type : DataType) (name : String) : Option Member :=
  type.members.find? fun member => member.name? == some name

def memberIndex? (type : DataType) (name : String) : Option Nat :=
  type.members.findIdx? fun member => member.name? == some name

/-- The types the members refer to, in order. -/
def memberTypes (type : DataType) : List Name :=
  type.members.filterMap Member.type?

/-- A member must be of the kind the container accepts. -/
def checkKind (type : DataType) (member : Member) : Except TypeError Unit :=
  if member.kind = type.kind.memberKind then .ok ()
  else .error (.memberKind type.name type.kind.memberKind member.kind)

/-- A single type wraps one member only. -/
def checkVacant (type : DataType) : Except TypeError Unit :=
  if type.kind = .single ∧ type.members ≠ [] then .error (.singleAlreadyAssigned type.name)
  else .ok ()

/-- Names and tags are distinct. -/
def checkFresh (type : DataType) (member : Member) : Except TypeError Unit :=
  match member.name? with
  | some name =>
      if (type.member? name).isSome then .error (.duplicateMember type.name name) else .ok ()
  | none => .ok ()

/-- A classical container holds nothing quantum; a struct member's name agrees with its type. -/
def checkParadigm (type : DataType) (member : Member) : Except TypeError Unit :=
  match member.type? with
  | none => .ok ()
  | some memberType =>
      if memberType.isQuantum && !type.isQuantum then
        .error (.quantumOnClassical type.name memberType)
      else match type.kind, member with
        | .struct, .typed name _ =>
            if isQuantumLeaf name = memberType.isQuantum then .ok ()
            else .error (.memberParadigm type.name name memberType)
        | _, _ => .ok ()

/-- Add a member after every check has passed; builtins take none. -/
def addMember (type : DataType) (member : Member) : Except TypeError DataType := do
  if type.isBuiltin then .error (.builtinImmutable type.name) else .ok ()
  type.checkKind member
  type.checkVacant
  type.checkFresh member
  type.checkParadigm member
  return { type with members := type.members ++ [member] }

end DataType

end HybridQuantum
