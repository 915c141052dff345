import HybridQuantum.Name

/-!
# Containers, members and the errors of the type system

The four kinds of data type containers, the kinds of members they accept, and
every way in which declaring, filling, assigning or measuring a type goes wrong.
`TypeError.message` holds the wording.
-/

namespace HybridQuantum

/-- The four kinds of data types. -/
inductive Container where
  /-- Wraps exactly one type. -/
  | single
  /-- Ordered, named members. -/
  | struct
  /-- Named alternatives. -/
  | union
  /-- Tags, each optionally with a payload. -/
  | enum
deriving DecidableEq, Repr

namespace Container

def text : Container → String
  | single => "single"
  | struct => "struct"
  | union => "union"
  | enum => "enum"

end Container

inductive MemberKind where
  | single
  | typed
  | variant
deriving DecidableEq, Repr

namespace MemberKind

def text : MemberKind → String
  | single => "single"
  | typed => "named"
  | variant => "variant"

end MemberKind

/-- The kind of member a container accepts. -/
def Container.memberKind : Container → MemberKind
  | single => .single
  | struct => .typed
  | union => .typed
  | enum => .variant

/-- Why a value does not fit the layout of a type. -/
inductive Misfit where
  | wrongCount (expected found : Nat)
  | notExactlyOne
  | noAlternative (valueType : Name)
  | tagExpected
  | unknownTag (tag : String)
  | payloadRequired (tag : String)
  | noPayload (tag : Option String)
  | wrongType (member : Option String) (expected found : Name)
  | assignedTwice (member : String)
deriving DecidableEq, Repr

namespace Misfit

/-- A member's name, or a blank mark for an unnamed one. -/
def slotText (member : Option String) : String :=
  member.getD "_"

def message : Misfit → String
  | wrongCount expected found =>
      "expected " ++ toString expected ++ " values, got " ++ toString found
  | notExactlyOne => "expected exactly one value"
  | noAlternative valueType => "no alternative of type '" ++ valueType.text ++ "'"
  | tagExpected => "expected a tag name"
  | unknownTag tag => "unknown tag '" ++ tag ++ "'"
  | payloadRequired tag => "tag '" ++ tag ++ "' requires a payload"
  | noPayload tag => "tag '" ++ slotText tag ++ "' carries no payload"
  | wrongType member expected found =>
      "member '" ++ slotText member ++ "' expects '" ++ expected.text ++ "', got '" ++
        found.text ++ "'"
  | assignedTwice member => "member '" ++ member ++ "' assigned twice"

end Misfit

/-- What goes wrong with data types. -/
inductive TypeError where
  | unknownType (name : Name)
  | alreadyDefined (name : Name)
  | quantumOnClassical (container memberType : Name)
  | memberParadigm (container : Name) (member : String) (memberType : Name)
  | memberKind (container : Name) (expected found : MemberKind)
  | duplicateMember (container : Name) (member : String)
  | singleAlreadyAssigned (name : Name)
  | assignMismatch (kind : Container) (typeName : Name) (reason : Misfit)
  | sizeAlreadySet (current requested : UInt32)
  /-- A closed walk through member types, from a name back to itself. -/
  | definitionCycle (path : List Name)
  | unsizedType (name : Name)
  | invalidEnumPayload (enumName : Name) (tag : String) (payload : Name)
  | builtinImmutable (name : Name)
deriving DecidableEq, Repr

namespace TypeError

def message : TypeError → String
  | unknownType name => "Unknown type '" ++ name.text ++ "'"
  | alreadyDefined name => "Type '" ++ name.text ++ "' is already defined"
  | quantumOnClassical container memberType =>
      "Classical type '" ++ container.text ++ "' cannot hold quantum member type '" ++
        memberType.text ++ "'"
  | memberParadigm container member memberType =>
      "Member '" ++ member ++ "' of '" ++ container.text ++ "' and its type '" ++
        memberType.text ++ "' belong to different paradigms"
  | memberKind container expected found =>
      "Type '" ++ container.text ++ "' accepts " ++ expected.text ++ " members, got " ++
        found.text
  | duplicateMember container member =>
      "Duplicate member '" ++ member ++ "' in type '" ++ container.text ++ "'"
  | singleAlreadyAssigned name => "Single type '" ++ name.text ++ "' already has a member"
  | assignMismatch kind typeName reason =>
      kind.text ++ " assignment mismatch on '" ++ typeName.text ++ "': " ++ reason.message
  | sizeAlreadySet current requested =>
      "Size already set to " ++ toString current.toNat ++ " bits, cannot set " ++
        toString requested.toNat
  | definitionCycle path =>
      "Type definition cycle: " ++ " -> ".intercalate (path.map Name.text)
  | unsizedType name => "Type '" ++ name.text ++ "' has no fixed size"
  | invalidEnumPayload enumName tag payload =>
      "Enum '" ++ enumName.text ++ "' variant '" ++ tag ++ "' carries invalid payload type '" ++
        payload.text ++ "'"
  | builtinImmutable name => "Builtin type '" ++ name.text ++ "' is immutable"

end TypeError

end HybridQuantum
