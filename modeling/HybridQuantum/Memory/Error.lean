import HybridQuantum.Types.Error

/-!
# Errors of memory

What goes wrong with quantum indices, the value stack, the variable heap and
assignments, with the wording of each error.
-/

namespace HybridQuantum

/-- What goes wrong in the memory of a scope. -/
inductive MemoryError where
  /-- Not enough free indices; nothing was granted. -/
  | indexAllocation (var : Name) (requested available : Nat)
  | hasIndexes (var : Name)
  /-- The variable holds no indices, or has no reservation. -/
  | holdsNoIndexes (var : Name)
  | emptyRequest (var : Name)
  | stackOverflow (capacity : Nat)
  | stackEmpty
  | invalidKey (name : Name)
  | useAfterFree (name : Name)
  /-- The variable's name and its type belong to different paradigms. -/
  | variableCreation (var typeName : Name)
  | immutable (var : Name)
  /-- A missing member; none stands for the first stored value. -/
  | wrongMember (var : Name) (member : Option String)
  | type (cause : TypeError)
deriving DecidableEq, Repr

namespace MemoryError

def message : MemoryError → String
  | indexAllocation var requested available =>
      "Variable '" ++ var.text ++ "' requested " ++ toString requested ++
        " indexes, but only " ++ toString available ++ " are available"
  | hasIndexes var => "Variable '" ++ var.text ++ "' already has indexes"
  | holdsNoIndexes var => "Variable '" ++ var.text ++ "' holds no indexes"
  | emptyRequest var => "Variable '" ++ var.text ++ "' requested zero indexes"
  | stackOverflow capacity => "Stack overflow (capacity " ++ toString capacity ++ ")"
  | stackEmpty => "Stack is empty"
  | invalidKey name => "Invalid heap key '" ++ name.text ++ "'"
  | useAfterFree name => "Variable '" ++ name.text ++ "' used after free"
  | variableCreation var typeName =>
      "Cannot create variable '" ++ var.text ++ "' of type '" ++ typeName.text ++
        "': variable and type belong to different paradigms"
  | immutable var => "Variable '" ++ var.text ++ "' is immutable"
  | wrongMember var member =>
      "Variable '" ++ var.text ++ "' has no member '" ++ member.getD "<first>" ++ "'"
  | type cause => cause.message

end MemoryError

end HybridQuantum
