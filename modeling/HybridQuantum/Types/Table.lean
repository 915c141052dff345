import HybridQuantum.Types.Builtin

/-!
# The type table

Declared types in declaration order, under distinct names.
-/

namespace HybridQuantum

/-- Declared types in declaration order, no two under one name. -/
structure TypeTable where
  types : List DataType
  distinct : (types.map DataType.name).Nodup

namespace TypeTable

def empty : TypeTable :=
  ⟨[], List.nodup_nil⟩

/-- The builtin types. -/
def builtins : TypeTable :=
  ⟨Builtin.types, by decide⟩

def get? (table : TypeTable) (name : Name) : Option DataType :=
  table.types.find? fun type => type.name == name

def contains (table : TypeTable) (name : Name) : Bool :=
  (table.get? name).isSome

def names (table : TypeTable) : List Name :=
  table.types.map DataType.name

theorem get?_eq_none_iff (table : TypeTable) (name : Name) :
    table.get? name = none ↔ name ∉ table.names := by
  simp only [get?, List.find?_eq_none, names, List.mem_map, beq_iff_eq, not_exists, not_and]

theorem name_of_get?_eq_some {table : TypeTable} {name : Name} {type : DataType}
    (found : table.get? name = some type) : type.name = name := by
  simpa using List.find?_some found

theorem mem_of_get?_eq_some {table : TypeTable} {name : Name} {type : DataType}
    (found : table.get? name = some type) : type ∈ table.types :=
  List.mem_of_find?_eq_some found

/-- Declare a type under a fresh name. -/
def add (table : TypeTable) (type : DataType) : Except TypeError TypeTable :=
  if declared : type.name ∈ table.names then .error (.alreadyDefined type.name)
  else .ok
    { types := table.types ++ [type]
      distinct := by
        rw [List.map_append, List.nodup_append]
        refine ⟨table.distinct, by simp, ?_⟩
        intro first firstMem second secondMem same
        simp only [List.map_cons, List.map_nil, List.mem_singleton] at secondMem
        exact declared (secondMem ▸ same ▸ firstMem) }

/-- Change what is recorded on each type without changing its name. -/
def update (table : TypeTable) (change : DataType → DataType)
    (keepsName : ∀ type, (change type).name = type.name) : TypeTable where
  types := table.types.map change
  distinct := by
    have same : DataType.name ∘ change = DataType.name := funext keepsName
    rw [List.map_map, same]
    exact table.distinct

end TypeTable

end HybridQuantum
