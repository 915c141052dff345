import HybridQuantum.Types.Table

/-!
# Definition cycles

A depth-first walk through member types.  The walk carries the path it came
along; reaching a name on that path closes a cycle, which is reported from the
repeated name back to itself.  A finished name is not walked again.  Every step
puts a declared name on the path, so the number of declared names off the path
bounds the depth.
-/

namespace HybridQuantum

namespace TypeTable

/-- The number of declared names that are not on a path. -/
def pending (table : TypeTable) (path : List Name) : Nat :=
  (table.names.filter fun name => name ∉ path).length

theorem pending_append_lt (table : TypeTable) {path : List Name} {name : Name}
    (declared : name ∈ table.names) (fresh : name ∉ path) :
    table.pending (path ++ [name]) < table.pending path := by
  have split : table.names.filter (fun other => other ∉ path ++ [name]) =
      (table.names.filter (fun other => other ∉ path)).filter (fun other => other ≠ name) := by
    rw [List.filter_filter]
    congr 1
    funext other
    simp [not_or, and_comm]
  rw [pending, split]
  refine List.length_filter_lt_length_iff_exists.2 ⟨name, ?_, by simp⟩
  simp [declared, fresh]

theorem mem_names_of_get?_eq_some {table : TypeTable} {name : Name} {type : DataType}
    (found : table.get? name = some type) : name ∈ table.names := by
  rw [← name_of_get?_eq_some found]
  exact List.mem_map_of_mem (mem_of_get?_eq_some found)

end TypeTable

/-- The part of a path from the first visit of a name, closed by that name. -/
def closeCycle (path : List Name) (name : Name) : List Name :=
  path.dropWhile (· ≠ name) ++ [name]

namespace TypeTable

mutual

/--
Walk from one name.  A finished name, and a name without declaration, has
nothing to walk; a name on the path closes a cycle.  The answer is the finished
names, this one included when it is declared.
-/
def visit (table : TypeTable) (path finished : List Name) (name : Name) :
    Except TypeError (List Name) :=
  if name ∈ finished then .ok finished
  else if _onPath : name ∈ path then .error (.definitionCycle (closeCycle path name))
  else match _found : table.get? name with
    | none => .ok finished
    | some type =>
        match visitAll table (path ++ [name]) finished type.memberTypes with
        | .ok finished => .ok (name :: finished)
        | .error cause => .error cause
termination_by (table.pending path, 0)
decreasing_by
  exact Prod.Lex.left _ _ (table.pending_append_lt (mem_names_of_get?_eq_some _found) _onPath)

def visitAll (table : TypeTable) (path finished : List Name) :
    List Name → Except TypeError (List Name)
  | [] => .ok finished
  | name :: rest =>
      match visit table path finished name with
      | .ok finished => visitAll table path finished rest
      | .error cause => .error cause
termination_by names => (table.pending path, names.length + 1)

end

/-- Look for a definition cycle anywhere in the table; undeclared member types are passed over. -/
def detectCycles (table : TypeTable) : Except TypeError Unit :=
  match table.visitAll [] [] table.names with
  | .ok _ => .ok ()
  | .error cause => .error cause

end TypeTable

end HybridQuantum
