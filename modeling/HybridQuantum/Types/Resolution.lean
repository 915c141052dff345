import HybridQuantum.FiniteMap
import HybridQuantum.Types.Cycle

/-!
# Size resolution

The size of a user type is the sum of the sizes of its member types.  One walk
serves both the classical and the quantum size; `Measure` says what differs.
What the walk finds is recorded on the table, also when it stops with an error
further on, so no type is summed twice.
-/

namespace HybridQuantum

/-- A quantity that is recorded on types and added up over members. -/
structure Measure (σ : Type) where
  /-- What is already recorded on a type. -/
  recorded : DataType → Option σ
  zero : σ
  add? : σ → σ → Option σ
  /-- Why a type without a record cannot be summed over its members. -/
  refusal : DataType → Option TypeError
  /-- How an error below a type is reported on behalf of that type. -/
  relabel : Name → TypeError → TypeError
  /-- Why a sum cannot be recorded beside an earlier record. -/
  clash : σ → σ → Option TypeError

namespace Measure

/-- The classical bit width: builtins without a width have none to offer. -/
def bits : Measure UInt32 where
  recorded type := type.size.bits
  zero := 0
  add? := Word.add32?
  refusal type := if type.isBuiltin then some (.unsizedType type.name) else none
  relabel name
    | .unsizedType _ => .unsizedType name
    | other => other
  clash current requested := some (.sizeAlreadySet current requested)

/-- The bounds on the number of quantum indices. -/
def indices : Measure QSize where
  recorded type := type.qsize
  zero := .empty
  add? := QSize.add?
  refusal _ := none
  relabel _ cause := cause
  clash _ _ := none

end Measure

namespace TypeTable

/-- An enum payload must be declared, and be a single or a struct type. -/
def checkPayload (table : TypeTable) (container : Name) : Member → Except TypeError Unit
  | .variant tag (some payload) =>
      match table.get? payload with
      | none => .error (.unknownType payload)
      | some type =>
          if type.kind = .single ∨ type.kind = .struct then .ok ()
          else .error (.invalidEnumPayload container tag payload)
  | _ => .ok ()

/-- The member types of a type, after all its enum payloads are checked. -/
def dependencies (table : TypeTable) (type : DataType) : Except TypeError (List Name) :=
  match type.members.forM (table.checkPayload type.name) with
  | .ok () => .ok type.memberTypes
  | .error cause => .error cause

/-- What a walk has summed so far. -/
abbrev Sums (σ : Type) := FiniteMap Name σ

variable {σ : Type}

mutual

/-- The measure of one name, given the path that leads to it and the sums found so far. -/
def measureOf (measure : Measure σ) (table : TypeTable) (path : List Name) (sums : Sums σ)
    (name : Name) : Outcome TypeError σ × Sums σ :=
  if _onPath : name ∈ path then (.fail (.definitionCycle (closeCycle path name)), sums)
  else match _found : table.get? name with
    | none => (.fail (.unknownType name), sums)
    | some type =>
        match (sums.get? name).or (measure.recorded type) with
        | some known => (.ok known, sums)
        | none =>
            match measure.refusal type with
            | some cause => (.fail cause, sums)
            | none =>
                match table.dependencies type with
                | .error cause => (.fail cause, sums)
                | .ok memberTypes =>
                    match measureAll measure table (path ++ [name]) sums measure.zero
                        memberTypes with
                    | (.error .overflow, sums) => (.error .overflow, sums)
                    | (.error (.error cause), sums) => (.fail (measure.relabel name cause), sums)
                    | (.ok total, sums) =>
                        match (sums.get? name).bind (measure.clash · total) with
                        | some cause => (.fail cause, sums)
                        | none => (.ok total, sums.insert name total)
termination_by (table.pending path, 0)
decreasing_by
  exact Prod.Lex.left _ _ (table.pending_append_lt (mem_names_of_get?_eq_some _found) _onPath)

/-- The sum of the measures of names in order, on top of a running total. -/
def measureAll (measure : Measure σ) (table : TypeTable) (path : List Name) (sums : Sums σ)
    (total : σ) : List Name → Outcome TypeError σ × Sums σ
  | [] => (.ok total, sums)
  | name :: rest =>
      match measureOf measure table path sums name with
      | (.error fault, sums) => (.error fault, sums)
      | (.ok part, sums) =>
          match measure.add? total part with
          | none => (.error .overflow, sums)
          | some total => measureAll measure table path sums total rest
termination_by names => (table.pending path, names.length + 1)

end

/-- Put quantum sizes on the types they belong to. -/
def recordQSizes (table : TypeTable) (sums : Sums QSize) : TypeTable :=
  table.update (fun type => { type with qsize := (sums.get? type.name).or type.qsize })
    fun _ => rfl

/-- Put bit widths on the types they belong to. -/
def recordSizes (table : TypeTable) (sums : Sums UInt32) : TypeTable :=
  table.update (fun type => { type with size := ⟨(sums.get? type.name).or type.size.bits⟩ })
    fun _ => rfl

/-- The quantum size of a name, and the table with everything found on the way. -/
def resolveQSize (table : TypeTable) (name : Name) : Outcome TypeError QSize × TypeTable :=
  match measureOf .indices table [] .empty name with
  | (answer, sums) => (answer, table.recordQSizes sums)

/-- The bit width of a name, and the table with everything found on the way. -/
def resolveSize (table : TypeTable) (name : Name) : Outcome TypeError UInt32 × TypeTable :=
  match measureOf .bits table [] .empty name with
  | (answer, sums) => (answer, table.recordSizes sums)

/-- Resolve both sizes of names in order; a type without a bit width keeps none. -/
def resolveNames (table : TypeTable) : List Name → Outcome TypeError Unit × TypeTable
  | [] => (.ok (), table)
  | name :: rest =>
      match table.resolveQSize name with
      | (.error fault, table) => (.error fault, table)
      | (.ok _, table) =>
          match table.resolveSize name with
          | (.ok _, table) => table.resolveNames rest
          | (.error (.error (.unsizedType _)), table) => table.resolveNames rest
          | (.error fault, table) => (.error fault, table)

/-- Reject cycles, then resolve every declared type. -/
def resolveAll (table : TypeTable) : Outcome TypeError Unit × TypeTable :=
  match table.detectCycles with
  | .error cause => (.fail cause, table)
  | .ok () => table.resolveNames table.names

end TypeTable

end HybridQuantum
