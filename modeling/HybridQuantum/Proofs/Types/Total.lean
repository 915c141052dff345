import HybridQuantum.Types.Resolution
import Mathlib.Logic.Relation

/-!
# Totals over member types

The measure of a name without any memory: a walk that sums the members of every
user type afresh.  A total exists exactly where a finite derivation adds it up,
and what stands in its way is a name without declaration, a type that contains
itself, an enum payload of the wrong kind, a type that refuses to be measured, or
a sum that is no word.
-/

namespace HybridQuantum

namespace TypeTable

variable {σ : Type}

mutual

/-- The measure of one name, given the path that leads to it, with nothing remembered. -/
def totalOf (measure : Measure σ) (table : TypeTable) (path : List Name) (name : Name) :
    Outcome TypeError σ :=
  if _onPath : name ∈ path then .fail (.definitionCycle (closeCycle path name))
  else match _found : table.get? name with
    | none => .fail (.unknownType name)
    | some type =>
        match measure.recorded type, measure.refusal type with
        | some own, _ => .ok own
        | none, some cause => .fail cause
        | none, none =>
            match table.dependencies type with
            | .error cause => .fail cause
            | .ok memberTypes =>
                Outcome.mapError (measure.relabel name)
                  (totalAll measure table (path ++ [name]) measure.zero memberTypes)
termination_by (table.pending path, 0)
decreasing_by
  exact Prod.Lex.left _ _ (table.pending_append_lt (mem_names_of_get?_eq_some _found) _onPath)

/-- The sum of the measures of names in order, on top of a running total. -/
def totalAll (measure : Measure σ) (table : TypeTable) (path : List Name) (total : σ) :
    List Name → Outcome TypeError σ
  | [] => .ok total
  | name :: rest =>
      match totalOf measure table path name with
      | .error fault => .error fault
      | .ok part =>
          match measure.add? total part with
          | none => .error .overflow
          | some total => totalAll measure table path total rest
termination_by names => (table.pending path, names.length + 1)

end

section Steps

variable {measure : Measure σ} {table : TypeTable} {path : List Name} {name : Name}
  {type : DataType}

theorem totalOf_of_mem (onPath : name ∈ path) :
    totalOf measure table path name = .fail (.definitionCycle (closeCycle path name)) := by
  rw [totalOf, dif_pos onPath]

theorem totalOf_of_get?_eq_none (fresh : name ∉ path) (missing : table.get? name = none) :
    totalOf measure table path name = .fail (.unknownType name) := by
  rw [totalOf, dif_neg fresh]
  split
  · rfl
  · rename_i found
    rw [missing] at found
    cases found

theorem totalOf_of_get?_eq_some (fresh : name ∉ path) (found : table.get? name = some type) :
    totalOf measure table path name =
      match measure.recorded type, measure.refusal type with
      | some own, _ => .ok own
      | none, some cause => .fail cause
      | none, none =>
          match table.dependencies type with
          | .error cause => .fail cause
          | .ok memberTypes =>
              Outcome.mapError (measure.relabel name)
                (totalAll measure table (path ++ [name]) measure.zero memberTypes) := by
  rw [totalOf, dif_neg fresh]
  split
  · rename_i missing
    rw [missing] at found
    cases found
  · rename_i other found'
    rw [found] at found'
    cases found'
    rfl

theorem exists_of_totalOf_eq_ok {value : σ} (done : totalOf measure table path name = .ok value) :
    name ∉ path ∧ ∃ type, table.get? name = some type ∧
      (measure.recorded type = some value ∨
        measure.recorded type = none ∧ measure.refusal type = none ∧
          ∃ memberTypes, table.dependencies type = .ok memberTypes ∧
            totalAll measure table (path ++ [name]) measure.zero memberTypes = .ok value) := by
  by_cases onPath : name ∈ path
  · rw [totalOf_of_mem onPath] at done
    cases done
  · refine ⟨onPath, ?_⟩
    cases found : table.get? name with
    | none =>
        rw [totalOf_of_get?_eq_none onPath found] at done
        cases done
    | some type =>
        refine ⟨type, rfl, ?_⟩
        rw [totalOf_of_get?_eq_some onPath found] at done
        split at done
        · rename_i known
          cases done
          exact .inl known
        · cases done
        · rename_i unknown allowed
          refine .inr ⟨unknown, allowed, ?_⟩
          split at done
          · cases done
          · rename_i memberTypes members
            refine ⟨memberTypes, members, ?_⟩
            match summing : totalAll measure table (path ++ [name]) measure.zero memberTypes with
            | .ok total => simpa [summing, Outcome.mapError] using done
            | .error .overflow => simp [summing, Outcome.mapError] at done
            | .error (.error inner) => simp [summing, Outcome.mapError, Outcome.fail] at done

theorem exists_of_totalOf_eq_fail {cause : TypeError}
    (failed : totalOf measure table path name = .fail cause) :
    (name ∈ path ∧ cause = .definitionCycle (closeCycle path name)) ∨
      (table.get? name = none ∧ cause = .unknownType name) ∨
      ∃ type, name ∉ path ∧ table.get? name = some type ∧ measure.recorded type = none ∧
        (measure.refusal type = some cause ∨ table.dependencies type = .error cause ∨
          ∃ memberTypes inner, table.dependencies type = .ok memberTypes ∧
            totalAll measure table (path ++ [name]) measure.zero memberTypes = .fail inner ∧
            cause = measure.relabel name inner) := by
  by_cases onPath : name ∈ path
  · rw [totalOf_of_mem onPath] at failed
    cases failed
    exact .inl ⟨onPath, rfl⟩
  · cases found : table.get? name with
    | none =>
        rw [totalOf_of_get?_eq_none onPath found] at failed
        cases failed
        exact .inr (.inl ⟨rfl, rfl⟩)
    | some type =>
        refine .inr (.inr ⟨type, onPath, rfl, ?_⟩)
        rw [totalOf_of_get?_eq_some onPath found] at failed
        split at failed
        · cases failed
        · rename_i unknown refused
          cases failed
          exact ⟨unknown, .inl refused⟩
        · rename_i unknown allowed
          refine ⟨unknown, .inr ?_⟩
          split at failed
          · rename_i inner refused
            cases failed
            exact .inl refused
          · rename_i memberTypes members
            match summing : totalAll measure table (path ++ [name]) measure.zero memberTypes with
            | .ok total => simp [summing, Outcome.mapError, Outcome.fail] at failed
            | .error .overflow => simp [summing, Outcome.mapError, Outcome.fail] at failed
            | .error (.error inner) =>
                rw [summing] at failed
                cases failed
                exact .inr ⟨memberTypes, inner, members, summing, rfl⟩

theorem exists_of_totalAll_eq_fail {total : σ} {rest : List Name} {cause : TypeError}
    (failed : totalAll measure table path total (name :: rest) = .fail cause) :
    totalOf measure table path name = .fail cause ∨
      ∃ next, totalAll measure table path next rest = .fail cause := by
  rw [totalAll] at failed
  split at failed
  · rename_i fault first
    cases failed
    exact .inl first
  · split at failed
    · cases failed
    · exact .inr ⟨_, failed⟩

end Steps

mutual

/-- A finite derivation that adds up the measure of a name. -/
inductive Sized (measure : Measure σ) (table : TypeTable) : Name → σ → Prop where
  | own {name : Name} {type : DataType} {value : σ} (found : table.get? name = some type)
      (known : measure.recorded type = some value) : Sized measure table name value
  | sum {name : Name} {type : DataType} {memberTypes : List Name} {value : σ}
      (found : table.get? name = some type) (unknown : measure.recorded type = none)
      (allowed : measure.refusal type = none)
      (members : table.dependencies type = .ok memberTypes)
      (summed : SizedAll measure table measure.zero memberTypes value) :
      Sized measure table name value

/-- Derivations for names in order, on top of a running total. -/
inductive SizedAll (measure : Measure σ) (table : TypeTable) : σ → List Name → σ → Prop where
  | nil (total : σ) : SizedAll measure table total [] total
  | cons {name : Name} {rest : List Name} {total part next result : σ}
      (first : Sized measure table name part) (added : measure.add? total part = some next)
      (others : SizedAll measure table next rest result) :
      SizedAll measure table total (name :: rest) result

end

/-- A type mentions another one as the type of a member. -/
def Refers (table : TypeTable) (name other : Name) : Prop :=
  ∃ type, table.get? name = some type ∧ other ∈ type.memberTypes

/-- A type contains another one at some depth, or is that type. -/
abbrev Reaches (table : TypeTable) : Name → Name → Prop :=
  Relation.ReflTransGen table.Refers

/-- Only types without members carry a record. -/
def RecordsLeaves (measure : Measure σ) (table : TypeTable) : Prop :=
  ∀ name type value, table.get? name = some type → measure.recorded type = some value →
    type.memberTypes = []

theorem memberTypes_of_dependencies_eq_ok {table : TypeTable} {type : DataType}
    {memberTypes : List Name} (members : table.dependencies type = .ok memberTypes) :
    memberTypes = type.memberTypes := by
  unfold dependencies at members
  split at members
  · cases members
    rfl
  · cases members

section Derivations

variable {measure : Measure σ} {table : TypeTable}

/-- A type without a record mentions another one as the type of a member. -/
def Descends (measure : Measure σ) (table : TypeTable) (name other : Name) : Prop :=
  ∃ type, table.get? name = some type ∧ measure.recorded type = none ∧ other ∈ type.memberTypes

mutual

/-- A derivation comes to an end below every name it goes through. -/
theorem Sized.acc_descends {name : Name} {value : σ} :
    Sized measure table name value → Acc (fun other name => table.Descends measure name other) name
  | .own found known => by
      refine ⟨_, ?_⟩
      rintro other ⟨type, found', unknown, -⟩
      rw [found] at found'
      cases found'
      rw [known] at unknown
      cases unknown
  | .sum found _ _ members summed => by
      have below := summed.acc_descends
      refine ⟨_, ?_⟩
      rintro other ⟨type, found', -, member⟩
      rw [found] at found'
      cases found'
      rw [← memberTypes_of_dependencies_eq_ok members] at member
      exact below other member

theorem SizedAll.acc_descends {total result : σ} {names : List Name} :
    SizedAll measure table total names result →
      ∀ other ∈ names, Acc (fun other name => table.Descends measure name other) other
  | .nil _, other, member => by
      cases member
  | .cons first _ others, other, member => by
      have here := first.acc_descends
      have below := others.acc_descends
      rcases List.mem_cons.1 member with same | later
      · rw [same]
        exact here
      · exact below other later

end

/-- What is sized contains itself at no depth. -/
theorem Sized.acc (leaves : table.RecordsLeaves measure) {name : Name} {value : σ}
    (sized : Sized measure table name value) :
    Acc (fun other name => table.Refers name other) name := by
  refine Subrelation.accessible ?_ sized.acc_descends
  rintro other name ⟨type, found, member⟩
  refine ⟨type, found, ?_, member⟩
  cases known : measure.recorded type with
  | none => rfl
  | some value =>
      rw [leaves _ _ _ found known] at member
      cases member

section Paths

variable {refers : Name → Name → Prop} {name other : Name}

theorem not_transGen_self_of_acc (accessible : Acc (fun other name => refers name other) name) :
    ¬ Relation.TransGen refers name name := by
  induction accessible with
  | intro name _ ih =>
      intro cycle
      obtain ⟨next, first, rest⟩ := Relation.TransGen.head'_iff.1 cycle
      exact ih next first (Relation.TransGen.tail' rest first)

/-- A step of the walk away from a path leads away from the longer path too. -/
theorem not_reaches_of_step {path : List Name} (cycleFree : ¬ Relation.TransGen refers name name)
    (apart : ∀ place ∈ path, ¬ Relation.ReflTransGen refers name place)
    (step : refers name other) :
    ∀ place ∈ path ++ [name], ¬ Relation.ReflTransGen refers other place := by
  intro place onPath back
  rcases List.mem_append.1 onPath with earlier | here
  · exact apart place earlier (.head step back)
  · rw [List.mem_singleton.1 here] at back
    exact cycleFree (.head' step back)

end Paths

theorem refers_of_mem {name other : Name} {type : DataType} {memberTypes : List Name}
    (found : table.get? name = some type) (members : table.dependencies type = .ok memberTypes)
    (member : other ∈ memberTypes) : table.Refers name other := by
  rw [memberTypes_of_dependencies_eq_ok members] at member
  exact ⟨type, found, member⟩

mutual

/-- A derivation is found by the walk on every path that the name does not lead back to. -/
theorem Sized.totalOf_eq (leaves : table.RecordsLeaves measure) {path : List Name} {name : Name}
    {value : σ} : Sized measure table name value → (∀ place ∈ path, ¬ table.Reaches name place) →
      totalOf measure table path name = .ok value
  | .own found known, apart => by
      have fresh : name ∉ path := fun onPath => apart name onPath .refl
      rw [totalOf_of_get?_eq_some fresh found, known]
  | .sum found unknown allowed members summed, apart => by
      have fresh : name ∉ path := fun onPath => apart name onPath .refl
      have cycleFree := not_transGen_self_of_acc
        ((Sized.sum found unknown allowed members summed).acc leaves)
      have summing := summed.totalAll_eq leaves fun other member =>
        not_reaches_of_step cycleFree apart (refers_of_mem found members member)
      rw [totalOf_of_get?_eq_some fresh found, unknown, allowed, members]
      simp only [summing, Outcome.mapError]

theorem SizedAll.totalAll_eq (leaves : table.RecordsLeaves measure) {path : List Name}
    {total result : σ} {names : List Name} : SizedAll measure table total names result →
      (∀ other ∈ names, ∀ place ∈ path, ¬ table.Reaches other place) →
      totalAll measure table path total names = .ok result
  | .nil _, _ => by
      rw [totalAll]
  | .cons first added others, apart => by
      rw [totalAll, first.totalOf_eq leaves (apart _ List.mem_cons_self)]
      simp only [added]
      exact others.totalAll_eq leaves fun other member =>
        apart other (List.mem_cons_of_mem _ member)

end

mutual

/-- What the walk finds has a derivation. -/
theorem sized_of_totalOf {path : List Name} (name : Name) {value : σ}
    (done : totalOf measure table path name = .ok value) : Sized measure table name value := by
  obtain ⟨fresh, type, found, known | ⟨unknown, allowed, memberTypes, members, summed⟩⟩ :=
    exists_of_totalOf_eq_ok done
  · exact .own found known
  · exact .sum found unknown allowed members (sizedAll_of_totalAll memberTypes summed)
termination_by (table.pending path, 0)
decreasing_by
  exact Prod.Lex.left _ _ (table.pending_append_lt (mem_names_of_get?_eq_some found) fresh)

theorem sizedAll_of_totalAll {path : List Name} {total result : σ} (names : List Name)
    (done : totalAll measure table path total names = .ok result) :
    SizedAll measure table total names result := by
  match names with
  | [] =>
      rw [totalAll] at done
      cases done
      exact .nil total
  | name :: rest =>
      rw [totalAll] at done
      split at done
      · cases done
      · rename_i part first
        split at done
        · cases done
        · rename_i next added
          exact .cons (sized_of_totalOf name first) added (sizedAll_of_totalAll rest done)
termination_by (table.pending path, names.length + 1)

end

/-- The walk without a path finds exactly what has a derivation. -/
theorem totalOf_eq_ok_iff (leaves : table.RecordsLeaves measure) {name : Name} {value : σ} :
    totalOf measure table [] name = .ok value ↔ Sized measure table name value :=
  ⟨sized_of_totalOf name, fun sized => sized.totalOf_eq leaves (by simp)⟩

end Derivations

end TypeTable

end HybridQuantum
