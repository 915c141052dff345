import HybridQuantum.Proofs.Types.Resolvable

/-!
# The memory of size resolution

Resolution answers from what it has recorded before, and from what it has summed
up on the same walk.  As long as every remembered value has a derivation over the
types as they were declared, the answer is that of the walk without memory, and
everything the walk adds to the memory has a derivation again.
-/

namespace HybridQuantum

namespace DataType

/-- A type as it was declared, without what resolution recorded on it. -/
def declared (type : DataType) : DataType :=
  if type.isBuiltin then type else { type with size := .unset, qsize := none }

variable (type : DataType)

@[simp]
theorem declared_name : type.declared.name = type.name := by
  unfold declared
  split <;> rfl

@[simp]
theorem declared_kind : type.declared.kind = type.kind := by
  unfold declared
  split <;> rfl

@[simp]
theorem declared_members : type.declared.members = type.members := by
  unfold declared
  split <;> rfl

@[simp]
theorem declared_isBuiltin : type.declared.isBuiltin = type.isBuiltin := by
  unfold declared
  split <;> rfl

@[simp]
theorem declared_memberTypes : type.declared.memberTypes = type.memberTypes := by
  simp [memberTypes]

end DataType

namespace TypeTable

/-- The types of a table as they were declared. -/
def declared (table : TypeTable) : TypeTable :=
  table.update DataType.declared DataType.declared_name

section Declared

variable {table : TypeTable}

theorem get?_update (change : DataType → DataType)
    (keepsName : ∀ type, (change type).name = type.name) (name : Name) :
    (table.update change keepsName).get? name = (table.get? name).map change := by
  have same : ((fun type : DataType => type.name == name) ∘ change) =
      fun type => type.name == name := by
    funext type
    simp [keepsName]
  rw [get?, update, List.find?_map, same]
  rfl

theorem get?_recordQSizes {name : Name} {type : DataType} (sums : Sums QSize)
    (found : table.get? name = some type) :
    (table.recordQSizes sums).get? name =
      some { type with qsize := (sums.get? name).or type.qsize } := by
  rw [recordQSizes, get?_update, found, ← name_of_get?_eq_some found]
  rfl

theorem get?_recordSizes {name : Name} {type : DataType} (sums : Sums UInt32)
    (found : table.get? name = some type) :
    (table.recordSizes sums).get? name =
      some { type with size := ⟨(sums.get? name).or type.size.bits⟩ } := by
  rw [recordSizes, get?_update, found, ← name_of_get?_eq_some found]
  rfl

theorem get?_declared (name : Name) :
    table.declared.get? name = (table.get? name).map DataType.declared :=
  get?_update _ _ name

theorem get?_declared_of_get? {name : Name} {type : DataType}
    (found : table.get? name = some type) :
    table.declared.get? name = some type.declared := by
  rw [get?_declared, found]
  rfl

theorem get?_eq_some_of_mem {type : DataType} (member : type ∈ table.types) :
    table.get? type.name = some type := by
  have distinct := table.distinct
  unfold get?
  generalize table.types = types at member distinct
  induction types with
  | nil => cases member
  | cons first rest ih =>
      rw [List.map_cons, List.nodup_cons] at distinct
      rcases List.mem_cons.1 member with rfl | later
      · simp
      · have other : first.name ≠ type.name := by
          intro same
          exact distinct.1 (same ▸ List.mem_map_of_mem later)
        rw [List.find?_cons_of_neg (by simpa using other)]
        exact ih later distinct.2

/-- A change that leaves the declarations alone leaves the declared table alone. -/
theorem declared_update {change : DataType → DataType}
    (same : ∀ type ∈ table.types, (change type).declared = type.declared)
    (keepsName : ∀ type, (change type).name = type.name) :
    (table.update change keepsName).declared = table.declared := by
  have types : (table.types.map change).map DataType.declared =
      table.types.map DataType.declared := by
    rw [List.map_map]
    exact List.map_congr_left same
  simp only [declared, update, types]

theorem dependencies_declared (type : DataType) :
    table.declared.dependencies type.declared = table.dependencies type := by
  have checks : table.declared.checkPayload type.name = table.checkPayload type.name := by
    funext member
    match member with
    | .single _ => rfl
    | .typed _ _ => rfl
    | .variant _ none => rfl
    | .variant tag (some payload) =>
        simp only [checkPayload, get?_declared]
        cases table.get? payload with
        | none => rfl
        | some type => simp
  simp only [dependencies, DataType.declared_name, DataType.declared_members,
    DataType.declared_memberTypes, checks]

end Declared

variable {σ : Type}

/-- A measure whose records on user types are all made by resolution. -/
structure RecordsSums (measure : Measure σ) : Prop where
  recorded : ∀ type : DataType, measure.recorded type.declared =
    if type.isBuiltin then measure.recorded type else none
  refusal : ∀ type : DataType, measure.refusal type.declared = measure.refusal type

/-- Everything remembered has a derivation, and nothing on the path is summed up yet. -/
structure Remembers (measure : Measure σ) (table : TypeTable) (path : List Name) (sums : Sums σ) :
    Prop where
  sized : ∀ name type value, table.get? name = some type →
    (sums.get? name).or (measure.recorded type) = some value →
    Sized measure table.declared name value
  vacant : ∀ place ∈ path, sums.get? place = none

namespace Remembers

variable {measure : Measure σ} {table : TypeTable} {path : List Name} {sums : Sums σ} {name : Name}

theorem push (remembers : Remembers measure table path sums) (noSum : sums.get? name = none) :
    Remembers measure table (path ++ [name]) sums where
  sized := remembers.sized
  vacant := by
    intro place onPath
    rcases List.mem_append.1 onPath with earlier | here
    · exact remembers.vacant place earlier
    · rw [List.mem_singleton.1 here]
      exact noSum

theorem pop (remembers : Remembers measure table (path ++ [name]) sums) :
    Remembers measure table path sums :=
  ⟨remembers.sized, fun place onPath => remembers.vacant place (List.mem_append_left _ onPath)⟩

theorem insert (remembers : Remembers measure table path sums) (fresh : name ∉ path) {value : σ}
    (sized : Sized measure table.declared name value) :
    Remembers measure table path (sums.insert name value) where
  sized := by
    intro other type found foundOther remembered
    rw [FiniteMap.get?_insert] at remembered
    split at remembered
    · rename_i same
      cases remembered
      rw [same]
      exact sized
    · exact remembers.sized other type found foundOther remembered
  vacant := by
    intro place onPath
    have other : place ≠ name := by
      rintro rfl
      exact fresh onPath
    rw [FiniteMap.get?_insert, if_neg other]
    exact remembers.vacant place onPath

end Remembers

section Walk

variable {measure : Measure σ} {table : TypeTable}

/-- What is remembered lies on no cycle, so it leads back to no path that led to it. -/
theorem not_reaches_of_sized (leaves : table.RecordsLeaves measure) {path : List Name} {name : Name}
    {value : σ} (sized : Sized measure table name value) (fresh : name ∉ path)
    (leads : ∀ place ∈ path, table.Reaches place name) :
    ∀ place ∈ path, ¬ table.Reaches name place := by
  intro place onPath back
  have cycleFree := not_transGen_self_of_acc (sized.acc leaves)
  rcases Relation.reflTransGen_iff_eq_or_transGen.1 back with same | ahead
  · rw [same] at onPath
    exact fresh onPath
  · exact cycleFree (ahead.trans_left (leads place onPath))

mutual

/-- The walk with memory answers as the walk without, and keeps its memory right. -/
theorem measureOf_spec (records : RecordsSums measure)
    (leaves : table.declared.RecordsLeaves measure) {path : List Name} {sums : Sums σ} (name : Name)
    (remembers : Remembers measure table path sums)
    (leads : ∀ place ∈ path, table.declared.Reaches place name) :
    (measureOf measure table path sums name).1 = totalOf measure table.declared path name ∧
      Remembers measure table path (measureOf measure table path sums name).2 := by
  by_cases onPath : name ∈ path
  · rw [measureOf, dif_pos onPath, totalOf_of_mem onPath]
    exact ⟨rfl, remembers⟩
  rw [measureOf, dif_neg onPath]
  split
  · rename_i missing
    have gone : table.declared.get? name = none := by rw [get?_declared, missing]; rfl
    rw [totalOf_of_get?_eq_none onPath gone]
    exact ⟨rfl, remembers⟩
  rename_i type found
  have foundDeclared := get?_declared_of_get? found
  split
  · rename_i known memo
    have sized := remembers.sized name type known found memo
    rw [sized.totalOf_eq leaves (not_reaches_of_sized leaves sized onPath leads)]
    exact ⟨rfl, remembers⟩
  rename_i memo
  obtain ⟨noSum, noRecord⟩ := Option.or_eq_none_iff.1 memo
  have unknown : measure.recorded type.declared = none := by
    rw [records.recorded, noRecord]
    split <;> rfl
  have walked : totalOf measure table.declared path name = _ :=
    totalOf_of_get?_eq_some onPath foundDeclared
  rw [unknown, records.refusal, dependencies_declared] at walked
  cases refused : measure.refusal type with
  | some cause =>
      rw [refused] at walked
      rw [walked]
      exact ⟨rfl, remembers⟩
  | none =>
      rw [refused] at walked
      cases members : table.dependencies type with
      | error cause =>
          rw [members] at walked
          rw [walked]
          exact ⟨rfl, remembers⟩
      | ok memberTypes =>
          rw [members] at walked
          have refers : ∀ other ∈ memberTypes, table.declared.Refers name other :=
            fun other member =>
              refers_of_mem foundDeclared ((dependencies_declared type).trans members) member
          have leadsOn : ∀ other ∈ memberTypes, ∀ place ∈ path ++ [name],
              table.declared.Reaches place other := by
            intro other member place inside
            rcases List.mem_append.1 inside with earlier | here
            · exact (leads place earlier).tail (refers other member)
            · rw [List.mem_singleton.1 here]
              exact .single (refers other member)
          have shorter := table.pending_append_lt (mem_names_of_get?_eq_some found) onPath
          obtain ⟨answers, after⟩ := measureAll_spec records leaves measure.zero memberTypes
            (remembers.push noSum) leadsOn
          simp only [← answers] at walked
          simp only
          match outcome : measureAll measure table (path ++ [name]) sums measure.zero
              memberTypes with
          | (.error .overflow, sums') =>
              rw [outcome] at walked after
              exact ⟨walked.symm, after.pop⟩
          | (.error (.error cause), sums') =>
              rw [outcome] at walked after
              exact ⟨walked.symm, after.pop⟩
          | (.ok total, sums') =>
              rw [outcome] at walked after
              have vacant : sums'.get? name = none := after.vacant name (by simp)
              simp only [vacant, Option.bind_none]
              exact ⟨walked.symm, after.pop.insert onPath (sized_of_totalOf name walked)⟩
termination_by (table.pending path, 0)
decreasing_by
  exact Prod.Lex.left _ _ shorter

theorem measureAll_spec (records : RecordsSums measure)
    (leaves : table.declared.RecordsLeaves measure) {path : List Name} {sums : Sums σ} (total : σ)
    (names : List Name) (remembers : Remembers measure table path sums)
    (leads : ∀ name ∈ names, ∀ place ∈ path, table.declared.Reaches place name) :
    (measureAll measure table path sums total names).1 =
        totalAll measure table.declared path total names ∧
      Remembers measure table path (measureAll measure table path sums total names).2 := by
  match names with
  | [] =>
      rw [measureAll, totalAll]
      exact ⟨rfl, remembers⟩
  | name :: rest =>
      obtain ⟨answers, after⟩ := measureOf_spec records leaves name remembers
        (leads name List.mem_cons_self)
      rw [measureAll, totalAll, ← answers]
      split
      · rename_i fault sums' outcome
        rw [outcome] at after ⊢
        exact ⟨rfl, after⟩
      · rename_i part sums' outcome
        rw [outcome] at after ⊢
        simp only at after ⊢
        cases measure.add? total part with
        | none => exact ⟨rfl, after⟩
        | some next =>
            exact measureAll_spec records leaves next rest after
              fun other member => leads other (List.mem_cons_of_mem _ member)
termination_by (table.pending path, names.length + 1)

end

/-- A measure that a walk answers is on record or among the sums of the walk. -/
theorem or_recorded_of_measureOf {path : List Name} {sums after : Sums σ}
    {name : Name} {value : σ}
    (walked : measureOf measure table path sums name = (.ok value, after)) :
    ∃ type, table.get? name = some type ∧
      (after.get? name).or (measure.recorded type) = some value := by
  rw [measureOf] at walked
  split at walked
  · cases walked
  split at walked
  · cases walked
  rename_i type found
  refine ⟨type, found, ?_⟩
  split at walked
  · rename_i known remembered
    cases walked
    exact remembered
  split at walked
  · cases walked
  split at walked
  · cases walked
  split at walked
  · cases walked
  · cases walked
  · split at walked
    · cases walked
    · cases walked
      simp [FiniteMap.get?_insert]

end Walk

end TypeTable

end HybridQuantum
