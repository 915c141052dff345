import HybridQuantum.Proofs.Types.Memo

/-!
# Sound tables

A table is sound when every size recorded on it has a derivation over the types
as they were declared.  Resolving a name of a sound table answers as if nothing
had been recorded, and leaves a sound table with the same declarations, whether it
succeeds or fails.
-/

namespace HybridQuantum

namespace TypeTable

theorem recordsSums_bits : RecordsSums Measure.bits where
  recorded type := by
    unfold DataType.declared
    split <;> rfl
  refusal type := by simp [Measure.bits]

theorem recordsSums_indices : RecordsSums Measure.indices where
  recorded type := by
    unfold DataType.declared
    split <;> rfl
  refusal type := rfl

theorem reportsObstacles_bits : ReportsObstacles Measure.bits where
  refusal type cause refused := by
    simp only [Measure.bits] at refused
    split at refused
    · cases refused
      rfl
    · cases refused
  relabel name cause obstacle := by
    simp only [Measure.bits]
    split
    · rfl
    · exact obstacle

theorem reportsObstacles_indices : ReportsObstacles Measure.indices where
  refusal type cause refused := by cases refused
  relabel name cause obstacle := obstacle

/-- Every type of a table that is found in a longer one. -/
def Extends (table longer : TypeTable) : Prop :=
  ∀ name type, table.get? name = some type → longer.get? name = some type

/-- All records of a table have derivations, and builtins are complete from the start. -/
structure Sound (table : TypeTable) : Prop where
  builtin : ∀ type ∈ table.types, type.isBuiltin = true →
    type.members = [] ∧ type.qsize.isSome = true
  qsizes : ∀ name type value, table.get? name = some type → type.qsize = some value →
    Sized .indices table.declared name value
  sizes : ∀ name type value, table.get? name = some type → type.size.bits = some value →
    Sized .bits table.declared name value

section Growth

variable {σ : Type} {measure : Measure σ} {table longer : TypeTable}

theorem Extends.declared (grows : table.Extends longer) :
    table.declared.Extends longer.declared := by
  intro name type found
  rw [get?_declared] at found
  obtain ⟨before, foundBefore, rfl⟩ := Option.map_eq_some_iff.1 found
  exact get?_declared_of_get? (grows name before foundBefore)

theorem Extends.dependencies_eq_ok (grows : table.Extends longer) {type : DataType}
    {memberTypes : List Name} (members : table.dependencies type = .ok memberTypes) :
    longer.dependencies type = .ok memberTypes := by
  obtain ⟨same, allows⟩ := dependencies_eq_ok_iff.1 members
  refine dependencies_eq_ok_iff.2 ⟨same, fun tag payload member => ?_⟩
  obtain ⟨payloadType, found, allowed⟩ := allows tag payload member
  exact ⟨payloadType, grows payload payloadType found, allowed⟩

mutual

/-- A derivation stays one when types are added. -/
theorem Sized.mono (grows : table.Extends longer) {name : Name} {value : σ} :
    Sized measure table name value → Sized measure longer name value
  | .own found known => .own (grows _ _ found) known
  | .sum found unknown allowed members summed =>
      .sum (grows _ _ found) unknown allowed (grows.dependencies_eq_ok members)
        (summed.mono grows)

theorem SizedAll.mono (grows : table.Extends longer) {total result : σ} {names : List Name} :
    SizedAll measure table total names result → SizedAll measure longer total names result
  | .nil total => .nil total
  | .cons first added others => .cons (first.mono grows) added (others.mono grows)

end

end Growth

namespace Sound

variable {σ : Type} {measure : Measure σ} {table : TypeTable}

theorem recordsLeaves (sound : table.Sound) (records : RecordsSums measure) :
    table.declared.RecordsLeaves measure := by
  intro name type value found known
  rw [get?_declared] at found
  obtain ⟨before, foundBefore, rfl⟩ := Option.map_eq_some_iff.1 found
  rw [records.recorded] at known
  split at known
  · rename_i builtin
    have none := (sound.builtin before (mem_of_get?_eq_some foundBefore) builtin).1
    simp [DataType.memberTypes, none]
  · cases known

theorem remembers_indices (sound : table.Sound) : Remembers .indices table [] .empty :=
  ⟨sound.qsizes, by simp⟩

theorem remembers_bits (sound : table.Sound) : Remembers .bits table [] .empty :=
  ⟨sound.sizes, by simp⟩

/-- Resolution of a quantum size answers as the walk without memory. -/
theorem resolveQSize_eq (sound : table.Sound) (name : Name) :
    (table.resolveQSize name).1 = totalOf .indices table.declared [] name :=
  (measureOf_spec recordsSums_indices (sound.recordsLeaves recordsSums_indices) name
    sound.remembers_indices (by simp)).1

/-- Resolution of a bit width answers as the walk without memory. -/
theorem resolveSize_eq (sound : table.Sound) (name : Name) :
    (table.resolveSize name).1 = totalOf .bits table.declared [] name :=
  (measureOf_spec recordsSums_bits (sound.recordsLeaves recordsSums_bits) name
    sound.remembers_bits (by simp)).1

/-- Records are updated soundly when declarations stay and new records have derivations. -/
theorem update (sound : table.Sound) {change : DataType → DataType}
    (same : ∀ type ∈ table.types, (change type).declared = type.declared)
    (keepsName : ∀ type, (change type).name = type.name)
    (qsizes : ∀ name type value, table.get? name = some type → (change type).qsize = some value →
      Sized .indices table.declared name value)
    (sizes : ∀ name type value, table.get? name = some type →
      (change type).size.bits = some value → Sized .bits table.declared name value) :
    (table.update change keepsName).Sound where
  builtin := by
    intro type member builtin
    obtain ⟨before, memberBefore, rfl⟩ := List.mem_map.1 member
    have kept := same before memberBefore
    have builtinBefore : before.isBuiltin = true := by
      rw [← before.declared_isBuiltin, ← kept, DataType.declared_isBuiltin]
      exact builtin
    rw [DataType.declared, DataType.declared, if_pos builtin, if_pos builtinBefore] at kept
    rw [kept]
    exact sound.builtin before memberBefore builtinBefore
  qsizes := by
    intro name type value found known
    rw [get?_update] at found
    obtain ⟨before, foundBefore, rfl⟩ := Option.map_eq_some_iff.1 found
    rw [declared_update same keepsName]
    exact qsizes name before value foundBefore known
  sizes := by
    intro name type value found known
    rw [get?_update] at found
    obtain ⟨before, foundBefore, rfl⟩ := Option.map_eq_some_iff.1 found
    rw [declared_update same keepsName]
    exact sizes name before value foundBefore known

/-- The total of a builtin is what it came with. -/
theorem recorded_of_sized_builtin (records : RecordsSums measure) {name : Name} {type : DataType}
    {value : σ} (found : table.get? name = some type) (builtin : type.isBuiltin = true)
    (settled : measure.recorded type = none → measure.refusal type ≠ none)
    (sized : Sized measure table.declared name value) : measure.recorded type = some value := by
  have own : measure.recorded type.declared = measure.recorded type := by
    rw [records.recorded, if_pos builtin]
  have foundDeclared := get?_declared_of_get? found
  cases sized with
  | own found' known =>
      rw [foundDeclared] at found'
      cases found'
      rw [← own, known]
  | sum found' unknown allowed =>
      rw [foundDeclared] at found'
      cases found'
      rw [own] at unknown
      rw [records.refusal] at allowed
      exact absurd allowed (settled unknown)

/-- The total of a user type is the checked sum of the totals of its members. -/
theorem exists_parts_of_sized (records : RecordsSums measure) {name : Name} {type : DataType}
    {value : σ} (found : table.get? name = some type) (user : type.isBuiltin = false)
    (sized : Sized measure table.declared name value) :
    ∃ parts, List.Forall₂ (Sized measure table.declared) type.memberTypes parts ∧
      parts.foldlM measure.add? measure.zero = some value := by
  have foundDeclared := get?_declared_of_get? found
  cases sized with
  | own found' known =>
      rw [foundDeclared] at found'
      cases found'
      rw [records.recorded, user] at known
      cases known
  | sum found' _ _ members summed =>
      rw [foundDeclared] at found'
      cases found'
      have parts := summed.exists_parts
      rwa [memberTypes_of_dependencies_eq_ok members, DataType.declared_memberTypes] at parts

theorem settled_indices (sound : table.Sound) {type : DataType} (member : type ∈ table.types)
    (builtin : type.isBuiltin = true) :
    Measure.indices.recorded type = none → Measure.indices.refusal type ≠ none := by
  intro unknown
  have known := (sound.builtin type member builtin).2
  change type.qsize = none at unknown
  rw [unknown] at known
  cases known

theorem settled_bits {type : DataType} (builtin : type.isBuiltin = true) :
    Measure.bits.recorded type = none → Measure.bits.refusal type ≠ none := by
  intro _
  simp [Measure.bits, builtin]

/-- What a walk remembers of a builtin is what it came with. -/
theorem or_recorded_of_builtin (records : RecordsSums measure) {sums : Sums σ}
    (remembers : Remembers measure table [] sums) {name : Name} {type : DataType}
    (found : table.get? name = some type) (builtin : type.isBuiltin = true)
    (settled : measure.recorded type = none → measure.refusal type ≠ none) :
    (sums.get? name).or (measure.recorded type) = measure.recorded type := by
  cases memo : (sums.get? name).or (measure.recorded type) with
  | none => exact (Option.or_eq_none_iff.1 memo).2.symm
  | some value =>
      exact (recorded_of_sized_builtin records found builtin settled
        (remembers.sized name type value found memo)).symm

theorem declared_recordQSizes (sound : table.Sound) {sums : Sums QSize}
    (remembers : Remembers .indices table [] sums) :
    ∀ type ∈ table.types,
      ({ type with qsize := (sums.get? type.name).or type.qsize } : DataType).declared =
        type.declared := by
  intro type member
  by_cases builtin : type.isBuiltin = true
  · have kept : (sums.get? type.name).or type.qsize = type.qsize :=
      or_recorded_of_builtin recordsSums_indices remembers (get?_eq_some_of_mem member) builtin
        (sound.settled_indices member builtin)
    rw [kept]
  · simp [DataType.declared, builtin]

theorem declared_recordSizes {sums : Sums UInt32} (remembers : Remembers .bits table [] sums) :
    ∀ type ∈ table.types,
      ({ type with size := ⟨(sums.get? type.name).or type.size.bits⟩ } : DataType).declared =
        type.declared := by
  intro type member
  by_cases builtin : type.isBuiltin = true
  · have kept : (sums.get? type.name).or type.size.bits = type.size.bits :=
      or_recorded_of_builtin recordsSums_bits remembers (get?_eq_some_of_mem member) builtin
        (settled_bits builtin)
    rw [kept]
  · simp [DataType.declared, builtin]

theorem resolveQSize (sound : table.Sound) (name : Name) :
    (table.resolveQSize name).2.Sound ∧ (table.resolveQSize name).2.declared = table.declared := by
  have remembers :=
    (measureOf_spec recordsSums_indices (sound.recordsLeaves recordsSums_indices) name
      sound.remembers_indices (by simp)).2
  have same := sound.declared_recordQSizes remembers
  refine ⟨sound.update same (fun _ => rfl) ?_ sound.sizes, declared_update same fun _ => rfl⟩
  intro other type value found known
  simp only [name_of_get?_eq_some found] at known
  exact remembers.sized other type value found known

theorem resolveSize (sound : table.Sound) (name : Name) :
    (table.resolveSize name).2.Sound ∧ (table.resolveSize name).2.declared = table.declared := by
  have remembers := (measureOf_spec recordsSums_bits (sound.recordsLeaves recordsSums_bits) name
    sound.remembers_bits (by simp)).2
  have same := declared_recordSizes remembers
  refine ⟨sound.update same (fun _ => rfl) sound.qsizes ?_, declared_update same fun _ => rfl⟩
  intro other type value found known
  simp only [name_of_get?_eq_some found] at known
  exact remembers.sized other type value found known

theorem resolveNames (sound : table.Sound) (names : List Name) :
    (table.resolveNames names).2.Sound ∧
      (table.resolveNames names).2.declared = table.declared := by
  induction names generalizing table with
  | nil => exact ⟨sound, rfl⟩
  | cons name rest ih =>
      obtain ⟨soundFirst, sameFirst⟩ := sound.resolveQSize name
      rw [TypeTable.resolveNames]
      split
      · rename_i fault next outcome
        rw [outcome] at soundFirst sameFirst
        exact ⟨soundFirst, sameFirst⟩
      · rename_i value next outcome
        rw [outcome] at soundFirst sameFirst
        obtain ⟨soundNext, sameNext⟩ := soundFirst.resolveSize name
        split
        · rename_i width last outcome
          rw [outcome] at soundNext sameNext
          obtain ⟨soundRest, sameRest⟩ := ih soundNext
          exact ⟨soundRest, sameRest.trans (sameNext.trans sameFirst)⟩
        · rename_i unsized last outcome
          rw [outcome] at soundNext sameNext
          obtain ⟨soundRest, sameRest⟩ := ih soundNext
          exact ⟨soundRest, sameRest.trans (sameNext.trans sameFirst)⟩
        · rename_i fault last _ outcome
          rw [outcome] at soundNext sameNext
          exact ⟨soundNext, sameNext.trans sameFirst⟩

theorem resolveAll (sound : table.Sound) :
    table.resolveAll.2.Sound ∧ table.resolveAll.2.declared = table.declared := by
  unfold TypeTable.resolveAll
  split
  · exact ⟨sound, rfl⟩
  · exact sound.resolveNames table.names

end Sound

end TypeTable

end HybridQuantum
