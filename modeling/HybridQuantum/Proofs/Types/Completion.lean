import HybridQuantum.Proofs.Types.Derivations

/-!
# Resolving a whole table

Resolving every declared type goes through on the well-formed tables, as long as
every sum is a word: the one error that is passed over, a missing bit width, hides
no other.  What was resolved stays on record, so a table that went through once
has nothing left to resolve.
-/

namespace HybridQuantum

namespace TypeTable

variable {table next : TypeTable} {name : Name}

/-- Member types are declared, no type contains itself, and payloads are singles or structs. -/
structure IsWellFormed (table : TypeTable) : Prop where
  declared : ∀ type ∈ table.types, ∀ other ∈ type.memberTypes, table.contains other = true
  acyclic : ∀ name ∈ table.names, ¬ Relation.TransGen table.Refers name name
  payloads : ∀ type ∈ table.types, ∀ tag payload, .variant tag (some payload) ∈ type.members →
    table.AllowsPayload payload

/-- No sum over the members of a declared type runs out of its word width. -/
def Fits (table : TypeTable) : Prop :=
  ∀ name ∈ table.names, (table.resolveQSize name).1 ≠ .error .overflow ∧
    (table.resolveSize name).1 ≠ .error .overflow

/-- The quantum size of a name is found, and its bit width is found or missing. -/
def Settles (table : TypeTable) (name : Name) : Prop :=
  (∃ size, (table.resolveQSize name).1 = .ok size) ∧
    ((∃ bits, (table.resolveSize name).1 = .ok bits) ∨
      ∃ blamed, (table.resolveSize name).1 = .fail (.unsizedType blamed))

/-- The first error met at a name; a missing bit width is not one. -/
def Stops (table : TypeTable) (name : Name) (fault : Fault TypeError) : Prop :=
  (table.resolveQSize name).1 = .error fault ∨
    (table.resolveSize name).1 = .error fault ∧ ∀ blamed, fault ≠ .error (.unsizedType blamed)

theorem names_declared (table : TypeTable) : table.declared.names = table.names := by
  rw [names, declared, update, List.map_map]
  exact List.map_congr_left fun type _ => type.declared_name

theorem contains_iff : table.contains name = true ↔ name ∈ table.names := by
  rw [contains, Option.isSome_iff_ne_none, ne_eq, get?_eq_none_iff, not_not]

/-- A table is well formed when every declared name is resolvable. -/
theorem isWellFormed_iff : table.IsWellFormed ↔ ∀ name ∈ table.names, table.Resolvable name := by
  constructor
  · intro formed name declared
    have below : ∀ other, table.Reaches name other → other ∈ table.names := by
      intro other reached
      induction reached with
      | refl => exact declared
      | tail _ refers _ =>
          obtain ⟨type, found, member⟩ := refers
          exact contains_iff.1 (formed.declared type (mem_of_get?_eq_some found) _ member)
    refine ⟨fun other reached => contains_iff.2 (below other reached),
      fun other reached => formed.acyclic other (below other reached), ?_⟩
    intro other type tag payload payloadType _ found member foundPayload
    obtain ⟨allowedType, foundAllowed, allowed⟩ :=
      formed.payloads type (mem_of_get?_eq_some found) tag payload member
    rw [foundPayload] at foundAllowed
    cases foundAllowed
    exact allowed
  · intro resolvable
    have own (type : DataType) (listed : type ∈ table.types) : table.Resolvable type.name :=
      resolvable _ (List.mem_map_of_mem listed)
    refine ⟨fun type listed other member => ?_, fun name declared => ?_,
      fun type listed tag payload member => ?_⟩
    · exact (own type listed).declared other
        (.single ⟨type, get?_eq_some_of_mem listed, member⟩)
    · exact (resolvable name declared).acyclic name .refl
    · exact (dependencies_eq_ok_iff.1
        ((own type listed).dependencies_eq (get?_eq_some_of_mem listed))).2 tag payload member

/-- What is on record has no part in whether a table is well formed. -/
theorem isWellFormed_declared_iff : table.declared.IsWellFormed ↔ table.IsWellFormed := by
  simp only [isWellFormed_iff, names_declared, resolvable_declared_iff]

section Names

theorem Settles.not_stops (settles : table.Settles name) (fault : Fault TypeError) :
    ¬ table.Stops name fault := by
  obtain ⟨⟨size, found⟩, width⟩ := settles
  rintro (failed | ⟨failed, other⟩)
  · rw [found] at failed
    cases failed
  · rcases width with ⟨bits, done⟩ | ⟨blamed, missing⟩
    · rw [done] at failed
      cases failed
    · rw [missing] at failed
      cases failed
      exact other blamed rfl

namespace Sound

/-- Answers depend on the declarations only, not on what is on record. -/
theorem answers_congr (sound : table.Sound) (soundNext : next.Sound)
    (same : next.declared = table.declared) (name : Name) :
    (next.resolveQSize name).1 = (table.resolveQSize name).1 ∧
      (next.resolveSize name).1 = (table.resolveSize name).1 := by
  rw [sound.resolveQSize_eq, sound.resolveSize_eq, soundNext.resolveQSize_eq,
    soundNext.resolveSize_eq, same]
  exact ⟨rfl, rfl⟩

/-- The table after both sizes of a name were asked for. -/
theorem resolveBoth (sound : table.Sound) (name : Name) :
    ((table.resolveQSize name).2.resolveSize name).2.Sound ∧
      ((table.resolveQSize name).2.resolveSize name).2.declared = table.declared := by
  obtain ⟨soundFirst, sameFirst⟩ := sound.resolveQSize name
  obtain ⟨soundNext, sameNext⟩ := soundFirst.resolveSize name
  exact ⟨soundNext, sameNext.trans sameFirst⟩

/-- One name either stops the resolution of a table or is settled and left behind. -/
theorem resolveNames_cons_cases (sound : table.Sound) (name : Name) (rest : List Name) :
    (table.Settles name ∧ table.resolveNames (name :: rest) =
        ((table.resolveQSize name).2.resolveSize name).2.resolveNames rest) ∨
      ∃ fault, table.Stops name fault ∧
        (table.resolveNames (name :: rest)).1 = .error fault := by
  obtain ⟨soundFirst, sameFirst⟩ := sound.resolveQSize name
  have widths := (sound.answers_congr soundFirst sameFirst name).2
  rw [TypeTable.resolveNames]
  split
  · rename_i fault next outcome
    exact .inr ⟨fault, .inl (congrArg Prod.fst outcome), rfl⟩
  · rename_i size next outcome
    rw [outcome] at widths ⊢
    have found : ∃ size, (table.resolveQSize name).1 = .ok size := ⟨size, by rw [outcome]⟩
    simp only at widths ⊢
    split
    · rename_i bits last outcome
      rw [outcome] at widths
      exact .inl ⟨⟨found, .inl ⟨bits, widths.symm⟩⟩, by rw [outcome]⟩
    · rename_i blamed last outcome
      rw [outcome] at widths
      exact .inl ⟨⟨found, .inr ⟨blamed, widths.symm⟩⟩, by rw [outcome]⟩
    · rename_i fault last other outcome
      rw [outcome] at widths
      refine .inr ⟨fault, .inr ⟨widths.symm, ?_⟩, rfl⟩
      rintro blamed rfl
      exact other blamed rfl

theorem resolveNames_cons_of_settles (sound : table.Sound) (settles : table.Settles name)
    (rest : List Name) : table.resolveNames (name :: rest) =
      ((table.resolveQSize name).2.resolveSize name).2.resolveNames rest := by
  rcases sound.resolveNames_cons_cases name rest with ⟨-, goesOn⟩ | ⟨fault, stops, -⟩
  · exact goesOn
  · exact absurd stops (settles.not_stops fault)

/-- Names are resolved in order until one of them stops it. -/
theorem resolveNames_cases (sound : table.Sound) (names : List Name) :
    ((∀ name ∈ names, table.Settles name) ∧ (table.resolveNames names).1 = .ok ()) ∨
      ∃ name ∈ names, ∃ fault, table.Stops name fault ∧
        (table.resolveNames names).1 = .error fault := by
  induction names generalizing table with
  | nil => exact .inl ⟨by simp, rfl⟩
  | cons name rest ih =>
      rcases sound.resolveNames_cons_cases name rest with ⟨settles, goesOn⟩ | ⟨fault, stops, failed⟩
      · obtain ⟨soundNext, same⟩ := sound.resolveBoth name
        rw [goesOn]
        rcases ih soundNext with ⟨others, done⟩ | ⟨other, listed, fault, stops, failed⟩
        · refine .inl ⟨List.forall_mem_cons.2 ⟨settles, fun other listed => ?_⟩, done⟩
          have answers := sound.answers_congr soundNext same other
          simpa only [Settles, answers] using others other listed
        · refine .inr ⟨other, List.mem_cons_of_mem _ listed, fault, ?_, failed⟩
          have answers := sound.answers_congr soundNext same other
          simpa only [Stops, answers] using stops
      · exact .inr ⟨name, List.mem_cons_self, fault, stops, failed⟩

/-- Short of overflow the resolvable names settle, and only those. -/
theorem settles_iff (sound : table.Sound) :
    table.Settles name ↔ table.Resolvable name ∧
      (table.resolveQSize name).1 ≠ .error .overflow ∧
      (table.resolveSize name).1 ≠ .error .overflow := by
  constructor
  · intro settles
    obtain ⟨size, found⟩ := settles.1
    have fits : (table.resolveQSize name).1 ≠ .error .overflow := by simp [found]
    refine ⟨(sound.exists_resolveQSize_iff fits).1 ⟨size, found⟩, fits, fun overflow => ?_⟩
    exact settles.not_stops _ (.inr ⟨overflow, by simp⟩)
  · rintro ⟨resolvable, fits, fitsWidth⟩
    refine ⟨(sound.exists_resolveQSize_iff fits).2 resolvable, ?_⟩
    by_cases unsized : table.ReachesUnsized name
    · have missing := sound.resolveSize_of_reachesUnsized resolvable unsized
      exact .inr ⟨name, missing.resolve_right fitsWidth⟩
    · exact .inl ((sound.exists_resolveSize_iff fitsWidth).2 ⟨resolvable, unsized⟩)

/-- What stops at a resolvable name is a sum that is no word. -/
theorem eq_overflow_of_stops (sound : table.Sound) (resolvable : table.Resolvable name)
    {fault : Fault TypeError} (stops : table.Stops name fault) : fault = .overflow := by
  cases fault with
  | overflow => rfl
  | error cause =>
      exfalso
      rcases stops with failed | ⟨failed, other⟩
      · have fits : (table.resolveQSize name).1 ≠ .error .overflow := by simp [failed]
        obtain ⟨size, done⟩ := (sound.exists_resolveQSize_iff fits).2 resolvable
        rw [failed] at done
        cases done
      · have fits : (table.resolveSize name).1 ≠ .error .overflow := by simp [failed]
        by_cases unsized : table.ReachesUnsized name
        · have missing := sound.resolveSize_of_reachesUnsized resolvable unsized
          rw [failed] at missing
          cases missing.resolve_right (by simp)
          exact other name rfl
        · obtain ⟨bits, done⟩ := (sound.exists_resolveSize_iff fits).2 ⟨resolvable, unsized⟩
          rw [failed] at done
          cases done

theorem resolveAll_of_acyclic (acyclic : table.detectCycles = .ok ()) :
    table.resolveAll = table.resolveNames table.names := by
  rw [TypeTable.resolveAll, acyclic]

/-- Everything is resolved exactly on well-formed tables whose sums are words. -/
theorem resolveAll_eq_ok_iff (sound : table.Sound) :
    table.resolveAll.1 = .ok () ↔ table.IsWellFormed ∧ table.Fits := by
  have settled : (∀ name ∈ table.names, table.Settles name) ↔ table.IsWellFormed ∧ table.Fits := by
    simp only [sound.settles_iff, isWellFormed_iff, Fits, forall_and]
  rw [← settled]
  cases searched : table.detectCycles with
  | error cause =>
      have failed : table.resolveAll.1 = .fail cause := by rw [TypeTable.resolveAll, searched]
      rw [failed]
      simp only [Outcome.fail, reduceCtorEq, false_iff]
      intro settles
      have clear := detectCycles_eq_ok_iff.2 (settled.1 settles).1.acyclic
      rw [searched] at clear
      cases clear
  | ok done =>
      rw [resolveAll_of_acyclic searched]
      rcases sound.resolveNames_cases table.names with ⟨settles, done⟩ |
        ⟨name, listed, fault, stops, failed⟩
      · exact iff_of_true done settles
      · simp only [failed, reduceCtorEq, false_iff]
        exact fun settles => (settles name listed).not_stops fault stops

/-- On a well-formed table nothing but a sum that is no word can go wrong. -/
theorem resolveAll_of_isWellFormed (sound : table.Sound) (formed : table.IsWellFormed) :
    table.resolveAll.1 = .ok () ∨ table.resolveAll.1 = .error .overflow := by
  rw [resolveAll_of_acyclic (detectCycles_eq_ok_iff.2 formed.acyclic)]
  rcases sound.resolveNames_cases table.names with ⟨-, done⟩ | ⟨name, listed, fault, stops, failed⟩
  · exact .inl done
  · rw [sound.eq_overflow_of_stops (isWellFormed_iff.1 formed name listed) stops] at failed
    exact .inr failed

theorem resolveAll_ne_overflow (sound : table.Sound) (fits : table.Fits) :
    table.resolveAll.1 ≠ .error .overflow := by
  cases searched : table.detectCycles with
  | error cause =>
      rw [TypeTable.resolveAll, searched]
      simp [Outcome.fail]
  | ok done =>
      rw [resolveAll_of_acyclic searched]
      rcases sound.resolveNames_cases table.names with ⟨-, done⟩ |
        ⟨name, listed, fault, stops, failed⟩
      · simp [done]
      · rw [failed]
        rintro ⟨⟩
        rcases stops with overflow | ⟨overflow, -⟩
        · exact (fits name listed).1 overflow
        · exact (fits name listed).2 overflow

end Sound

end Names

section Records

variable {σ : Type} {measure : Measure σ}

/-- The measure of a name is on record. -/
def Records (measure : Measure σ) (table : TypeTable) (name : Name) : Prop :=
  ∃ type value, table.get? name = some type ∧ measure.recorded type = some value

/-- What is on record in one table is on record in the next. -/
structure KeepsRecords (table next : TypeTable) : Prop where
  qsizes : ∀ name, table.Records .indices name → next.Records .indices name
  sizes : ∀ name, table.Records .bits name → next.Records .bits name

theorem KeepsRecords.trans {last : TypeTable} (first : table.KeepsRecords next)
    (second : next.KeepsRecords last) : table.KeepsRecords last :=
  ⟨fun name recorded => second.qsizes name (first.qsizes name recorded),
    fun name recorded => second.sizes name (first.sizes name recorded)⟩

theorem keepsRecords_recordQSizes (sums : Sums QSize) :
    table.KeepsRecords (table.recordQSizes sums) := by
  constructor
  · rintro name ⟨type, value, found, known⟩
    change type.qsize = some value at known
    refine ⟨_, (sums.get? name).getD value, get?_recordQSizes sums found, ?_⟩
    simp [Measure.indices, known]
  · rintro name ⟨type, value, found, known⟩
    exact ⟨_, value, get?_recordQSizes sums found, known⟩

theorem keepsRecords_recordSizes (sums : Sums UInt32) :
    table.KeepsRecords (table.recordSizes sums) := by
  constructor
  · rintro name ⟨type, value, found, known⟩
    exact ⟨_, value, get?_recordSizes sums found, known⟩
  · rintro name ⟨type, value, found, known⟩
    change type.size.bits = some value at known
    refine ⟨_, (sums.get? name).getD value, get?_recordSizes sums found, ?_⟩
    simp [Measure.bits, known]

/-- Asking for both sizes of a name takes no record away. -/
theorem keepsRecords_resolveBoth (name : Name) :
    table.KeepsRecords ((table.resolveQSize name).2.resolveSize name).2 :=
  (keepsRecords_recordQSizes _).trans (keepsRecords_recordSizes _)

theorem records_of_resolveQSize {size : QSize} (done : (table.resolveQSize name).1 = .ok size) :
    (table.resolveQSize name).2.Records .indices name := by
  rcases walked : measureOf .indices table [] .empty name with ⟨answer, sums⟩
  simp only [resolveQSize, walked] at done ⊢
  subst done
  obtain ⟨type, found, known⟩ := or_recorded_of_measureOf walked
  exact ⟨_, size, get?_recordQSizes sums found, known⟩

theorem records_of_resolveSize {bits : UInt32} (done : (table.resolveSize name).1 = .ok bits) :
    (table.resolveSize name).2.Records .bits name := by
  rcases walked : measureOf .bits table [] .empty name with ⟨answer, sums⟩
  simp only [resolveSize, walked] at done ⊢
  subst done
  obtain ⟨type, found, known⟩ := or_recorded_of_measureOf walked
  exact ⟨_, bits, get?_recordSizes sums found, known⟩

theorem Sound.records_of_resolveNames (sound : table.Sound) {names : List Name}
    (settles : ∀ name ∈ names, table.Settles name) :
    table.KeepsRecords (table.resolveNames names).2 ∧
      ∀ name ∈ names, (table.resolveNames names).2.Records .indices name ∧
        ((∃ bits, (table.resolveSize name).1 = .ok bits) →
          (table.resolveNames names).2.Records .bits name) := by
  induction names generalizing table with
  | nil => exact ⟨⟨fun _ recorded => recorded, fun _ recorded => recorded⟩, by simp⟩
  | cons name rest ih =>
      obtain ⟨settled, later⟩ := List.forall_mem_cons.1 settles
      obtain ⟨soundFirst, sameFirst⟩ := sound.resolveQSize name
      obtain ⟨soundNext, same⟩ := sound.resolveBoth name
      have answers := sound.answers_congr soundNext same
      obtain ⟨keeps, others⟩ := ih soundNext fun other listed => by
        simpa only [Settles, answers] using later other listed
      rw [sound.resolveNames_cons_of_settles settled]
      refine ⟨(keepsRecords_resolveBoth name).trans keeps, List.forall_mem_cons.2 ⟨?_, ?_⟩⟩
      · obtain ⟨size, found⟩ := settled.1
        refine ⟨keeps.qsizes name ?_, ?_⟩
        · exact (keepsRecords_recordSizes _).qsizes name (records_of_resolveQSize found)
        · rintro ⟨bits, width⟩
          rw [← (sound.answers_congr soundFirst sameFirst name).2] at width
          exact keeps.sizes name (records_of_resolveSize width)
      · intro other listed
        simpa only [answers] using others other listed

end Records

section Complete

/-- Every quantum size is on record, and every bit width that can be found. -/
structure IsComplete (table : TypeTable) : Prop where
  qsizes : ∀ type ∈ table.types, type.qsize.isSome = true
  sizes : ∀ type ∈ table.types, ∀ bits, (table.resolveSize type.name).1 = .ok bits →
    type.size.isSet = true

theorem update_eq_self {change : DataType → DataType}
    (keepsName : ∀ type, (change type).name = type.name)
    (same : ∀ type ∈ table.types, change type = type) : table.update change keepsName = table := by
  have types : table.types.map change = table.types := by
    rw [List.map_congr_left same, List.map_id']
  cases table
  simp only [update, types]

theorem recordQSizes_eq_self {sums : Sums QSize}
    (same : ∀ type ∈ table.types, (sums.get? type.name).or type.qsize = type.qsize) :
    table.recordQSizes sums = table := by
  unfold recordQSizes
  exact update_eq_self _ fun type listed => by rw [same type listed]

theorem recordSizes_eq_self {sums : Sums UInt32}
    (same : ∀ type ∈ table.types, (sums.get? type.name).or type.size.bits = type.size.bits) :
    table.recordSizes sums = table := by
  unfold recordSizes
  exact update_eq_self _ fun type listed => by rw [same type listed]

theorem names_eq_of_declared_eq (same : next.declared = table.declared) :
    next.names = table.names := by
  rw [← names_declared next, same, names_declared table]

theorem refers_eq_of_declared_eq (same : next.declared = table.declared) :
    next.Refers = table.Refers := by
  rw [← refers_declared, same, refers_declared]

/-- Where every total is on record, a walk has nothing to add. -/
theorem or_recorded_of_complete {σ : Type} {measure : Measure σ} {sums : Sums σ} {type : DataType}
    (before : Remembers measure table [] .empty) (after : Remembers measure table [] sums)
    (found : table.get? name = some type)
    (complete : ∀ value, Sized measure table.declared name value →
      ∃ known, measure.recorded type = some known) :
    (sums.get? name).or (measure.recorded type) = measure.recorded type := by
  cases memo : (sums.get? name).or (measure.recorded type) with
  | none => exact (Option.or_eq_none_iff.1 memo).2.symm
  | some value =>
      have sized := after.sized name type value found memo
      obtain ⟨known, recorded⟩ := complete value sized
      have own := before.sized name type known found (by rw [recorded]; rfl)
      rw [recorded, sized.eq_of_sized own]

namespace Sound

theorem settles_of_resolveAll (sound : table.Sound) (done : table.resolveAll.1 = .ok ()) :
    ∀ name ∈ table.names, table.Settles name := by
  obtain ⟨formed, fits⟩ := sound.resolveAll_eq_ok_iff.1 done
  exact fun name listed =>
    sound.settles_iff.2 ⟨isWellFormed_iff.1 formed name listed, fits name listed⟩

theorem isComplete_of_resolveAll (sound : table.Sound) (done : table.resolveAll.1 = .ok ()) :
    table.resolveAll.2.IsComplete := by
  obtain ⟨soundNext, same⟩ := sound.resolveAll
  obtain ⟨formed, -⟩ := sound.resolveAll_eq_ok_iff.1 done
  have records := (sound.records_of_resolveNames (sound.settles_of_resolveAll done)).2
  rw [← resolveAll_of_acyclic (detectCycles_eq_ok_iff.2 formed.acyclic)] at records
  have declared (type : DataType) (listed : type ∈ table.resolveAll.2.types) :
      type.name ∈ table.names := by
    rw [← names_eq_of_declared_eq same]
    exact List.mem_map_of_mem listed
  constructor
  · intro type listed
    obtain ⟨other, size, found, known⟩ := (records type.name (declared type listed)).1
    rw [get?_eq_some_of_mem listed] at found
    cases found
    exact Option.isSome_of_eq_some known
  · intro type listed bits width
    rw [(sound.answers_congr soundNext same type.name).2] at width
    obtain ⟨other, known, found, recorded⟩ :=
      (records type.name (declared type listed)).2 ⟨bits, width⟩
    rw [get?_eq_some_of_mem listed] at found
    cases found
    exact Option.isSome_of_eq_some recorded

theorem resolveQSize_of_isComplete (sound : table.Sound) (complete : table.IsComplete)
    (name : Name) : (table.resolveQSize name).2 = table := by
  have leaves := sound.recordsLeaves recordsSums_indices
  have after := (measureOf_spec recordsSums_indices leaves name sound.remembers_indices (by simp)).2
  exact recordQSizes_eq_self fun type listed =>
    or_recorded_of_complete sound.remembers_indices after (get?_eq_some_of_mem listed)
      fun _ _ => Option.isSome_iff_exists.1 (complete.qsizes type listed)

theorem resolveSize_of_isComplete (sound : table.Sound) (complete : table.IsComplete)
    (name : Name) : (table.resolveSize name).2 = table := by
  have leaves := sound.recordsLeaves recordsSums_bits
  have after := (measureOf_spec recordsSums_bits leaves name sound.remembers_bits (by simp)).2
  exact recordSizes_eq_self fun type listed =>
    or_recorded_of_complete sound.remembers_bits after (get?_eq_some_of_mem listed)
      fun bits sized => Option.isSome_iff_exists.1
        (complete.sizes type listed bits (sound.resolveSize_eq_ok_iff.2 sized))

theorem resolveNames_of_isComplete (sound : table.Sound) (complete : table.IsComplete)
    {names : List Name} (settles : ∀ name ∈ names, table.Settles name) :
    table.resolveNames names = (.ok (), table) := by
  induction names with
  | nil => rfl
  | cons name rest ih =>
      obtain ⟨settled, later⟩ := List.forall_mem_cons.1 settles
      rw [sound.resolveNames_cons_of_settles settled, sound.resolveQSize_of_isComplete complete,
        sound.resolveSize_of_isComplete complete]
      exact ih later

/-- A table that was resolved once has nothing left to resolve. -/
theorem resolveAll_again (sound : table.Sound) (done : table.resolveAll.1 = .ok ()) :
    table.resolveAll.2.resolveAll = (.ok (), table.resolveAll.2) := by
  obtain ⟨soundNext, same⟩ := sound.resolveAll
  obtain ⟨formed, -⟩ := sound.resolveAll_eq_ok_iff.1 done
  have clear : table.resolveAll.2.detectCycles = .ok () := by
    rw [detectCycles_eq_ok_iff, refers_eq_of_declared_eq same, names_eq_of_declared_eq same]
    exact formed.acyclic
  rw [resolveAll_of_acyclic clear]
  refine soundNext.resolveNames_of_isComplete (sound.isComplete_of_resolveAll done) ?_
  rw [names_eq_of_declared_eq same]
  intro name listed
  have answers := sound.answers_congr soundNext same name
  simpa only [Settles, answers] using sound.settles_of_resolveAll done name listed

/-- After everything is resolved, a bit width is missing where an unsized builtin is reached. -/
theorem isSet_iff_of_resolveAll (sound : table.Sound) (done : table.resolveAll.1 = .ok ())
    {type : DataType} (listed : type ∈ table.resolveAll.2.types) :
    type.size.isSet = true ↔ ¬ table.ReachesUnsized type.name := by
  obtain ⟨soundNext, same⟩ := sound.resolveAll
  obtain ⟨formed, fits⟩ := sound.resolveAll_eq_ok_iff.1 done
  have answers := (sound.answers_congr soundNext same type.name).2
  have declared : type.name ∈ table.names := by
    rw [← names_eq_of_declared_eq same]
    exact List.mem_map_of_mem listed
  have sized := sound.exists_resolveSize_iff (fits type.name declared).2
  constructor
  · intro isSet
    obtain ⟨bits, known⟩ := Option.isSome_iff_exists.1 isSet
    have width := soundNext.resolveSize_eq_ok_iff.2
      (soundNext.sizes type.name type bits (get?_eq_some_of_mem listed) known)
    rw [answers] at width
    exact (sized.1 ⟨bits, width⟩).2
  · intro free
    obtain ⟨bits, width⟩ := sized.2 ⟨isWellFormed_iff.1 formed type.name declared, free⟩
    rw [← answers] at width
    exact (sound.isComplete_of_resolveAll done).sizes type listed bits width

/-- Whatever the outcome, names, order and members stay, and the records are the totals. -/
theorem records_of_resolveAll (sound : table.Sound) :
    table.resolveAll.2.types.map (fun type => (type.name, type.members)) =
        table.types.map (fun type => (type.name, type.members)) ∧
      ∀ name type, table.resolveAll.2.get? name = some type →
        (∀ size, type.qsize = some size →
          totalOf .indices table.declared [] name = .ok size) ∧
        ∀ bits, type.size.bits = some bits → totalOf .bits table.declared [] name = .ok bits := by
  obtain ⟨soundNext, same⟩ := sound.resolveAll
  constructor
  · have shape (table : TypeTable) :
        table.declared.types.map (fun type => (type.name, type.members)) =
          table.types.map (fun type => (type.name, type.members)) := by
      simp [TypeTable.declared, TypeTable.update]
    rw [← shape, same, shape]
  · intro name type found
    constructor
    · intro size known
      have sized := soundNext.qsizes name type size found known
      rw [same] at sized
      exact (totalOf_eq_ok_iff (sound.recordsLeaves recordsSums_indices)).2 sized
    · intro bits known
      have sized := soundNext.sizes name type bits found known
      rw [same] at sized
      exact (totalOf_eq_ok_iff (sound.recordsLeaves recordsSums_bits)).2 sized

end Sound

end Complete

end TypeTable

end HybridQuantum
