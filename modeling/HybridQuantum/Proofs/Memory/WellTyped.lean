import HybridQuantum.Proofs.Memory.Slots

/-!
# Variables hold well-typed data

Whatever is assigned to a variable, by position or by name, and whether the
assignments go through or fail, the variable is unassigned and empty or holds
values that match the slots of its type.  Every fitting data can get there, and
a variable that does not allow a second assignment keeps its first for good.
-/

namespace HybridQuantum

/-- What an enum keeps under a tag: the tag's own text, or a payload of its type. -/
inductive Slot.Marks (slot : Slot) : Option String × Literal → Prop where
  | text {tag : String} {value : Literal} (name : slot.name = some tag) (bare : slot.type = none)
      (text : value.core?.map CoreLiteral.value = some (.str tag)) : Marks slot (some tag, value)
  | payload {tag : String} {value : Literal} (taken : slot.Takes (some tag, value)) :
      Marks slot (some tag, value)

/-- Stored values that match a type: one for each slot, or one for one slot. -/
def DataType.Fits (type : DataType) (data : List (Option String × Literal)) : Prop :=
  match type.kind with
  | .single => List.Forall₂ Slot.Takes (Slot.layout type) data
  | .struct => List.Forall₂ Slot.Takes (Slot.layout type) data
  | .union => ∃ slot ∈ Slot.layout type, ∃ entry, slot.Takes entry ∧ data = [entry]
  | .enum => ∃ slot ∈ Slot.layout type, ∃ entry, slot.Marks entry ∧ data = [entry]

namespace DataType

variable {type : DataType} {data : List (Option String × Literal)}

/-- A container is filled slot by slot, or in one slot of its choice. -/
theorem kind_cases (type : DataType) :
    (type.kind = .single ∨ type.kind = .struct) ∨ type.kind = .union ∨ type.kind = .enum := by
  cases type.kind <;> simp

theorem fits_iff_filled (sequential : type.kind = .single ∨ type.kind = .struct) :
    type.Fits data ↔ List.Forall₂ Slot.Takes (Slot.layout type) data := by
  rcases sequential with single | struct <;> simp only [Fits, *]

theorem fits_of_takes (selective : type.kind = .union ∨ type.kind = .enum) {slot : Slot}
    (listed : slot ∈ Slot.layout type) {member : String} {value : Literal}
    (taken : slot.Takes (some member, value)) : type.Fits [(some member, value)] := by
  unfold Fits
  rcases selective with union | enum
  · rw [union]
    exact ⟨slot, listed, _, taken, rfl⟩
  · rw [enum]
    exact ⟨slot, listed, _, .payload taken, rfl⟩

/-- Only the slot of a type without members has no name, unless the type is single. -/
theorem IsFormed.layout_of_name_eq_none (formed : type.IsFormed) (many : type.kind ≠ .single)
    {slot : Slot} (listed : slot ∈ Slot.layout type) (nameless : slot.name = none) :
    Slot.layout type = [slot] := by
  unfold Slot.layout at listed ⊢
  split at listed
  · rename_i empty
    rw [if_pos empty, List.mem_singleton.1 listed]
  · obtain ⟨member, own, rfl⟩ := List.mem_map.1 listed
    exact absurd nameless (formed.name?_ne_none many own)

end DataType

namespace Variable

/-- A variable that was made for a type, whatever was assigned to it since. -/
structure IsOf (holder : Variable) (type : DataType) : Prop where
  container : holder.container = type.kind
  slots : holder.slots = Slot.layout type

variable {holder next : Variable} {type : DataType} {data : List (Option String × Literal)}

theorem layAlternative_eq_ok_iff {value : Literal} :
    holder.layAlternative value = .ok data ↔
      ∃ slot, (holder.slots.find? fun slot => slot.type == some value.type) = some slot ∧
        data = [(slot.name, value)] := by
  unfold layAlternative
  split
  · rename_i slot found
    simp [found, eq_comm]
  · rename_i none
    simp [none]

/-- A text marks the bare tag that it names. -/
theorem layTag_eq_ok_iff (distinct : (holder.slots.map Slot.name).Nodup) {value : Literal} :
    holder.layTag value = .ok data ↔
      ∃ tag, ∃ slot ∈ holder.slots, slot.name = some tag ∧ slot.type = none ∧
        value.core?.map CoreLiteral.value = some (.str tag) ∧ data = [(some tag, value)] := by
  constructor
  · intro laid
    unfold layTag at laid
    split at laid
    · rename_i tag text
      split at laid
      · cases laid
      · rename_i slot found
        obtain ⟨listed, name⟩ := (find?_eq_some_iff_of_nodup distinct).1 found
        split at laid
        · cases laid
        · rename_i bare
          cases laid
          exact ⟨tag, slot, listed, name, Option.not_isSome_iff_eq_none.1 bare, text, rfl⟩
    · cases laid
  · rintro ⟨tag, slot, listed, name, bare, text, rfl⟩
    simp only [layTag, text, (find?_eq_some_iff_of_nodup distinct).2 ⟨listed, name⟩, bare,
      Option.isSome_none, Bool.false_eq_true, if_false]

namespace IsOf

theorem nodup_slots (made : holder.IsOf type) (formed : type.IsFormed) :
    (holder.slots.map Slot.name).Nodup := by
  rw [made.slots]
  exact formed.nodup_layout

theorem sequential (made : holder.IsOf type) (kind : type.kind = .single ∨ type.kind = .struct) :
    holder.container = .single ∨ holder.container = .struct := by
  rwa [made.container]

theorem selective (made : holder.IsOf type) (kind : type.kind = .union ∨ type.kind = .enum) :
    holder.container = .union ∨ holder.container = .enum := by
  rwa [made.container]

theorem store (made : holder.IsOf type) (data : List (Option String × Literal)) :
    (holder.store data).IsOf type :=
  ⟨made.container, made.slots⟩

theorem fits_of_lay (made : holder.IsOf type) (formed : type.IsFormed) {values : List Literal}
    (laid : holder.lay values = .ok data) : type.Fits data := by
  rcases type.kind_cases with sequential | union | enum
  · rw [DataType.fits_iff_filled sequential, ← made.slots]
    exact ((lay_eq_ok_iff_filled (made.sequential sequential)).1 laid).1
  · rw [lay, made.container, union] at laid
    obtain ⟨value, -, laid⟩ := exists_of_bind_eq_ok laid
    obtain ⟨slot, found, rfl⟩ := layAlternative_eq_ok_iff.1 laid
    have listed := List.mem_of_find?_eq_some found
    rw [made.slots] at listed
    rw [DataType.Fits, union]
    exact ⟨slot, listed, _, ⟨rfl, by simpa using List.find?_some found⟩, rfl⟩
  · rw [lay, made.container, enum] at laid
    obtain ⟨value, -, laid⟩ := exists_of_bind_eq_ok laid
    obtain ⟨tag, slot, listed, name, bare, text, rfl⟩ :=
      (layTag_eq_ok_iff (made.nodup_slots formed)).1 laid
    rw [made.slots] at listed
    rw [DataType.Fits, enum]
    exact ⟨slot, listed, _, .text name bare text, rfl⟩

theorem exists_fits_of_assignNamed (made : holder.IsOf type) (formed : type.IsFormed)
    {pairs : List (String × Literal)} (done : holder.assignNamed pairs = .ok next) :
    holder.checkWritable = .ok () ∧ ∃ data, type.Fits data ∧ next = holder.store data := by
  have distinct := made.nodup_slots formed
  rcases type.kind_cases with sequential | selective
  · simp only [DataType.fits_iff_filled sequential, ← made.slots]
    obtain ⟨writable, data, filled, -, stored⟩ :=
      (assignNamed_eq_ok_iff_perm distinct (made.sequential sequential)).1 done
    exact ⟨writable, data, filled, stored⟩
  · obtain ⟨writable, pair, -, ⟨slot, listed, taken⟩, stored⟩ :=
      (assignNamed_eq_ok_iff_singleton distinct (made.selective selective)).1 done
    rw [made.slots] at listed
    exact ⟨writable, _, DataType.fits_of_takes selective listed taken, stored⟩

/-- A value given by name to the slot that takes it. -/
theorem assignNamed_of_takes (made : holder.IsOf type) (formed : type.IsFormed)
    (selective : type.kind = .union ∨ type.kind = .enum) (writable : holder.checkWritable = .ok ())
    {slot : Slot} (listed : slot ∈ Slot.layout type) {member : String} {value : Literal}
    (taken : slot.Takes (some member, value)) :
    holder.assignNamed [(member, value)] = .ok (holder.store [(some member, value)]) := by
  rw [← made.slots] at listed
  exact (assignNamed_eq_ok_iff_singleton (made.nodup_slots formed) (made.selective selective)).2
    ⟨writable, _, rfl, ⟨slot, listed, taken⟩, rfl⟩

/-- Data that fits can be assigned: by position, or by name to the slot that takes it. -/
theorem exists_assign_of_fits (made : holder.IsOf type) (formed : type.IsFormed)
    (writable : holder.checkWritable = .ok ()) (fits : type.Fits data) :
    (∃ values, holder.assign values = .ok (holder.store data)) ∨
      ∃ pairs, holder.assignNamed pairs = .ok (holder.store data) := by
  rcases type.kind_cases with sequential | union | enum
  · rw [DataType.fits_iff_filled sequential, ← made.slots] at fits
    have laid := (lay_eq_ok_iff_filled (made.sequential sequential)).2 ⟨fits, rfl⟩
    exact .inl ⟨_, assign_eq_ok_iff.2 ⟨writable, data, laid, rfl⟩⟩
  · rw [DataType.Fits, union] at fits
    obtain ⟨slot, listed, ⟨name, value⟩, taken, rfl⟩ := fits
    cases name with
    | some member =>
        exact .inr ⟨_, made.assignNamed_of_takes formed (.inl union) writable listed taken⟩
    | none =>
        have sole := formed.layout_of_name_eq_none (by simp [union]) listed taken.name.symm
        have own : slot.type = some value.type := taken.type
        have first : (holder.slots.find? fun slot => slot.type == some value.type) = some slot := by
          simp [made.slots, sole, own]
        have laid : holder.lay [value] = .ok [(none, value)] := by
          rw [lay, made.container, union]
          exact layAlternative_eq_ok_iff.2 ⟨slot, first, by rw [← taken.name]⟩
        exact .inl ⟨[value], assign_eq_ok_iff.2 ⟨writable, _, laid, rfl⟩⟩
  · rw [DataType.Fits, enum] at fits
    obtain ⟨slot, listed, entry, marks, rfl⟩ := fits
    cases marks with
    | @text tag value name bare text =>
        rw [← made.slots] at listed
        have laid : holder.lay [value] = .ok [(some tag, value)] := by
          rw [lay, made.container, enum]
          exact (layTag_eq_ok_iff (made.nodup_slots formed)).2
            ⟨tag, slot, listed, name, bare, text, rfl⟩
        exact .inl ⟨[value], assign_eq_ok_iff.2 ⟨writable, _, laid, rfl⟩⟩
    | payload taken =>
        exact .inr ⟨_, made.assignNamed_of_takes formed (.inr enum) writable listed taken⟩

end IsOf

/-- A variable as it was made for a type, either empty or with data that fits. -/
structure IsTyped (name : Name) (type : DataType) (mutability : Mutability)
    (holder : Variable) : Prop extends holder.IsOf type where
  name_eq : holder.name = name
  mutability_eq : holder.mutability = mutability
  state : holder.assigned = false ∧ holder.data = [] ∨
    holder.assigned = true ∧ type.Fits holder.data

theorem IsTyped.new {name : Name} {mutability : Mutability}
    (made : Variable.new name type mutability = .ok holder) :
    holder.IsTyped name type mutability ∧ holder.assigned = false := by
  unfold Variable.new at made
  split at made
  · cases made
    exact ⟨⟨⟨rfl, rfl⟩, rfl, rfl, .inl ⟨rfl, rfl⟩⟩, rfl⟩
  · cases made

/-- A variable that is assigned and may not change refuses to be written. -/
theorem IsTyped.checkWritable_eq_error {name : Name} {mutability : Mutability}
    (typed : holder.IsTyped name type mutability) (fixed : mutability.allowsReassign = false)
    (assigned : holder.assigned = true) : holder.checkWritable = .error (.immutable name) := by
  simp [checkWritable, assigned, typed.mutability_eq, fixed, typed.name_eq]

end Variable

/-- One assignment to a variable. -/
inductive Assignment where
  | positional (values : List Literal)
  | named (pairs : List (String × Literal))

namespace Assignment

/-- What an assignment makes of a variable, when it goes through. -/
def result (holder : Variable) : Assignment → Except MemoryError Variable
  | positional values => holder.assign values
  | named pairs => holder.assignNamed pairs

/-- The answer to an assignment and the variable after it. -/
def apply (holder : Variable) (call : Assignment) : Except MemoryError Unit × Variable :=
  match call.result holder with
  | .ok next => (.ok (), next)
  | .error cause => (.error cause, holder)

/-- The answers to assignments in order, and the variable after them. -/
def run (holder : Variable) : List Assignment → List (Except MemoryError Unit) × Variable
  | [] => ([], holder)
  | call :: rest =>
      let (answer, next) := call.apply holder
      let (answers, last) := run next rest
      (answer :: answers, last)

section Steps

variable {holder next : Variable} {type : DataType} {call : Assignment}

theorem apply_of_error {cause : MemoryError} (failed : (call.apply holder).1 = .error cause) :
    (call.apply holder).2 = holder := by
  unfold apply at failed ⊢
  split
  · rename_i next done
    rw [done] at failed
    cases failed
  · rfl

theorem apply_of_checkWritable_eq_error {cause : MemoryError}
    (refused : holder.checkWritable = .error cause) :
    call.apply holder = (.error cause, holder) := by
  have failed : call.result holder = .error cause := by
    cases call with
    | positional values => rw [result, Variable.assign_eq_lay, refused]; rfl
    | named pairs => rw [result, Variable.assignNamed, refused]; rfl
  rw [apply, failed]

/-- An assignment that goes through stores data that fits. -/
theorem exists_fits_of_result (made : holder.IsOf type) (formed : type.IsFormed)
    (done : call.result holder = .ok next) :
    holder.checkWritable = .ok () ∧ ∃ data, type.Fits data ∧ next = holder.store data := by
  cases call with
  | positional values =>
      obtain ⟨writable, data, laid, stored⟩ := Variable.assign_eq_ok_iff.1 done
      exact ⟨writable, data, made.fits_of_lay formed laid, stored⟩
  | named pairs => exact made.exists_fits_of_assignNamed formed done

theorem apply_cases (made : holder.IsOf type) (formed : type.IsFormed) (call : Assignment) :
    (∃ cause, call.apply holder = (.error cause, holder)) ∨
      holder.checkWritable = .ok () ∧
        ∃ data, type.Fits data ∧ call.apply holder = (.ok (), holder.store data) := by
  cases outcome : call.result holder with
  | error cause => exact .inl ⟨cause, by rw [apply, outcome]⟩
  | ok next =>
      obtain ⟨writable, data, fits, rfl⟩ := exists_fits_of_result made formed outcome
      exact .inr ⟨writable, data, fits, by rw [apply, outcome]⟩

/-- What fits, and nothing else, can be put into a variable that may be written. -/
theorem exists_apply_eq_ok_iff (made : holder.IsOf type) (formed : type.IsFormed) :
    (∃ call : Assignment, call.apply holder = (.ok (), next)) ↔
      holder.checkWritable = .ok () ∧ ∃ data, type.Fits data ∧ next = holder.store data := by
  constructor
  · rintro ⟨call, done⟩
    rcases call.apply_cases made formed with ⟨cause, failed⟩ | ⟨writable, data, fits, stored⟩
    · rw [failed] at done
      cases done
    · rw [stored] at done
      cases done
      exact ⟨writable, data, fits, rfl⟩
  · rintro ⟨writable, data, fits, rfl⟩
    rcases made.exists_assign_of_fits formed writable fits with ⟨values, done⟩ | ⟨pairs, done⟩
    · exact ⟨.positional values, by rw [apply, result, done]⟩
    · exact ⟨.named pairs, by rw [apply, result, done]⟩

end Steps

section Runs

variable {holder : Variable} {name : Name} {type : DataType} {mutability : Mutability}

theorem isTyped_apply (formed : type.IsFormed) (typed : holder.IsTyped name type mutability)
    (call : Assignment) : (call.apply holder).2.IsTyped name type mutability := by
  rcases call.apply_cases typed.toIsOf formed with ⟨cause, failed⟩ | ⟨-, data, fits, stored⟩
  · rwa [failed]
  · rw [stored]
    exact ⟨typed.toIsOf.store data, typed.name_eq, typed.mutability_eq, .inr ⟨rfl, fits⟩⟩

theorem isTyped_run (formed : type.IsFormed) (typed : holder.IsTyped name type mutability)
    (calls : List Assignment) : (run holder calls).2.IsTyped name type mutability := by
  induction calls generalizing holder with
  | nil => exact typed
  | cons call rest ih => exact ih (call.isTyped_apply formed typed)

/-- A variable is assigned once an assignment was answered well. -/
theorem assigned_run_iff (formed : type.IsFormed) (typed : holder.IsTyped name type mutability)
    (calls : List Assignment) :
    (run holder calls).2.assigned = true ↔
      holder.assigned = true ∨ .ok () ∈ (run holder calls).1 := by
  induction calls generalizing holder with
  | nil => simp [run]
  | cons call rest ih =>
      have later := ih (call.isTyped_apply formed typed)
      rcases call.apply_cases typed.toIsOf formed with ⟨cause, failed⟩ | ⟨-, data, -, stored⟩
      · rw [failed] at later
        simpa [run, failed] using later
      · rw [stored] at later
        simpa [run, stored, Variable.store] using later

theorem run_of_checkWritable_eq_error {cause : MemoryError}
    (refused : holder.checkWritable = .error cause) (calls : List Assignment) :
    run holder calls = (List.replicate calls.length (.error cause), holder) := by
  induction calls with
  | nil => rfl
  | cons call rest ih =>
      rw [run, apply_of_checkWritable_eq_error refused]
      simp only [ih, List.length_cons, List.replicate_succ]

/-- Where values may not change, one assignment at most goes through. -/
theorem countP_isOk_run_le_one (formed : type.IsFormed)
    (typed : holder.IsTyped name type mutability) (fixed : mutability.allowsReassign = false)
    (calls : List Assignment) : (run holder calls).1.countP Except.isOk ≤ 1 := by
  induction calls generalizing holder with
  | nil => simp [run]
  | cons call rest ih =>
      have kept := call.isTyped_apply formed typed
      rcases call.apply_cases typed.toIsOf formed with ⟨cause, failed⟩ | ⟨-, data, -, stored⟩
      · simpa [run, failed, Except.isOk, Except.toBool] using ih typed
      · rw [stored] at kept
        have refused := run_of_checkWritable_eq_error (kept.checkWritable_eq_error fixed rfl) rest
        simp only [run, stored, refused]
        rw [List.countP_cons_of_pos rfl, List.countP_replicate]
        simp [Except.isOk, Except.toBool]

end Runs

/--
In every state that assignments lead a new variable to, it is unassigned and
empty or holds data that fits its type, and it is assigned once one of them went
through.  An assignment that fails leaves it alone; what the others can make of
it is exactly what fits, as long as it may be written.  A constant and an
immutable variable take one assignment at most, and refuse every later one.
-/
theorem wellTyped_run {declaration : Declaration} {name : Name} {mutability : Mutability}
    {fresh holder : Variable} {calls : List Assignment} {answers : List (Except MemoryError Unit)}
    (made : Variable.new name declaration.type mutability = .ok fresh)
    (reached : run fresh calls = (answers, holder)) :
    (holder.assigned = false ∧ holder.data = [] ∨
        holder.assigned = true ∧ declaration.type.Fits holder.data) ∧
      (holder.assigned = true ↔ .ok () ∈ answers) ∧
      (∀ (call : Assignment) (cause : MemoryError), (call.apply holder).1 = .error cause →
        (call.apply holder).2 = holder) ∧
      (∀ next, (∃ call : Assignment, call.apply holder = (.ok (), next)) ↔
        holder.checkWritable = .ok () ∧
          ∃ data, declaration.type.Fits data ∧ next = holder.store data) ∧
      (mutability = .constant ∨ mutability = .immutable →
        answers.countP Except.isOk ≤ 1 ∧
          (holder.assigned = true → ∀ later : List Assignment,
            run holder later =
              (List.replicate later.length (.error (.immutable name)), holder))) := by
  have formed := declaration.isFormed_type
  obtain ⟨new, unassigned⟩ := Variable.IsTyped.new made
  have typed := isTyped_run formed new calls
  have assigned := assigned_run_iff formed new calls
  have once := fun fixed => countP_isOk_run_le_one formed new fixed calls
  rw [reached] at typed assigned once
  refine ⟨typed.state, by simpa [unassigned] using assigned, fun call cause => apply_of_error,
    fun next => exists_apply_eq_ok_iff typed.toIsOf formed, fun fixed => ?_⟩
  have fixed : mutability.allowsReassign = false := by
    rcases fixed with rfl | rfl <;> rfl
  exact ⟨once fixed, fun full => run_of_checkWritable_eq_error
    (typed.checkWritable_eq_error fixed full)⟩

/-- A struct of two numbers, whose second one is wider. -/
def samplePair : Declaration :=
  .user (.ofLeaf "pair") .struct
    [.typed "low" (.ofLeaf "u8"), .typed "high" (.ofLeaf "u16"), .typed "low" (.ofLeaf "u16")]

def sampleNumber (value : UInt64) (type : String) : Literal :=
  .core ⟨.uint value, .ofLeaf type⟩

/-- A variable of the struct, as it is made; the second offer of a name was refused. -/
def sampleVariable : Variable where
  name := .ofLeaf "x"
  type := .ofLeaf "pair"
  container := .struct
  mutability := .immutable
  slots := [⟨some "low", some (.ofLeaf "u8")⟩, ⟨some "high", some (.ofLeaf "u16")⟩]
  data := []
  assigned := false

/-- Values in the wrong order, the same by name, and one more try. -/
def sampleAssignments : List Assignment :=
  [.positional [sampleNumber 2 "u16", sampleNumber 1 "u8"],
    .named [("high", sampleNumber 2 "u16"), ("low", sampleNumber 1 "u8")],
    .positional [sampleNumber 3 "u8", sampleNumber 4 "u16"]]

/-- Only the assignment by name goes through, and its values stay. -/
theorem wellTyped_run_sample :
    let holder := sampleVariable.store
      [(some "low", sampleNumber 1 "u8"), (some "high", sampleNumber 2 "u16")]
    Variable.new (.ofLeaf "x") samplePair.type .immutable = .ok sampleVariable ∧
      run sampleVariable sampleAssignments =
        ([.error (sampleVariable.misfit (.wrongType (some "low") (.ofLeaf "u8") (.ofLeaf "u16"))),
          .ok (), .error (.immutable (.ofLeaf "x"))], holder) ∧
      samplePair.type.Fits holder.data ∧
      ∀ later : List Assignment, run holder later =
        (List.replicate later.length (.error (.immutable (.ofLeaf "x"))), holder) := by
  intro holder
  have made : Variable.new (.ofLeaf "x") samplePair.type .immutable = .ok sampleVariable := by cbv
  have reached : run sampleVariable sampleAssignments =
      ([.error (sampleVariable.misfit (.wrongType (some "low") (.ofLeaf "u8") (.ofLeaf "u16"))),
        .ok (), .error (.immutable (.ofLeaf "x"))], holder) := by
    cbv
  obtain ⟨⟨empty, -⟩ | ⟨full, fits⟩, -, -, -, once⟩ := wellTyped_run made reached
  · cases empty
  · exact ⟨made, reached, fits, (once (.inr rfl)).2 full⟩

end Assignment

end HybridQuantum
