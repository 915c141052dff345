import HybridQuantum.Proofs.Types.Cycles
import HybridQuantum.Proofs.Types.Soundness
import Mathlib.Computability.Primrec.List
import Mathlib.Algebra.Ring.Nat
import Mathlib.Data.List.Permutation

/-!
# Size resolution in every history

Tables grow by declarations, and sizes are resolved at any moment in between.  In
every table that such calls lead to, resolution answers as if it had never
recorded anything: it succeeds on the resolvable names, with the sum over the
members, and an answer once given stays what it is.
-/

namespace HybridQuantum

/-- How a type is made: a container that members are offered to, or a builtin. -/
inductive Declaration where
  | user (name : Name) (kind : Container) (members : List Member)
  | builtin (name : Name) (size : Size) (qsize : QSize)

namespace Declaration

/-- The type a declaration makes; a member that is refused is left out. -/
def type : Declaration → DataType
  | user name kind members =>
      members.foldl (fun type member => (type.addMember member).toOption.getD type)
        (.new name kind)
  | builtin name size qsize => .builtin name size qsize

/-- A user type carries no sizes before it is resolved. -/
structure IsBlank (type : DataType) : Prop where
  user : type.isBuiltin = false
  size : type.size = .unset
  qsize : type.qsize = none

theorem IsBlank.addMember {type next : DataType} {member : Member} (blank : IsBlank type)
    (added : type.addMember member = .ok next) : IsBlank next := by
  simp only [DataType.addMember, blank.user, Bool.false_eq_true, if_false, ok_bind] at added
  obtain ⟨-, -, added⟩ := exists_of_bind_eq_ok added
  obtain ⟨-, -, added⟩ := exists_of_bind_eq_ok added
  obtain ⟨-, -, added⟩ := exists_of_bind_eq_ok added
  obtain ⟨-, -, added⟩ := exists_of_bind_eq_ok added
  cases added
  exact ⟨rfl, blank.size, blank.qsize⟩

theorem IsBlank.offer {type : DataType} (blank : IsBlank type) (members : List Member) :
    IsBlank
      (members.foldl (fun type member => (type.addMember member).toOption.getD type) type) := by
  induction members generalizing type with
  | nil => exact blank
  | cons member rest ih =>
      rw [List.foldl_cons]
      cases added : type.addMember member with
      | error cause => exact ih blank
      | ok next => exact ih (blank.addMember added)

theorem IsBlank.declared_eq {type : DataType} (blank : IsBlank type) : type.declared = type := by
  obtain ⟨user, size, qsize⟩ := blank
  cases type
  simp only at user size qsize
  subst user size qsize
  rfl

theorem isBlank_user (name : Name) (kind : Container) (members : List Member) :
    IsBlank (user name kind members).type :=
  IsBlank.offer ⟨rfl, rfl, rfl⟩ members

theorem members_of_isBuiltin (declaration : Declaration)
    (isBuiltin : declaration.type.isBuiltin = true) :
    declaration.type.members = [] ∧ declaration.type.qsize.isSome = true := by
  cases declaration with
  | user name kind members =>
      rw [(isBlank_user name kind members).user] at isBuiltin
      cases isBuiltin
  | builtin name size qsize => exact ⟨rfl, rfl⟩

/-- A new type has only the records it was declared with. -/
theorem declared_type (declaration : Declaration) :
    declaration.type.declared = declaration.type := by
  cases declaration with
  | user name kind members => exact (isBlank_user name kind members).declared_eq
  | builtin name size qsize => rfl

end Declaration

namespace TypeTable

variable {table : TypeTable}

theorem types_add {type : DataType} {next : TypeTable} (added : table.add type = .ok next) :
    next.types = table.types ++ [type] := by
  unfold add at added
  split at added
  · cases added
  · cases added
    rfl

theorem get?_add {type : DataType} {next : TypeTable} (added : table.add type = .ok next)
    (name : Name) :
    next.get? name = (table.get? name).or (if type.name = name then some type else none) := by
  simp only [get?, types_add added, List.find?_append, List.find?_singleton, beq_iff_eq]

theorem extends_add {type : DataType} {next : TypeTable} (added : table.add type = .ok next) :
    table.Extends next := by
  intro name other found
  rw [get?_add added, found]
  rfl

/-- Records keep their derivations when a type is added, and the new type's own are sized. -/
theorem sized_of_add {σ : Type} (measure : Measure σ) {declaration : Declaration}
    {next : TypeTable} (added : table.add declaration.type = .ok next)
    (earlier : ∀ name type value, table.get? name = some type →
      measure.recorded type = some value → Sized measure table.declared name value) :
    ∀ name type value, next.get? name = some type → measure.recorded type = some value →
      Sized measure next.declared name value := by
  intro name type value found known
  have foundDeclared := get?_declared_of_get? found
  rw [get?_add added] at found
  cases before : table.get? name with
  | some other =>
      rw [before] at found
      cases found
      exact (earlier name type value before known).mono (extends_add added).declared
  | none =>
      rw [before, Option.none_or] at found
      split at found
      · cases found
        rw [declaration.declared_type] at foundDeclared
        exact .own foundDeclared known
      · cases found

namespace Sound

theorem add (sound : table.Sound) {declaration : Declaration} {next : TypeTable}
    (added : table.add declaration.type = .ok next) : next.Sound where
  builtin := by
    intro type member builtin
    rw [types_add added] at member
    rcases List.mem_append.1 member with earlier | here
    · exact sound.builtin type earlier builtin
    · rw [List.mem_singleton.1 here] at builtin ⊢
      exact declaration.members_of_isBuiltin builtin
  qsizes := sized_of_add .indices added sound.qsizes
  sizes := sized_of_add .bits added sound.sizes

theorem empty : TypeTable.empty.Sound where
  builtin := by
    intro type member
    cases member
  qsizes := by
    intro name type value found
    cases found
  sizes := by
    intro name type value found
    cases found

/-- Builtins carry their own sizes. -/
theorem builtins : TypeTable.builtins.Sound := by
  have complete : ∀ type ∈ TypeTable.builtins.types,
      type.isBuiltin = true ∧ type.members = [] ∧ type.qsize.isSome = true := by decide
  have own : ∀ name type, TypeTable.builtins.get? name = some type →
      TypeTable.builtins.declared.get? name = some type := by
    intro name type found
    have builtin := (complete type (mem_of_get?_eq_some found)).1
    rw [get?_declared_of_get? found, DataType.declared, if_pos builtin]
  exact ⟨fun type member _ => (complete type member).2,
    fun name type value found known => .own (own name type found) known,
    fun name type value found known => .own (own name type found) known⟩

end Sound

section Declared

theorem refers_declared : table.declared.Refers = table.Refers := by
  funext name other
  apply propext
  constructor
  · rintro ⟨type, found, member⟩
    rw [get?_declared] at found
    obtain ⟨before, foundBefore, rfl⟩ := Option.map_eq_some_iff.1 found
    exact ⟨before, foundBefore, by rwa [DataType.declared_memberTypes] at member⟩
  · rintro ⟨type, found, member⟩
    exact ⟨type.declared, get?_declared_of_get? found, by rwa [DataType.declared_memberTypes]⟩

theorem resolvable_declared_iff {name : Name} :
    table.declared.Resolvable name ↔ table.Resolvable name := by
  constructor
  · rintro ⟨declared, acyclic, payloads⟩
    simp only [Reaches, refers_declared, contains, get?_declared, Option.isSome_map] at declared
    simp only [Reaches, refers_declared] at acyclic payloads
    refine ⟨declared, acyclic, ?_⟩
    intro other type tag payload payloadType reached found member foundPayload
    have allowed := payloads other type.declared tag payload payloadType.declared reached
      (get?_declared_of_get? found) (by rwa [DataType.declared_members])
      (get?_declared_of_get? foundPayload)
    rwa [DataType.declared_kind] at allowed
  · rintro ⟨declared, acyclic, payloads⟩
    refine ⟨?_, ?_, ?_⟩
    · simpa only [Reaches, refers_declared, contains, get?_declared, Option.isSome_map]
        using declared
    · simpa only [Reaches, refers_declared] using acyclic
    · intro other type tag payload payloadType reached found member foundPayload
      rw [Reaches, refers_declared] at reached
      rw [get?_declared] at found foundPayload
      obtain ⟨before, foundBefore, rfl⟩ := Option.map_eq_some_iff.1 found
      obtain ⟨payloadBefore, foundPayloadBefore, rfl⟩ := Option.map_eq_some_iff.1 foundPayload
      rw [DataType.declared_members] at member
      rw [DataType.declared_kind]
      exact payloads other before tag payload payloadBefore reached foundBefore member
        foundPayloadBefore

/-- A builtin without a width lies below a name. -/
def ReachesUnsized (table : TypeTable) (name : Name) : Prop :=
  ∃ other type, table.Reaches name other ∧ table.get? other = some type ∧
    type.isBuiltin = true ∧ type.size.bits = none

theorem unrefused_bits_iff {name : Name} :
    table.declared.Unrefused .bits name ↔ ¬ table.ReachesUnsized name := by
  constructor
  · rintro unrefused ⟨other, type, reached, found, builtin, unsized⟩
    rw [Reaches, ← refers_declared] at reached
    have kept : type.declared = type := by rw [DataType.declared, if_pos builtin]
    have allowed := unrefused other type reached (by rw [get?_declared_of_get? found, kept]) unsized
    simp [Measure.bits, builtin] at allowed
  · intro sized other type reached found unknown
    rw [Reaches, refers_declared] at reached
    rw [get?_declared] at found
    obtain ⟨before, foundBefore, rfl⟩ := Option.map_eq_some_iff.1 found
    by_cases builtin : before.isBuiltin = true
    · rw [recordsSums_bits.recorded, if_pos builtin] at unknown
      exact absurd ⟨other, before, reached, foundBefore, builtin, unknown⟩ sized
    · simp [Measure.bits, builtin]

/-- The only error of a bit width below a resolvable name is blamed on the name itself. -/
theorem Refused.eq_unsizedType {name : Name} {cause : TypeError}
    (refused : Refused .bits table name cause) : cause = .unsizedType name := by
  induction refused with
  | own found _ refused =>
      simp only [Measure.bits] at refused
      split at refused
      · cases refused
        rw [name_of_get?_eq_some found]
      · cases refused
  | member _ _ ih =>
      rw [ih]
      rfl

end Declared

theorem toNat_of_foldlM_add32? {parts : List UInt32} {total value : UInt32}
    (summed : parts.foldlM Word.add32? total = some value) :
    value.toNat = total.toNat + (parts.map UInt32.toNat).sum := by
  induction parts generalizing total with
  | nil =>
      cases summed
      simp
  | cons part rest ih =>
      rw [List.foldlM_cons] at summed
      obtain ⟨next, added, others⟩ := Option.bind_eq_some_iff.1 summed
      rw [ih others, Word.toNat_of_add32?_eq_some added, List.map_cons, List.sum_cons,
        Nat.add_assoc]

theorem isObstacle_of_detectCycles {cause : TypeError}
    (failed : table.detectCycles = .error cause) : cause.isObstacle = true := by
  obtain ⟨cycle, rfl, -⟩ := isCycle_of_detectCycles failed
  rfl

namespace Sound

theorem resolveQSize_eq_ok_iff (sound : table.Sound) {name : Name} {value : QSize} :
    (table.resolveQSize name).1 = .ok value ↔ Sized .indices table.declared name value := by
  rw [sound.resolveQSize_eq]
  exact totalOf_eq_ok_iff (sound.recordsLeaves recordsSums_indices)

theorem resolveSize_eq_ok_iff (sound : table.Sound) {name : Name} {value : UInt32} :
    (table.resolveSize name).1 = .ok value ↔ Sized .bits table.declared name value := by
  rw [sound.resolveSize_eq]
  exact totalOf_eq_ok_iff (sound.recordsLeaves recordsSums_bits)

/-- Short of overflow, quantum sizes are resolved for exactly the resolvable names. -/
theorem exists_resolveQSize_iff (sound : table.Sound) {name : Name}
    (fits : (table.resolveQSize name).1 ≠ .error .overflow) :
    (∃ value, (table.resolveQSize name).1 = .ok value) ↔ table.Resolvable name := by
  have unrefused : table.declared.Unrefused .indices name := fun _ _ _ _ _ => rfl
  rw [sound.resolveQSize_eq] at fits ⊢
  rw [exists_totalOf_eq_ok_iff (sound.recordsLeaves recordsSums_indices) fits,
    resolvable_declared_iff]
  exact and_iff_left unrefused

/-- Short of overflow, bit widths are resolved for the resolvable names above sized builtins. -/
theorem exists_resolveSize_iff (sound : table.Sound) {name : Name}
    (fits : (table.resolveSize name).1 ≠ .error .overflow) :
    (∃ value, (table.resolveSize name).1 = .ok value) ↔
      table.Resolvable name ∧ ¬ table.ReachesUnsized name := by
  rw [sound.resolveSize_eq] at fits ⊢
  rw [exists_totalOf_eq_ok_iff (sound.recordsLeaves recordsSums_bits) fits,
    resolvable_declared_iff, unrefused_bits_iff]

theorem resolveSize_of_reachesUnsized (sound : table.Sound) {name : Name}
    (resolvable : table.Resolvable name) (unsized : table.ReachesUnsized name) :
    (table.resolveSize name).1 = .fail (.unsizedType name) ∨
      (table.resolveSize name).1 = .error .overflow := by
  match outcome : (table.resolveSize name).1 with
  | .ok value =>
      have fits : (table.resolveSize name).1 ≠ .error .overflow := by simp [outcome]
      exact absurd unsized ((sound.exists_resolveSize_iff fits).1 ⟨value, outcome⟩).2
  | .error .overflow => exact .inr rfl
  | .error (.error cause) =>
      rw [sound.resolveSize_eq] at outcome
      have refused :=
        (resolvable_declared_iff.2 resolvable).refused_of_totalOf name (by simp) outcome
      rw [refused.eq_unsizedType]
      exact .inl rfl

/-- A resolved quantum size is a builtin's own, or the checked sum over the members. -/
theorem sum_resolveQSize (sound : table.Sound) {name : Name} {type : DataType} {value : QSize}
    (found : table.get? name = some type) (done : (table.resolveQSize name).1 = .ok value) :
    (type.isBuiltin = true → type.qsize = some value) ∧
      (type.isBuiltin = false →
        ∃ parts, List.Forall₂ (fun member part => (table.resolveQSize member).1 = .ok part)
            type.memberTypes parts ∧ parts.foldlM QSize.add? .empty = some value) := by
  have sized := sound.resolveQSize_eq_ok_iff.1 done
  constructor
  · intro builtin
    exact recorded_of_sized_builtin recordsSums_indices found builtin
      (sound.settled_indices (mem_of_get?_eq_some found) builtin) sized
  · intro user
    obtain ⟨parts, sizedParts, summed⟩ := exists_parts_of_sized recordsSums_indices found user sized
    exact ⟨parts, sizedParts.imp fun _ _ => sound.resolveQSize_eq_ok_iff.2, summed⟩

/-- A resolved bit width is a builtin's own, or the sum over the members. -/
theorem sum_resolveSize (sound : table.Sound) {name : Name} {type : DataType} {value : UInt32}
    (found : table.get? name = some type) (done : (table.resolveSize name).1 = .ok value) :
    (type.isBuiltin = true → type.size.bits = some value) ∧
      (type.isBuiltin = false →
        ∃ parts, List.Forall₂ (fun member part => (table.resolveSize member).1 = .ok part)
            type.memberTypes parts ∧ value.toNat = (parts.map UInt32.toNat).sum) := by
  have sized := sound.resolveSize_eq_ok_iff.1 done
  constructor
  · intro builtin
    exact recorded_of_sized_builtin recordsSums_bits found builtin (settled_bits builtin) sized
  · intro user
    obtain ⟨parts, sizedParts, summed⟩ := exists_parts_of_sized recordsSums_bits found user sized
    refine ⟨parts, sizedParts.imp fun _ _ => sound.resolveSize_eq_ok_iff.2, ?_⟩
    have total := toNat_of_foldlM_add32? summed
    rwa [show (Measure.bits.zero).toNat = 0 from rfl, Nat.zero_add] at total

theorem isObstacle_of_resolveQSize (sound : table.Sound) {name : Name} {cause : TypeError}
    (failed : (table.resolveQSize name).1 = .fail cause) : cause.isObstacle = true := by
  rw [sound.resolveQSize_eq] at failed
  exact isObstacle_of_totalOf reportsObstacles_indices name failed

theorem isObstacle_of_resolveSize (sound : table.Sound) {name : Name} {cause : TypeError}
    (failed : (table.resolveSize name).1 = .fail cause) : cause.isObstacle = true := by
  rw [sound.resolveSize_eq] at failed
  exact isObstacle_of_totalOf reportsObstacles_bits name failed

theorem isObstacle_of_resolveNames (sound : table.Sound) (names : List Name) {cause : TypeError}
    (failed : (table.resolveNames names).1 = .fail cause) : cause.isObstacle = true := by
  induction names generalizing table with
  | nil => cases failed
  | cons name rest ih =>
      have soundFirst := (sound.resolveQSize name).1
      rw [TypeTable.resolveNames] at failed
      split at failed
      · rename_i fault next outcome
        cases failed
        exact sound.isObstacle_of_resolveQSize (congrArg Prod.fst outcome)
      · rename_i value next outcome
        rw [outcome] at soundFirst
        have soundNext := (soundFirst.resolveSize name).1
        split at failed
        · rename_i width last outcome
          rw [outcome] at soundNext
          exact ih soundNext failed
        · rename_i unsized last outcome
          rw [outcome] at soundNext
          exact ih soundNext failed
        · rename_i fault last _ outcome
          cases failed
          exact soundFirst.isObstacle_of_resolveSize (congrArg Prod.fst outcome)

theorem isObstacle_of_resolveAll (sound : table.Sound) {cause : TypeError}
    (failed : table.resolveAll.1 = .fail cause) : cause.isObstacle = true := by
  unfold TypeTable.resolveAll at failed
  split at failed
  · rename_i inner refused
    cases failed
    exact isObstacle_of_detectCycles refused
  · exact sound.isObstacle_of_resolveNames table.names failed

end Sound

end TypeTable

/-- One call on a type table. -/
inductive TableCall where
  | add (declaration : Declaration)
  | resolveQSize (name : Name)
  | resolveSize (name : Name)
  | resolveAll
  | detectCycles

namespace TableCall

/-- The table after a call; a declaration that is refused and a search for cycles change nothing. -/
def apply (table : TypeTable) : TableCall → TypeTable
  | add declaration =>
      match table.add declaration.type with
      | .ok next => next
      | .error _ => table
  | resolveQSize name => (table.resolveQSize name).2
  | resolveSize name => (table.resolveSize name).2
  | resolveAll => table.resolveAll.2
  | detectCycles => table

/-- The table after calls in order. -/
def run (table : TypeTable) (calls : List TableCall) : TypeTable :=
  calls.foldl (fun table call => call.apply table) table

theorem sound_apply (call : TableCall) {table : TypeTable} (sound : table.Sound) :
    (call.apply table).Sound ∧ table.declared.Extends (call.apply table).declared := by
  have refl : table.declared.Extends table.declared := fun _ _ found => found
  cases call with
  | add declaration =>
      rw [apply]
      split
      · rename_i next added
        exact ⟨sound.add added, (TypeTable.extends_add added).declared⟩
      · exact ⟨sound, refl⟩
  | resolveQSize name =>
      obtain ⟨after, same⟩ := sound.resolveQSize name
      exact ⟨after, by rw [apply, same]; exact refl⟩
  | resolveSize name =>
      obtain ⟨after, same⟩ := sound.resolveSize name
      exact ⟨after, by rw [apply, same]; exact refl⟩
  | resolveAll =>
      obtain ⟨after, same⟩ := sound.resolveAll
      exact ⟨after, by rw [apply, same]; exact refl⟩
  | detectCycles => exact ⟨sound, refl⟩

theorem sound_run (calls : List TableCall) {table : TypeTable} (sound : table.Sound) :
    (run table calls).Sound ∧ table.declared.Extends (run table calls).declared := by
  induction calls generalizing table with
  | nil => exact ⟨sound, fun _ _ found => found⟩
  | cons call rest ih =>
      obtain ⟨soundNext, grows⟩ := call.sound_apply sound
      obtain ⟨soundLast, growsOn⟩ := ih soundNext
      exact ⟨soundLast, fun name type found => growsOn name type (grows name type found)⟩

theorem sound_of_run_new {start table : TypeTable} {calls : List TableCall}
    (new : start = .empty ∨ start = .builtins) (reached : run start calls = table) :
    table.Sound := by
  rw [← reached]
  rcases new with rfl | rfl
  · exact (sound_run calls TypeTable.Sound.empty).1
  · exact (sound_run calls TypeTable.Sound.builtins).1

/-- A size once resolved is resolved to the same value after any further calls. -/
theorem resolveQSize_run {table : TypeTable} (sound : table.Sound) (later : List TableCall)
    {name : Name} {value : QSize} (done : (table.resolveQSize name).1 = .ok value) :
    ((run table later).resolveQSize name).1 = .ok value := by
  obtain ⟨soundLater, grows⟩ := sound_run later sound
  exact soundLater.resolveQSize_eq_ok_iff.2 ((sound.resolveQSize_eq_ok_iff.1 done).mono grows)

theorem resolveSize_run {table : TypeTable} (sound : table.Sound) (later : List TableCall)
    {name : Name} {value : UInt32} (done : (table.resolveSize name).1 = .ok value) :
    ((run table later).resolveSize name).1 = .ok value := by
  obtain ⟨soundLater, grows⟩ := sound_run later sound
  exact soundLater.resolveSize_eq_ok_iff.2 ((sound.resolveSize_eq_ok_iff.1 done).mono grows)

/--
After any calls on a new table, with or without builtins, resolution answers as
the walk without memory over the declared types.  Short of overflow it succeeds on
exactly the resolvable names, for bit widths on those above sized builtins; the
answer is the sum over the members and never changes again; and no size is ever
found set already.
-/
theorem resolve_run {start table : TypeTable} {calls : List TableCall}
    (new : start = .empty ∨ start = .builtins) (reached : run start calls = table) (name : Name) :
    (table.resolveQSize name).1 = table.declared.totalOf .indices [] name ∧
      (table.resolveSize name).1 = table.declared.totalOf .bits [] name ∧
      ((table.resolveQSize name).1 ≠ .error .overflow →
        ((∃ value, (table.resolveQSize name).1 = .ok value) ↔ table.Resolvable name)) ∧
      ((table.resolveSize name).1 ≠ .error .overflow →
        ((∃ value, (table.resolveSize name).1 = .ok value) ↔
          table.Resolvable name ∧ ¬ table.ReachesUnsized name)) ∧
      (table.Resolvable name → table.ReachesUnsized name →
        (table.resolveSize name).1 = .fail (.unsizedType name) ∨
          (table.resolveSize name).1 = .error .overflow) ∧
      (∀ type value, table.get? name = some type → (table.resolveQSize name).1 = .ok value →
        (type.isBuiltin = true → type.qsize = some value) ∧
          (type.isBuiltin = false →
            ∃ parts, List.Forall₂ (fun member part => (table.resolveQSize member).1 = .ok part)
                type.memberTypes parts ∧ parts.foldlM QSize.add? .empty = some value)) ∧
      (∀ type value, table.get? name = some type → (table.resolveSize name).1 = .ok value →
        (type.isBuiltin = true → type.size.bits = some value) ∧
          (type.isBuiltin = false →
            ∃ parts, List.Forall₂ (fun member part => (table.resolveSize member).1 = .ok part)
                type.memberTypes parts ∧ value.toNat = (parts.map UInt32.toNat).sum)) ∧
      (∀ (later : List TableCall) (value : QSize), (table.resolveQSize name).1 = .ok value →
        ((run table later).resolveQSize name).1 = .ok value) ∧
      (∀ (later : List TableCall) (value : UInt32), (table.resolveSize name).1 = .ok value →
        ((run table later).resolveSize name).1 = .ok value) ∧
      ∀ current requested,
        (table.resolveQSize name).1 ≠ .fail (.sizeAlreadySet current requested) ∧
          (table.resolveSize name).1 ≠ .fail (.sizeAlreadySet current requested) ∧
          table.resolveAll.1 ≠ .fail (.sizeAlreadySet current requested) ∧
          table.detectCycles ≠ .error (.sizeAlreadySet current requested) := by
  have sound := sound_of_run_new new reached
  refine ⟨sound.resolveQSize_eq name, sound.resolveSize_eq name, sound.exists_resolveQSize_iff,
    sound.exists_resolveSize_iff, sound.resolveSize_of_reachesUnsized,
    fun _ _ => sound.sum_resolveQSize, fun _ _ => sound.sum_resolveSize,
    fun later _ => resolveQSize_run sound later, fun later _ => resolveSize_run sound later, ?_⟩
  intro current requested
  have clash : (TypeError.sizeAlreadySet current requested).isObstacle = false := rfl
  refine ⟨fun failed => ?_, fun failed => ?_, fun failed => ?_, fun failed => ?_⟩
  · exact Bool.false_ne_true (clash.symm.trans (sound.isObstacle_of_resolveQSize failed))
  · exact Bool.false_ne_true (clash.symm.trans (sound.isObstacle_of_resolveSize failed))
  · exact Bool.false_ne_true (clash.symm.trans (sound.isObstacle_of_resolveAll failed))
  · exact Bool.false_ne_true (clash.symm.trans (TypeTable.isObstacle_of_detectCycles failed))

/-- A pair of a type that is declared only after the pair was first looked at. -/
def sampleCalls : List TableCall :=
  [.add (.user (.ofLeaf "@pair") .struct
      [.typed "@a" (.ofLeaf "@qb"), .typed "@b" (.ofLeaf "@qb")]),
    .resolveQSize (.ofLeaf "@pair"),
    .add (.user (.ofLeaf "@qb") .single [.single (.ofLeaf "@bool")]),
    .resolveSize (.ofLeaf "@qb")]

/-- The forward reference fails at first; once it is declared, the size is there to stay. -/
theorem resolve_run_sample :
    ((run .builtins (sampleCalls.take 1)).resolveQSize (.ofLeaf "@pair")).1 =
        .fail (.unknownType (.ofLeaf "@qb")) ∧
      ((run .builtins sampleCalls).resolveQSize (.ofLeaf "@pair")).1 = .ok (.fixed 2) ∧
      (run .builtins sampleCalls).Resolvable (.ofLeaf "@pair") ∧
      ((run (run .builtins sampleCalls)
          [.add (.builtin (.ofLeaf "@wide") (.fixed 9) (.fixed 9)), .resolveAll]).resolveQSize
        (.ofLeaf "@pair")).1 = .ok (.fixed 2) := by
  have missing : ((run .builtins (sampleCalls.take 1)).resolveQSize (.ofLeaf "@pair")).1 =
      .fail (.unknownType (.ofLeaf "@qb")) := by cbv
  have done : ((run .builtins sampleCalls).resolveQSize (.ofLeaf "@pair")).1 = .ok (.fixed 2) := by
    cbv
  obtain ⟨-, -, succeeds, -, -, -, -, stays, -, -⟩ :=
    @resolve_run .builtins (run .builtins sampleCalls) sampleCalls (.inr rfl) rfl (.ofLeaf "@pair")
  have fits :
      ((run .builtins sampleCalls).resolveQSize (.ofLeaf "@pair")).1 ≠ .error .overflow := by
    simp [done]
  exact ⟨missing, done, (succeeds fits).1 ⟨_, done⟩, stays _ _ done⟩

end TableCall

end HybridQuantum
