import HybridQuantum.Proofs.Types.Members
import HybridQuantum.Proofs.Types.Sums

/-!
# Classical types need no quantum index

Members are checked by name only, when they are added and before their types need
exist: a classical container takes no member type with the quantum sigil.  Since
every type a classical name leads to was checked in this way, no chain of
declarations, in whatever order, brings a quantum builtin into a classical type,
and its size stays empty.
-/

namespace HybridQuantum

namespace DataType

variable {type next : DataType} {member : Member}

theorem checkParadigm_eq_ok_iff :
    type.checkParadigm member = .ok () ↔
      (type.isQuantum = false → ∀ memberType, member.type? = some memberType →
          memberType.isQuantum = false) ∧
        (type.kind = .struct → ∀ name memberType, member = .typed name memberType →
          isQuantumLeaf name = memberType.isQuantum) := by
  unfold checkParadigm
  cases mentioned : member.type? with
  | none =>
      have untyped : ∀ name memberType, member ≠ .typed name memberType := by
        rintro name memberType rfl
        cases mentioned
      simp [untyped]
  | some memberType =>
      simp only [Option.some.injEq, forall_eq']
      by_cases carried : (memberType.isQuantum && !type.isQuantum) = true
      · simp_all
      · have classical : type.isQuantum = false → memberType.isQuantum = false := by
          intro classical
          simpa [classical] using carried
        rw [if_neg carried, and_iff_right classical]
        split
        · rename_i name _ struct
          cases mentioned
          simp [struct]
        · rename_i other
          simp only [true_iff]
          rintro struct name memberType rfl
          exact absurd rfl (other name memberType struct)

/-- A classical container names nothing quantum, and struct members are named after their types. -/
structure IsContained (type : DataType) : Prop where
  classical : type.isQuantum = false → ∀ memberType ∈ type.memberTypes,
    memberType.isQuantum = false
  paradigm : type.kind = .struct → ∀ name memberType, .typed name memberType ∈ type.members →
    isQuantumLeaf name = memberType.isQuantum

theorem IsContained.of_members_eq_nil (none : type.members = []) : type.IsContained := by
  constructor <;> simp [memberTypes, none]

theorem memberTypes_append :
    memberTypes { type with members := type.members ++ [member] } =
      type.memberTypes ++ member.type?.toList := by
  cases mentioned : member.type? <;> simp [memberTypes, mentioned]

/-- A contained type stays so exactly with the members that pass the check. -/
theorem isContained_append_iff :
    IsContained { type with members := type.members ++ [member] } ↔
      type.IsContained ∧ type.checkParadigm member = .ok () := by
  rw [checkParadigm_eq_ok_iff]
  constructor
  · rintro ⟨classical, paradigm⟩
    simp only [memberTypes_append, List.forall_mem_append] at classical
    refine ⟨⟨fun isClassical => (classical isClassical).1, fun struct name memberType listed => ?_⟩,
      fun isClassical memberType mentioned => ?_, fun struct name memberType same => ?_⟩
    · exact paradigm struct name memberType (List.mem_append_left _ listed)
    · exact (classical isClassical).2 memberType (by simp [mentioned])
    · exact paradigm struct name memberType (List.mem_append_right _ (by simp [same]))
  · rintro ⟨⟨classical, paradigm⟩, classicalOwn, paradigmOwn⟩
    refine ⟨fun isClassical => ?_, fun struct name memberType listed => ?_⟩
    · rw [memberTypes_append, List.forall_mem_append]
      refine ⟨classical isClassical, fun memberType own => ?_⟩
      exact classicalOwn isClassical memberType (Option.mem_toList.1 own)
    · rcases List.mem_append.1 listed with earlier | own
      · exact paradigm struct name memberType earlier
      · exact paradigmOwn struct name memberType (List.mem_singleton.1 own).symm

theorem IsContained.addMember (contained : type.IsContained)
    (added : type.addMember member = .ok next) : next.IsContained := by
  obtain ⟨-, -, -, -, paradigm, rfl⟩ := addMember_eq_ok_iff.1 added
  exact isContained_append_iff.2 ⟨contained, paradigm⟩

/-- The checks are exact: a member is accepted when the type is still as it should be with it. -/
theorem exists_addMember_iff (user : type.isBuiltin = false) (formed : type.IsFormed)
    (contained : type.IsContained) :
    (∃ next, type.addMember member = .ok next) ↔
      IsFormed { type with members := type.members ++ [member] } ∧
        IsContained { type with members := type.members ++ [member] } := by
  rw [formed.append_iff, isContained_append_iff]
  simp only [addMember_eq_ok_iff, user, contained, true_and, exists_and_left, exists_eq, and_true,
    and_assoc]

end DataType

theorem DataType.IsFormed.of_declared {type : DataType} (formed : type.declared.IsFormed) :
    type.IsFormed :=
  ⟨by simpa using formed.kinds, by simpa using formed.distinct⟩

theorem DataType.IsContained.of_declared {type : DataType} (contained : type.declared.IsContained) :
    type.IsContained :=
  ⟨by simpa [DataType.isQuantum] using contained.classical, by simpa using contained.paradigm⟩

theorem Declaration.isContained_type (declaration : Declaration) :
    declaration.type.IsContained := by
  cases declaration with
  | builtin name size qsize => exact .of_members_eq_nil rfl
  | user name kind members =>
      exact of_addMember (.of_members_eq_nil rfl) (fun _ _ _ contained => contained.addMember)
        members

/-- A member that is refused leaves no trace on the type it was offered to. -/
theorem Declaration.type_of_refused {name : Name} {kind : Container} {members : List Member}
    {member : Member} {cause : TypeError}
    (refused : (user name kind members).type.addMember member = .error cause) :
    (user name kind (members ++ [member])).type = (user name kind members).type := by
  simp only [type] at refused ⊢
  rw [List.foldl_append, List.foldl_cons, List.foldl_nil, refused]
  rfl

namespace QSize

/-- No index at all, or an exact number of them. -/
def IsExact (size : QSize) : Prop :=
  size = .empty ∨ 1 ≤ size.min ∧ size = .fixed size.min

instance (size : QSize) : Decidable size.IsExact :=
  inferInstanceAs (Decidable (size = .empty ∨ 1 ≤ size.min ∧ size = .fixed size.min))

theorem isExact_iff {size : QSize} :
    size.IsExact ↔ (size.max.getD 0).toNat = size.min.toNat ∧
      (size.max = none ↔ size.min.toNat = 0) := by
  obtain ⟨min, _ | max⟩ := size
  · simp [IsExact, empty, fixed, ← UInt32.toNat_inj, eq_comm]
  · simp only [IsExact, empty, fixed, mk.injEq, reduceCtorEq, and_false, false_or, true_and,
      Option.some.injEq, Option.getD_some, false_iff, UInt32.le_iff_toNat_le, UInt32.toNat_inj,
      UInt32.toNat_one]
    constructor
    · rintro ⟨positive, same⟩
      exact ⟨same, by omega⟩
    · rintro ⟨same, positive⟩
      exact ⟨by omega, same⟩

theorem IsExact.add? {left right sum : QSize} (leftExact : left.IsExact)
    (rightExact : right.IsExact) (added : left.add? right = some sum) : sum.IsExact := by
  obtain ⟨leftMax, leftNone⟩ := isExact_iff.1 leftExact
  obtain ⟨rightMax, rightNone⟩ := isExact_iff.1 rightExact
  obtain ⟨min, max, none⟩ := toNat_of_add? added
  rw [isExact_iff, none, leftNone, rightNone]
  omega

end QSize

/-- Where classical containers name nothing quantum, classical names lead to classical names. -/
theorem TypeTable.classical_of_reaches {table : TypeTable}
    (contained : ∀ type ∈ table.types, type.IsContained) {name other : Name}
    (classical : name.isQuantum = false) (reached : table.Reaches name other) :
    other.isQuantum = false := by
  induction reached with
  | refl => exact classical
  | tail _ refers ih =>
      obtain ⟨type, found, member⟩ := refers
      rw [← name_of_get?_eq_some found] at ih
      exact (contained type (mem_of_get?_eq_some found)).classical ih _ member

/-- Builtins need an exact number of indices, and the classical ones need none. -/
theorem TypeTable.builtins_exact : ∀ type ∈ builtins.types, ∀ size ∈ type.qsize,
    size.IsExact ∧ (type.isQuantum = false → size = .empty) := by decide

namespace TableCall

/-- What a call declares comes after what was declared before; the rest of a call adds nothing. -/
theorem declared_apply_cases {table : TypeTable} (sound : table.Sound) (call : TableCall) :
    (call.apply table).declared = table.declared ∨
      ∃ declaration, call = .add declaration ∧
        (call.apply table).declared.types = table.declared.types ++ [declaration.type] := by
  cases call with
  | add declaration =>
      rw [apply]
      split
      · rename_i next added
        refine .inr ⟨declaration, rfl, ?_⟩
        simp [TypeTable.declared, TypeTable.update, TypeTable.types_add added,
          declaration.declared_type]
      · exact .inl rfl
  | resolveQSize name => exact .inl (sound.resolveQSize name).2
  | resolveSize name => exact .inl (sound.resolveSize name).2
  | resolveAll => exact .inl sound.resolveAll.2
  | detectCycles => exact .inl rfl

/-- Every type of a table that calls lead to was there at the start or was declared by a call. -/
theorem declared_of_mem_run {start : TypeTable} (sound : start.Sound) {calls : List TableCall}
    {type : DataType} (listed : type ∈ (run start calls).declared.types) :
    type ∈ start.declared.types ∨
      ∃ declaration, .add declaration ∈ calls ∧ type = declaration.type := by
  induction calls generalizing start with
  | nil => exact .inl listed
  | cons call rest ih =>
      rcases ih (call.sound_apply sound).1 listed with earlier | ⟨declaration, later, made⟩
      · rcases declared_apply_cases sound call with same | ⟨declaration, rfl, grown⟩
        · exact .inl (same ▸ earlier)
        · rw [grown] at earlier
          rcases List.mem_append.1 earlier with before | own
          · exact .inl before
          · exact .inr ⟨declaration, List.mem_cons_self, List.mem_singleton.1 own⟩
      · exact .inr ⟨declaration, List.mem_cons_of_mem _ later, made⟩

theorem isFormed_and_isContained_of_mem_run {calls : List TableCall} {type : DataType}
    (listed : type ∈ (run .builtins calls).types) : type.IsFormed ∧ type.IsContained := by
  suffices type.declared.IsFormed ∧ type.declared.IsContained from
    ⟨.of_declared this.1, .of_declared this.2⟩
  rcases declared_of_mem_run .builtins (List.mem_map_of_mem listed) with start | ⟨_, -, made⟩
  · obtain ⟨builtin, inside, same⟩ := List.mem_map.1 start
    have bare : ∀ type ∈ TypeTable.builtins.types, type.members = [] := by decide
    have none : type.declared.members = [] := by
      rw [← same, DataType.declared_members]
      exact bare builtin inside
    exact ⟨.of_members_eq_nil none, .of_members_eq_nil none⟩
  · rw [made]
    exact ⟨Declaration.isFormed_type _, Declaration.isContained_type _⟩

/-- Calls that declare user types only add no builtin. -/
theorem mem_builtins_of_mem_run {calls : List TableCall} {type : DataType}
    (users : ∀ declaration, .add declaration ∈ calls →
      ∃ name kind members, declaration = .user name kind members)
    (listed : type ∈ (run .builtins calls).types) (isBuiltin : type.isBuiltin = true) :
    type ∈ TypeTable.builtins.types := by
  have kept : type.declared = type := by rw [DataType.declared, if_pos isBuiltin]
  rcases declared_of_mem_run .builtins (List.mem_map_of_mem listed) with start | ⟨_, added, made⟩
  · obtain ⟨builtin, inside, same⟩ := List.mem_map.1 start
    have original : ∀ type ∈ TypeTable.builtins.types, type.declared = type := by decide
    rw [← kept, ← same, original builtin inside]
    exact inside
  · obtain ⟨name, kind, members, rfl⟩ := users _ added
    rw [← type.declared_isBuiltin, made, (Declaration.isBlank_user name kind members).user]
      at isBuiltin
    cases isBuiltin

/--
On a table of builtins and user types, however declared and in whatever order, a
name without the quantum sigil resolves to no index at all, and every other one to
none or to an exact number.  What makes it so is that each member was checked when
it was offered: the types hold members of the right kind under distinct names, a
single type holds at most one, nothing quantum stands in a classical container and
struct members are named after the paradigm of their types.  A member is accepted
exactly when the type is still of this form with it, and one that is refused leaves
the type as it was.
-/
theorem sizes_follow_paradigm {calls : List TableCall} {table : TypeTable}
    (users : ∀ declaration, .add declaration ∈ calls →
      ∃ name kind members, declaration = .user name kind members)
    (reached : run .builtins calls = table) :
    (∀ name size, (table.resolveQSize name).1 = .ok size →
        (name.isQuantum = false → size = .empty) ∧
          (size = .empty ∨ ∃ count, 1 ≤ count ∧ size = .fixed count)) ∧
      (∀ type ∈ table.types,
        (∀ member ∈ type.members, member.kind = type.kind.memberKind) ∧
          (type.members.map Member.name?).Nodup ∧
          (type.kind = .single → type.members.length ≤ 1) ∧
          (type.isQuantum = false → ∀ memberType ∈ type.memberTypes,
            memberType.isQuantum = false) ∧
          (type.kind = .struct → ∀ name memberType, .typed name memberType ∈ type.members →
            isQuantumLeaf name = memberType.isQuantum)) ∧
      ∀ (name : Name) (kind : Container) (members : List Member) (member : Member)
        (type : DataType), (Declaration.user name kind members).type = type →
          (∀ cause, type.addMember member = .error cause →
            (Declaration.user name kind (members ++ [member])).type = type) ∧
          ((∃ next, type.addMember member = .ok next) ↔
            DataType.IsFormed { type with members := type.members ++ [member] } ∧
              DataType.IsContained { type with members := type.members ++ [member] }) := by
  subst reached
  have checked : ∀ type ∈ (run .builtins calls).types, type.IsFormed ∧ type.IsContained :=
    fun _ => isFormed_and_isContained_of_mem_run
  have sound := sound_of_run_new (.inr rfl) (rfl : run .builtins calls = _)
  refine ⟨fun name size done => ⟨fun classical => ?_, ?_⟩, fun type listed => ?_, ?_⟩
  · refine TypeTable.closed_of_resolveQSize sound (· = .empty) rfl ?_ ?_ done
    · rintro _ _ _ rfl rfl ⟨⟩
      rfl
    · rintro part ⟨other, type, reached, found, isBuiltin, known⟩
      have listed := TypeTable.mem_of_get?_eq_some found
      have exact := TypeTable.builtins_exact type (mem_builtins_of_mem_run users listed isBuiltin)
        part known
      refine exact.2 ?_
      rw [DataType.isQuantum, TypeTable.name_of_get?_eq_some found]
      exact TypeTable.classical_of_reaches (fun type listed => (checked type listed).2) classical
        reached
  · have exact : size.IsExact := by
      refine TypeTable.closed_of_resolveQSize sound QSize.IsExact (.inl rfl)
        (fun _ _ _ left right added => left.add? right added) ?_ done
      rintro part ⟨other, type, -, found, isBuiltin, known⟩
      have listed := TypeTable.mem_of_get?_eq_some found
      exact (TypeTable.builtins_exact type (mem_builtins_of_mem_run users listed isBuiltin)
        part known).1
    rcases exact with none | ⟨positive, same⟩
    · exact .inl none
    · exact .inr ⟨size.min, positive, same⟩
  · obtain ⟨formed, contained⟩ := checked type listed
    exact ⟨formed.kinds, formed.distinct, formed.length_le_one, contained.classical,
      contained.paradigm⟩
  · rintro name kind members member type rfl
    exact ⟨fun _ => Declaration.type_of_refused,
      DataType.exists_addMember_iff (Declaration.isBlank_user name kind members).user
        (Declaration.isFormed_type _) (Declaration.isContained_type _)⟩

/-- The members offered to a label: a text, and a cell that no classical type may hold. -/
def labelMembers : List Member :=
  [.typed "text" (.ofLeaf "str"), .typed "@cell" (.ofLeaf "@cell")]

/-- A tagged cell, a label that refuses a member, and last the cell that both of them name. -/
def cellCalls : List TableCall :=
  [.add (.user (.ofLeaf "@tagged") .struct
      [.typed "@cell" (.ofLeaf "@cell"), .typed "label" (.ofLeaf "label")]),
    .add (.user (.ofLeaf "label") .struct labelMembers),
    .add (.user (.ofLeaf "@cell") .single [.single (.ofLeaf "@u2")])]

/-- The label stays free of indices; the tagged cell needs those of the cell declared last. -/
theorem sizes_follow_paradigm_cell :
    ((run .builtins cellCalls).resolveQSize (.ofLeaf "label")).1 = .ok .empty ∧
      QSize.empty = .empty ∧
      ((run .builtins cellCalls).resolveQSize (.ofLeaf "@tagged")).1 = .ok (.fixed 2) ∧
      (QSize.fixed 2 = .empty ∨ ∃ count, 1 ≤ count ∧ QSize.fixed 2 = .fixed count) ∧
      (Declaration.user (.ofLeaf "label") .struct labelMembers).type =
        (Declaration.user (.ofLeaf "label") .struct [.typed "text" (.ofLeaf "str")]).type := by
  have users : ∀ declaration, .add declaration ∈ cellCalls →
      ∃ name kind members, declaration = .user name kind members := by
    intro declaration listed
    simp only [cellCalls, List.mem_cons, add.injEq, List.not_mem_nil, or_false] at listed
    rcases listed with rfl | rfl | rfl <;> exact ⟨_, _, _, rfl⟩
  have sound := sound_of_run_new (.inr rfl) (rfl : run .builtins cellCalls = _)
  have text : TypeTable.Sized .indices (run .builtins cellCalls).declared (.ofLeaf "label")
      .empty := .sum rfl rfl rfl rfl (.cons (.own rfl rfl) rfl (.nil _))
  have cell : TypeTable.Sized .indices (run .builtins cellCalls).declared (.ofLeaf "@cell")
      (.fixed 2) := .sum rfl rfl rfl rfl (.cons (.own rfl rfl) rfl (.nil _))
  have label := sound.resolveQSize_eq_ok_iff.2 text
  have tagged : ((run .builtins cellCalls).resolveQSize (.ofLeaf "@tagged")).1 = .ok (.fixed 2) :=
    sound.resolveQSize_eq_ok_iff.2
      (.sum rfl rfl rfl rfl (.cons cell rfl (.cons text rfl (.nil _))))
  obtain ⟨sizes, -, offers⟩ := sizes_follow_paradigm users rfl
  have refused := (offers (.ofLeaf "label") .struct [.typed "text" (.ofLeaf "str")]
    (.typed "@cell" (.ofLeaf "@cell")) _ rfl).1
      (.quantumOnClassical (.ofLeaf "label") (.ofLeaf "@cell")) (by rfl)
  exact ⟨label, (sizes _ _ label).1 (by decide), tagged, (sizes _ _ tagged).2, refused⟩

end TableCall

end HybridQuantum
