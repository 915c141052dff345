import HybridQuantum.Proofs.Types.History

/-!
# What checked members guarantee

Each member of a type passed the checks of its container when it was added.  So
the members of a declared type are all of the kind its container accepts, and no
two of them have one name; of a single type there is at most one.
-/

namespace HybridQuantum

/-- Only single members have no name. -/
theorem Member.name?_eq_none_iff {member : Member} :
    member.name? = none ↔ member.kind = .single := by
  cases member <;> simp [name?, kind]

theorem Container.memberKind_eq_single_iff {container : Container} :
    container.memberKind = .single ↔ container = .single := by
  cases container <;> simp [memberKind]

namespace DataType

/-- Adding a member goes through exactly when every check does. -/
theorem addMember_eq_ok_iff {type next : DataType} {member : Member} :
    type.addMember member = .ok next ↔
      type.isBuiltin = false ∧ type.checkKind member = .ok () ∧ type.checkVacant = .ok () ∧
        type.checkFresh member = .ok () ∧ type.checkParadigm member = .ok () ∧
        next = { type with members := type.members ++ [member] } := by
  constructor
  · intro added
    unfold addMember at added
    split at added
    · cases added
    · rename_i user
      rw [ok_bind] at added
      obtain ⟨⟨⟩, kind, added⟩ := exists_of_bind_eq_ok added
      obtain ⟨⟨⟩, vacant, added⟩ := exists_of_bind_eq_ok added
      obtain ⟨⟨⟩, fresh, added⟩ := exists_of_bind_eq_ok added
      obtain ⟨⟨⟩, paradigm, added⟩ := exists_of_bind_eq_ok added
      cases added
      exact ⟨eq_false_of_ne_true user, kind, vacant, fresh, paradigm, rfl⟩
  · rintro ⟨builtin, kind, vacant, fresh, paradigm, rfl⟩
    simp only [addMember, builtin, kind, vacant, fresh, paradigm, Bool.false_eq_true, if_false,
      ok_bind]
    rfl

theorem checkKind_eq_ok_iff {type : DataType} {member : Member} :
    type.checkKind member = .ok () ↔ member.kind = type.kind.memberKind := by
  unfold checkKind
  split <;> simp [*]

theorem checkVacant_eq_ok_iff {type : DataType} :
    type.checkVacant = .ok () ↔ (type.kind = .single → type.members = []) := by
  unfold checkVacant
  split
  · rename_i taken
    simp [taken.1, taken.2]
  · rename_i vacant
    simpa using vacant

theorem checkFresh_eq_ok_iff {type : DataType} {member : Member} :
    type.checkFresh member = .ok () ↔
      ∀ name, member.name? = some name → ∀ other ∈ type.members, other.name? ≠ some name := by
  unfold checkFresh member?
  cases named : member.name? with
  | none => simp
  | some name =>
      have absent : (type.members.find? fun other => other.name? == some name) = none ↔
          ∀ other ∈ type.members, other.name? ≠ some name := by
        simp
      simp only [Option.some.injEq, forall_eq', ← absent]
      split
      · rename_i taken
        simp only [reduceCtorEq, false_iff]
        exact fun none => by simp [none] at taken
      · rename_i free
        simpa using free

/-- Members of the kind that the container accepts, no two of one name. -/
structure IsFormed (type : DataType) : Prop where
  kinds : ∀ member ∈ type.members, member.kind = type.kind.memberKind
  distinct : (type.members.map Member.name?).Nodup

namespace IsFormed

variable {type next : DataType}

theorem of_members_eq_nil (none : type.members = []) : type.IsFormed := by
  constructor <;> simp [none]

/-- Outside single types every member has a name. -/
theorem name?_ne_none (formed : type.IsFormed) (many : type.kind ≠ .single) {member : Member}
    (listed : member ∈ type.members) : member.name? ≠ none := by
  rwa [ne_eq, Member.name?_eq_none_iff, formed.kinds member listed,
    Container.memberKind_eq_single_iff]

/-- A formed type stays so exactly with the members that pass the checks of kind, room and name. -/
theorem append_iff {member : Member} (formed : type.IsFormed) :
    IsFormed { type with members := type.members ++ [member] } ↔
      type.checkKind member = .ok () ∧ type.checkVacant = .ok () ∧
        type.checkFresh member = .ok () := by
  have distinct : ((type.members ++ [member]).map Member.name?).Nodup ↔
      ∀ other ∈ type.members, other.name? ≠ member.name? := by
    rw [List.map_append, List.map_singleton, List.nodup_append_comm, List.singleton_append,
      List.nodup_cons, and_iff_left formed.distinct, List.mem_map]
    simp
  rw [checkKind_eq_ok_iff, checkVacant_eq_ok_iff, checkFresh_eq_ok_iff]
  constructor
  · rintro ⟨kinds, names⟩
    have own := kinds member (List.mem_append_right _ (List.mem_singleton_self member))
    have others := distinct.1 names
    refine ⟨own, fun single => ?_, fun name named other listed => named ▸ others other listed⟩
    have unnamed (other : Member) (fits : other.kind = type.kind.memberKind) :
        other.name? = none := by
      rwa [Member.name?_eq_none_iff, fits, Container.memberKind_eq_single_iff]
    refine List.eq_nil_iff_forall_not_mem.2 fun other listed => others other listed ?_
    rw [unnamed other (formed.kinds other listed), unnamed member own]
  · rintro ⟨kind, vacant, fresh⟩
    refine ⟨fun other listed => ?_, distinct.2 fun other listed same => ?_⟩
    · rcases List.mem_append.1 listed with earlier | own
      · exact formed.kinds other earlier
      · rw [List.mem_singleton.1 own]
        exact kind
    · cases named : member.name? with
      | some name => exact fresh name named other listed (same.trans named)
      | none =>
          have single : type.kind = .single := by
            rwa [← Container.memberKind_eq_single_iff, ← kind, ← Member.name?_eq_none_iff]
          rw [vacant single] at listed
          cases listed

theorem addMember {member : Member} (formed : type.IsFormed)
    (added : type.addMember member = .ok next) : next.IsFormed := by
  obtain ⟨-, kind, vacant, fresh, -, rfl⟩ := addMember_eq_ok_iff.1 added
  exact formed.append_iff.2 ⟨kind, vacant, fresh⟩

/-- A single type has at most one member. -/
theorem length_le_one (formed : type.IsFormed) (single : type.kind = .single) :
    type.members.length ≤ 1 := by
  have unnamed : ∀ member ∈ type.members, member.name? = none := by
    intro member listed
    rw [Member.name?_eq_none_iff, formed.kinds member listed, single]
    rfl
  have distinct := formed.distinct
  rw [List.map_congr_left unnamed, List.map_const'] at distinct
  exact List.nodup_replicate.1 distinct

end IsFormed

end DataType

/-- What a new container has and every accepted member keeps, a declared user type has. -/
theorem Declaration.of_addMember {holds : DataType → Prop} {name : Name} {kind : Container}
    (new : holds (.new name kind))
    (add : ∀ type member next, holds type → type.addMember member = .ok next → holds next)
    (members : List Member) : holds (user name kind members).type := by
  rw [type]
  generalize DataType.new name kind = type at new
  induction members generalizing type with
  | nil => exact new
  | cons member rest ih =>
      rw [List.foldl_cons]
      refine ih _ ?_
      cases added : type.addMember member with
      | error cause => exact new
      | ok next => exact add type member next new added

theorem Declaration.isFormed_type (declaration : Declaration) : declaration.type.IsFormed := by
  cases declaration with
  | builtin name size qsize => exact .of_members_eq_nil rfl
  | user name kind members =>
      exact of_addMember (.of_members_eq_nil rfl) (fun _ _ _ formed => formed.addMember) members

end HybridQuantum
