import HybridQuantum.Proofs.Memory.WellTyped

/-!
# Assignment by name and by position agree

The members of a struct have distinct names, so values that are given by name
belong to one position each.  Given in whatever order, they are stored as the same
values given by position are, and each member is read back as its value.  Values
under other names than those of the members are refused.
-/

namespace HybridQuantum

theorem Slot.exists_takes_iff {slots : List Slot} {values : List Literal} :
    (∃ data, List.Forall₂ Slot.Takes slots data ∧ data.map Prod.snd = values) ↔
      List.Forall₂ (fun slot value => slot.type = some value.type) slots values := by
  constructor
  · rintro ⟨data, filled, rfl⟩
    rw [List.forall₂_map_right_iff]
    exact filled.imp fun slot entry taken => taken.type
  · intro matched
    induction matched with
    | nil => exact ⟨[], .nil, rfl⟩
    | @cons slot value slots values own _ ih =>
        obtain ⟨data, filled, same⟩ := ih
        exact ⟨(slot.name, value) :: data, .cons ⟨rfl, own⟩ filled, by rw [List.map_cons, same]⟩

namespace DataType

variable {type : DataType}

/-- The names of the members, in order. -/
def memberNames (type : DataType) : List String :=
  type.members.filterMap Member.name?

/-- Every member of a struct has a name. -/
theorem IsFormed.map_some_memberNames (formed : type.IsFormed) (struct : type.kind = .struct) :
    type.memberNames.map some = type.members.map Member.name? := by
  have named (member : Member) (listed : member ∈ type.members) : member.name? ≠ none :=
    formed.name?_ne_none (by simp [struct]) listed
  unfold memberNames
  generalize type.members = members at named
  induction members with
  | nil => rfl
  | cons member rest ih =>
      have ⟨first, later⟩ := List.forall_mem_cons.1 named
      obtain ⟨name, own⟩ := Option.ne_none_iff_exists'.1 first
      rw [List.filterMap_cons_some own, List.map_cons, List.map_cons, own, ih later]

theorem IsFormed.length_memberNames (formed : type.IsFormed) (struct : type.kind = .struct) :
    type.memberNames.length = type.members.length := by
  simpa using congrArg List.length (formed.map_some_memberNames struct)

theorem IsFormed.nodup_memberNames (formed : type.IsFormed) (struct : type.kind = .struct) :
    type.memberNames.Nodup := by
  have distinct := formed.distinct
  rw [← formed.map_some_memberNames struct] at distinct
  exact distinct.of_map some

theorem layout_of_ne_nil (members : type.members ≠ []) :
    Slot.layout type = type.members.map Slot.ofMember := by
  rw [Slot.layout, if_neg (by simpa using members)]

end DataType

namespace Variable

variable {holder next : Variable} {type : DataType} {names : List String}
  {values : List Literal} {pairs : List (String × Literal)} {data : List (Option String × Literal)}

/-- Entries under distinct names are determined by their values. -/
theorem perm_namedEntry_iff (distinct : names.Nodup) (count : values.length = names.length)
    (perm : pairs.Perm (names.zip values)) (own : data.map Prod.fst = names.map some) :
    data.Perm (pairs.map namedEntry) ↔ data.map Prod.snd = values := by
  have keys : ((names.zip values).map namedEntry).map Prod.fst = names.map some := by
    rw [map_fst_namedEntry, List.map_fst_zip count.ge]
  have contents : ((names.zip values).map namedEntry).map Prod.snd = values := by
    rw [List.map_map]
    exact List.map_snd_zip count.le
  constructor
  · intro reordered
    have same : data = (names.zip values).map namedEntry := by
      refine eq_of_perm_of_map_eq (reordered.trans (perm.map namedEntry)) (own.trans keys.symm) ?_
      rw [own]
      exact distinct.map (Option.some_injective _)
    rw [same, contents]
  · intro same
    rw [(List.zip_of_prod own same).trans (List.zip_of_prod keys contents).symm]
    exact (perm.map namedEntry).symm

/-- An entry is read back under its name, when no other has that name. -/
theorem get_of_mem (distinct : (holder.data.map Prod.fst).Nodup) {member : String}
    {value : Literal} (listed : (some member, value) ∈ holder.data) :
    holder.get (some member) = .ok value := by
  have found := (find?_eq_some_iff_of_nodup distinct).2 ⟨listed, rfl⟩
  simp only [get, found]

namespace IsOf

theorem slots_eq_map (made : holder.IsOf type) (members : type.members ≠ []) :
    holder.slots = type.members.map Slot.ofMember := by
  rw [made.slots, DataType.layout_of_ne_nil members]

theorem map_name_slots (made : holder.IsOf type) (formed : type.IsFormed)
    (struct : type.kind = .struct) (members : type.members ≠ []) :
    holder.slots.map Slot.name = type.memberNames.map some := by
  rw [made.slots_eq_map members, List.map_map, formed.map_some_memberNames struct]
  rfl

/-- By position a struct takes one value of its type for each member. -/
theorem exists_assign_iff (made : holder.IsOf type) (struct : type.kind = .struct)
    (members : type.members ≠ []) :
    (∃ next, holder.assign values = .ok next) ↔
      holder.checkWritable = .ok () ∧
        List.Forall₂ (fun member value => member.type? = some value.type) type.members values := by
  have typed : List.Forall₂ (fun slot value => slot.type = some value.type) holder.slots values ↔
      List.Forall₂ (fun member value => member.type? = some value.type) type.members values := by
    rw [made.slots_eq_map members, List.forall₂_map_left_iff]
    rfl
  rw [← typed, ← Slot.exists_takes_iff]
  simp only [assign_eq_ok_iff, lay_eq_ok_iff_filled (made.sequential (.inr struct))]
  constructor
  · rintro ⟨next, writable, data, filled, -⟩
    exact ⟨writable, data, filled⟩
  · rintro ⟨writable, data, filled⟩
    exact ⟨_, writable, data, filled, rfl⟩

/-- What an assignment by position stores goes under the names of the members. -/
theorem names_and_values_of_assign (made : holder.IsOf type) (formed : type.IsFormed)
    (struct : type.kind = .struct) (members : type.members ≠ [])
    (done : holder.assign values = .ok next) :
    next.data.map Prod.fst = type.memberNames.map some ∧ next.data.map Prod.snd = values := by
  obtain ⟨-, data, laid, rfl⟩ := assign_eq_ok_iff.1 done
  obtain ⟨filled, same⟩ := (lay_eq_ok_iff_filled (made.sequential (.inr struct))).1 laid
  have own := ((Slot.forall₂_takes_iff (made.nodup_slots formed)).1 filled).1
  exact ⟨own.trans (made.map_name_slots formed struct members), same⟩

theorem assignNamed_eq_ok_iff_assign (made : holder.IsOf type) (formed : type.IsFormed)
    (struct : type.kind = .struct) (members : type.members ≠ [])
    (count : values.length = type.memberNames.length)
    (perm : pairs.Perm (type.memberNames.zip values)) :
    holder.assignNamed pairs = .ok next ↔ holder.assign values = .ok next := by
  have distinct := made.nodup_slots formed
  have sequential := made.sequential (.inr struct)
  have names := made.map_name_slots formed struct members
  rw [assignNamed_eq_ok_iff_perm distinct sequential, assign_eq_ok_iff]
  simp only [lay_eq_ok_iff_filled sequential, and_assoc]
  refine and_congr_right fun _ => exists_congr fun data => and_congr_right fun filled => ?_
  have own := ((Slot.forall₂_takes_iff distinct).1 filled).1.trans names
  rw [perm_namedEntry_iff (formed.nodup_memberNames struct) count perm own]

/-- What goes through by name is given under the names of the members, once each. -/
theorem perm_memberNames_of_assignNamed (made : holder.IsOf type) (formed : type.IsFormed)
    (struct : type.kind = .struct) (members : type.members ≠ [])
    (done : holder.assignNamed pairs = .ok next) :
    (pairs.map Prod.fst).Perm type.memberNames := by
  have distinct := made.nodup_slots formed
  obtain ⟨-, data, filled, perm, -⟩ :=
    (assignNamed_eq_ok_iff_perm distinct (made.sequential (.inr struct))).1 done
  have own := ((Slot.forall₂_takes_iff distinct).1 filled).1
  have renamed := perm.symm.map Prod.fst
  rw [map_fst_namedEntry, own, made.map_name_slots formed struct members] at renamed
  exact (List.map_perm_map_iff (Option.some_injective _)).1 renamed

end IsOf

end Variable

namespace Assignment

/--
A struct variable, in whatever state, takes values by name in any order exactly
when it takes the same values by position, which is when each has the type of its
member, and the variable is the same afterwards; each member is then read back as
its value.  Values under other names than those of the members, or under one
of them twice, are refused.
-/
theorem named_agrees_with_positional {declaration : Declaration} {name : Name}
    {mutability : Mutability} {fresh holder : Variable} {calls : List Assignment}
    (struct : declaration.type.kind = .struct) (members : declaration.type.members ≠ [])
    (made : Variable.new name declaration.type mutability = .ok fresh)
    (reached : (run fresh calls).2 = holder) :
    let names := declaration.type.members.filterMap Member.name?
    (∀ values pairs, values.length = declaration.type.members.length →
        pairs.Perm (names.zip values) →
        (∀ next, holder.assignNamed pairs = .ok next ↔ holder.assign values = .ok next) ∧
          ((∃ next, holder.assign values = .ok next) ↔
            holder.checkWritable = .ok () ∧
              List.Forall₂ (fun member value => member.type? = some value.type)
                declaration.type.members values) ∧
          ∀ next, holder.assign values = .ok next → ∀ member value,
            (member, value) ∈ names.zip values → next.get (some member) = .ok value) ∧
      ∀ pairs, ¬ (pairs.map Prod.fst).Perm names →
        ∃ cause, holder.assignNamed pairs = .error cause := by
  intro names
  have formed := declaration.isFormed_type
  have typed := isTyped_run formed (Variable.IsTyped.new made).1 calls
  rw [reached] at typed
  have made := typed.toIsOf
  refine ⟨fun values pairs count perm => ?_, fun pairs other => ?_⟩
  · have count : values.length = declaration.type.memberNames.length := by
      rw [count, formed.length_memberNames struct]
    refine ⟨fun next => made.assignNamed_eq_ok_iff_assign formed struct members count perm,
      made.exists_assign_iff struct members, fun next done member value listed => ?_⟩
    obtain ⟨own, same⟩ := made.names_and_values_of_assign formed struct members done
    apply Variable.get_of_mem
    · rw [own]
      exact (formed.nodup_memberNames struct).map (Option.some_injective _)
    · rw [List.zip_of_prod own same, List.zip_map_left]
      exact List.mem_map.2 ⟨_, listed, rfl⟩
  · cases outcome : holder.assignNamed pairs with
    | error cause => exact ⟨cause, rfl⟩
    | ok next =>
        exact absurd (made.perm_memberNames_of_assignNamed formed struct members outcome) other

/-- Swapped values by name make the same variable; one name twice is refused. -/
theorem named_agrees_with_positional_swapped :
    samplePair.type.kind = .struct ∧ samplePair.type.members ≠ [] ∧
      Variable.new (.ofLeaf "x") samplePair.type .immutable = .ok sampleVariable ∧
      ∃ next,
        sampleVariable.assignNamed [("high", sampleNumber 2 "u16"), ("low", sampleNumber 1 "u8")] =
            .ok next ∧
          sampleVariable.assign [sampleNumber 1 "u8", sampleNumber 2 "u16"] = .ok next ∧
          next.get (some "high") = .ok (sampleNumber 2 "u16") ∧
          ∃ cause, sampleVariable.assignNamed
            [("low", sampleNumber 1 "u8"), ("low", sampleNumber 1 "u8")] = .error cause := by
  have struct : samplePair.type.kind = .struct := by cbv
  have members : samplePair.type.members ≠ [] := by decide
  have made : Variable.new (.ofLeaf "x") samplePair.type .immutable = .ok sampleVariable := by cbv
  have names : samplePair.type.members.filterMap Member.name? = ["low", "high"] := by cbv
  obtain ⟨agrees, refuses⟩ := @named_agrees_with_positional _ _ _ _ sampleVariable [] struct members
    made rfl
  rw [names] at agrees refuses
  obtain ⟨same, -, reads⟩ := agrees [sampleNumber 1 "u8", sampleNumber 2 "u16"]
    [("high", sampleNumber 2 "u16"), ("low", sampleNumber 1 "u8")] (by cbv) (.swap _ _ _)
  have done : ∃ next, sampleVariable.assign [sampleNumber 1 "u8", sampleNumber 2 "u16"] =
      .ok next := ⟨_, by cbv⟩
  obtain ⟨next, done⟩ := done
  refine ⟨struct, members, made, next, (same next).2 done, done, ?_, refuses _ (by decide)⟩
  exact reads next done "high" _ (by simp)

end Assignment

end HybridQuantum
