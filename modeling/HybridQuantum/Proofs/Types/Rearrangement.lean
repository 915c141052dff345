import HybridQuantum.Proofs.Types.Completion
import HybridQuantum.Proofs.Types.Sums
import Mathlib.Data.Multiset.ZeroCons

/-!
# The order of declarations and members

Tables that declare the same types, in another order and with their members in
another order, find the same sizes.  A size is a checked sum, and such a sum may be
taken in any order, its overflow included; a whole table resolves exactly when it is
well formed, and no order matters for that.  This needs records that agree with the
declarations: where a type brings its quantum size from another table, and a bit
width is still to be summed, the order of members decides which error comes first.
-/

namespace HybridQuantum

/-- The same type with its members in another order. -/
def DataType.Reordered (type other : DataType) : Prop :=
  ∃ members, type.members.Perm members ∧ other = { type with members }

/-- A measure of types that the order of their members has no part in. -/
structure Measure.IsOrderFree {σ : Type} (measure : Measure σ) : Prop where
  recorded : ∀ type members, measure.recorded { type with members } = measure.recorded type
  refusal : ∀ type members, measure.refusal { type with members } = measure.refusal type
  exchange : ∀ total first second,
    (measure.add? total first).bind (measure.add? · second) =
      (measure.add? total second).bind (measure.add? · first)

namespace Measure

theorem isOrderFree_indices : indices.IsOrderFree where
  recorded _ _ := rfl
  refusal _ _ := rfl
  exchange := QSize.add?_exchange

theorem isOrderFree_bits : bits.IsOrderFree where
  recorded _ _ := rfl
  refusal _ _ := rfl
  exchange := Word.add32?_exchange

end Measure

theorem DataType.Reordered.symm {type other : DataType} (same : type.Reordered other) :
    other.Reordered type := by
  obtain ⟨members, sameMembers, rfl⟩ := same
  exact ⟨type.members, sameMembers.symm, rfl⟩

namespace TypeTable

variable {left right : TypeTable}

/-- The same types, in another order and with their members in another order. -/
def Rearranges (left right : TypeTable) : Prop :=
  Multiset.Rel DataType.Reordered left.types right.types

namespace Rearranges

theorem symm (same : left.Rearranges right) : right.Rearranges left :=
  Multiset.rel_flip.1 (same.mono fun _ _ _ _ reordered => reordered.symm)

theorem exists_get? (same : left.Rearranges right) {name : Name} {type : DataType}
    (found : left.get? name = some type) :
    ∃ members, type.members.Perm members ∧ right.get? name = some { type with members } := by
  obtain ⟨other, listed, members, sameMembers, rfl⟩ :=
    Multiset.exists_mem_of_rel_of_mem same (Multiset.mem_coe.2 (mem_of_get?_eq_some found))
  refine ⟨members, sameMembers, ?_⟩
  rw [← name_of_get?_eq_some found]
  exact get?_eq_some_of_mem (Multiset.mem_coe.1 listed)

theorem contains (same : left.Rearranges right) {name : Name}
    (declared : left.contains name = true) : right.contains name = true := by
  obtain ⟨type, found⟩ := Option.isSome_iff_exists.1 declared
  obtain ⟨members, -, foundRight⟩ := same.exists_get? found
  exact Option.isSome_of_eq_some foundRight

theorem refers (same : left.Rearranges right) {name other : Name}
    (refers : left.Refers name other) : right.Refers name other := by
  obtain ⟨type, found, member⟩ := refers
  obtain ⟨members, sameMembers, foundRight⟩ := same.exists_get? found
  exact ⟨_, foundRight, (sameMembers.filterMap Member.type?).subset member⟩

theorem allowsPayload (same : left.Rearranges right) {payload : Name}
    (allowed : left.AllowsPayload payload) : right.AllowsPayload payload := by
  obtain ⟨type, found, kind⟩ := allowed
  obtain ⟨members, -, foundRight⟩ := same.exists_get? found
  exact ⟨_, foundRight, kind⟩

theorem isWellFormed (same : left.Rearranges right) (formed : left.IsWellFormed) :
    right.IsWellFormed := by
  have origin (type : DataType) (listed : type ∈ right.types) :
      ∃ members, type.members.Perm members ∧ { type with members } ∈ left.types := by
    obtain ⟨members, sameMembers, found⟩ := same.symm.exists_get? (get?_eq_some_of_mem listed)
    exact ⟨members, sameMembers, mem_of_get?_eq_some found⟩
  constructor
  · intro type listed other member
    obtain ⟨members, sameMembers, listedLeft⟩ := origin type listed
    exact same.contains (formed.declared _ listedLeft other
      ((sameMembers.filterMap Member.type?).subset member))
  · intro name declared cycle
    have declaredLeft := contains_iff.1 (same.symm.contains (contains_iff.2 declared))
    exact formed.acyclic name declaredLeft
      (Relation.TransGen.mono (fun _ _ => same.symm.refers) name name cycle)
  · intro type listed tag payload member
    obtain ⟨members, sameMembers, listedLeft⟩ := origin type listed
    exact same.allowsPayload (formed.payloads _ listedLeft tag payload (sameMembers.subset member))

end Rearranges

section Derivations

variable {σ : Type} {measure : Measure σ} {table : TypeTable}

theorem SizedAll.of_parts {names : List Name} {parts : List σ} {total result : σ}
    (sized : List.Forall₂ (Sized measure table) names parts)
    (summed : parts.foldlM measure.add? total = some result) :
    SizedAll measure table total names result := by
  induction sized generalizing total with
  | nil =>
      cases summed
      exact .nil _
  | cons first _ ih =>
      rw [List.foldlM_cons] at summed
      obtain ⟨next, added, others⟩ := Option.bind_eq_some_iff.1 summed
      exact .cons first added (ih others)

/-- Names may be summed in any order. -/
theorem SizedAll.of_perm (free : measure.IsOrderFree) {names others : List Name} {total result : σ}
    (same : names.Perm others) (summed : SizedAll measure table total names result) :
    SizedAll measure table total others result := by
  obtain ⟨parts, sized, folded⟩ := summed.exists_parts
  obtain ⟨partsOthers, sizedOthers, sameParts⟩ := List.perm_comp_forall₂ same.symm sized
  refine .of_parts sizedOthers ?_
  rw [foldlM_eq_of_perm free.exchange sameParts, folded]

theorem Rearranges.dependencies_eq (same : left.Rearranges right) {type : DataType}
    {memberTypes : List Name} {members : List Member} (sameMembers : type.members.Perm members)
    (refers : left.dependencies type = .ok memberTypes) :
    right.dependencies { type with members } = .ok (members.filterMap Member.type?) := by
  obtain ⟨-, allows⟩ := dependencies_eq_ok_iff.1 refers
  exact dependencies_eq_ok_iff.2 ⟨rfl, fun tag payload member =>
    same.allowsPayload (allows tag payload (sameMembers.symm.subset member))⟩

mutual

/-- A derivation carries over to a rearranged table. -/
theorem Sized.rearranged (free : measure.IsOrderFree) (same : left.Rearranges right) {name : Name}
    {value : σ} : Sized measure left name value → Sized measure right name value
  | .own found known => by
      obtain ⟨members, -, foundRight⟩ := same.exists_get? found
      exact .own foundRight ((free.recorded _ members).trans known)
  | .sum found unknown allowed refers summed => by
      obtain ⟨members, sameMembers, foundRight⟩ := same.exists_get? found
      have carried := summed.rearranged free same
      rw [memberTypes_of_dependencies_eq_ok refers] at carried
      exact .sum foundRight ((free.recorded _ members).trans unknown)
        ((free.refusal _ members).trans allowed) (same.dependencies_eq sameMembers refers)
        (carried.of_perm free (sameMembers.filterMap Member.type?))

theorem SizedAll.rearranged (free : measure.IsOrderFree) (same : left.Rearranges right)
    {total result : σ} {names : List Name} :
    SizedAll measure left total names result → SizedAll measure right total names result
  | .nil total => .nil total
  | .cons first added others =>
      .cons (first.rearranged free same) added (others.rearranged free same)

end

theorem Rearranges.sized_iff (same : left.Rearranges right) (free : measure.IsOrderFree)
    {name : Name} {value : σ} : Sized measure left name value ↔ Sized measure right name value :=
  ⟨.rearranged free same, .rearranged free same.symm⟩

end Derivations

section Sizes

/-- Sizes are found for the same names, with the same values. -/
def SameSizes (left right : TypeTable) : Prop :=
  ∀ name,
    (∀ size, (left.resolveQSize name).1 = .ok size ↔ (right.resolveQSize name).1 = .ok size) ∧
      ∀ bits, (left.resolveSize name).1 = .ok bits ↔ (right.resolveSize name).1 = .ok bits

theorem Rearranges.sameSizes (same : left.Rearranges right) : left.SameSizes right := by
  intro name
  simp only [resolveQSize_eq_ok_iff, resolveSize_eq_ok_iff]
  exact ⟨fun _ => same.sized_iff Measure.isOrderFree_indices,
    fun _ => same.sized_iff Measure.isOrderFree_bits⟩

namespace Sound

/-- Sizes do not depend on what a sound table has on record. -/
theorem sameSizes_of_declared (sound : left.Sound) (soundRight : right.Sound)
    (same : left.declared.Rearranges right.declared) : left.SameSizes right := by
  intro name
  simp only [sound.resolveQSize_eq_ok_iff, soundRight.resolveQSize_eq_ok_iff,
    sound.resolveSize_eq_ok_iff, soundRight.resolveSize_eq_ok_iff]
  exact ⟨fun _ => same.sized_iff Measure.isOrderFree_indices,
    fun _ => same.sized_iff Measure.isOrderFree_bits⟩

/-- Being well formed carries over; the sums do not, since an unsized member may hide a large one. -/
theorem resolveAll_of_declared (sound : left.Sound) (soundRight : right.Sound)
    (same : left.declared.Rearranges right.declared) (done : left.resolveAll.1 = .ok ())
    (fits : right.resolveAll.1 ≠ .error .overflow) : right.resolveAll.1 = .ok () := by
  obtain ⟨formed, -⟩ := sound.resolveAll_eq_ok_iff.1 done
  have formedRight := same.isWellFormed (isWellFormed_declared_iff.2 formed)
  exact (soundRight.resolveAll_of_isWellFormed
    (isWellFormed_declared_iff.1 formedRight)).resolve_right fits

end Sound

/--
No order of declarations or members shows in a size: rearranged tables find sizes
for the same names, with the same values, whatever is on record in both.  Where all
records are what the declarations sum up to, it is enough that the declarations are
rearranged, whatever was resolved on the way; and unless a sum is no word, one of
the tables resolves as a whole when the other does.  Tables that calls on new
tables lead to are such tables.
-/
theorem sizes_in_any_order (left right : TypeTable) :
    (left.Rearranges right → left.SameSizes right) ∧
      (left.Sound → right.Sound → left.declared.Rearranges right.declared →
        left.SameSizes right ∧
          (left.resolveAll.1 ≠ .error .overflow → right.resolveAll.1 ≠ .error .overflow →
            (left.resolveAll.1 = .ok () ↔ right.resolveAll.1 = .ok ()))) ∧
      ∀ start startRight calls callsRight,
        start = .empty ∨ start = .builtins → startRight = .empty ∨ startRight = .builtins →
        TableCall.run start calls = left → TableCall.run startRight callsRight = right →
        left.declared.Rearranges right.declared →
          left.SameSizes right ∧
            (left.resolveAll.1 ≠ .error .overflow → right.resolveAll.1 ≠ .error .overflow →
              (left.resolveAll.1 = .ok () ↔ right.resolveAll.1 = .ok ())) := by
  have agree (sound : left.Sound) (soundRight : right.Sound)
      (same : left.declared.Rearranges right.declared) :
      left.SameSizes right ∧
        (left.resolveAll.1 ≠ .error .overflow → right.resolveAll.1 ≠ .error .overflow →
          (left.resolveAll.1 = .ok () ↔ right.resolveAll.1 = .ok ())) := by
    refine ⟨sound.sameSizes_of_declared soundRight same, fun fits fitsRight => ⟨fun done => ?_,
      fun done => ?_⟩⟩
    · exact sound.resolveAll_of_declared soundRight same done fitsRight
    · exact soundRight.resolveAll_of_declared sound same.symm done fits
  refine ⟨Rearranges.sameSizes, agree, ?_⟩
  intro start startRight calls callsRight new newRight reached reachedRight same
  exact agree (TableCall.sound_of_run_new new reached)
    (TableCall.sound_of_run_new newRight reachedRight) same

/-- A head that is declared before its parts; the tape has no upper bound of its own. -/
def headCalls : List TableCall :=
  [.add (.user (.ofLeaf "@head") .struct
      [.typed "@mark" (.ofLeaf "@bit"), .typed "@tape" (.ofLeaf "@tape")]),
    .add (.builtin (.ofLeaf "@bit") (.fixed 1) (.fixed 1)),
    .add (.builtin (.ofLeaf "@tape") (.fixed 4) ⟨2, none⟩)]

/-- The parts come first, and the tape is the first part. -/
def turnedCalls : List TableCall :=
  [.add (.builtin (.ofLeaf "@tape") (.fixed 4) ⟨2, none⟩),
    .add (.builtin (.ofLeaf "@bit") (.fixed 1) (.fixed 1)),
    .add (.user (.ofLeaf "@head") .struct
      [.typed "@tape" (.ofLeaf "@tape"), .typed "@mark" (.ofLeaf "@bit")])]

def headTable : TypeTable where
  types :=
    [⟨.ofLeaf "@head", .struct,
        [.typed "@mark" (.ofLeaf "@bit"), .typed "@tape" (.ofLeaf "@tape")], .unset, none, false⟩,
      .builtin (.ofLeaf "@bit") (.fixed 1) (.fixed 1),
      .builtin (.ofLeaf "@tape") (.fixed 4) ⟨2, none⟩]
  distinct := by decide

def turnedTable : TypeTable where
  types :=
    [.builtin (.ofLeaf "@tape") (.fixed 4) ⟨2, none⟩,
      .builtin (.ofLeaf "@bit") (.fixed 1) (.fixed 1),
      ⟨.ofLeaf "@head", .struct,
        [.typed "@tape" (.ofLeaf "@tape"), .typed "@mark" (.ofLeaf "@bit")], .unset, none, false⟩]
  distinct := by decide

/-- A head has one size in both tables, also when one of them was resolved before. -/
theorem sizes_in_any_order_head :
    TableCall.run .empty headCalls = headTable ∧ TableCall.run .empty turnedCalls = turnedTable ∧
      headTable.Rearranges turnedTable ∧ headTable.SameSizes turnedTable ∧
      (headTable.resolveQSize (.ofLeaf "@head")).1 = .ok ⟨3, some 1⟩ ∧
      (turnedTable.resolveQSize (.ofLeaf "@head")).1 = .ok ⟨3, some 1⟩ ∧
      headTable.SameSizes turnedTable.resolveAll.2 ∧
      headTable.resolveAll.1 = .ok () ∧ turnedTable.resolveAll.2.resolveAll.1 = .ok () := by
  have reached : TableCall.run .empty headCalls = headTable := rfl
  have reachedTurned : TableCall.run .empty turnedCalls = turnedTable := rfl
  have reachedResolved :
      TableCall.run .empty (turnedCalls ++ [.resolveAll]) = turnedTable.resolveAll.2 := rfl
  have same : headTable.Rearranges turnedTable := by
    rw [TypeTable.Rearranges, ← Multiset.coe_eq_coe.2 headTable.types.reverse_perm]
    exact .cons ⟨_, .refl _, rfl⟩ (.cons ⟨_, .refl _, rfl⟩ (.cons ⟨_, .swap _ _ _, rfl⟩ .zero))
  have declared : turnedTable.resolveAll.2.declared = turnedTable :=
    (TableCall.sound_of_run_new (.inl rfl) reachedTurned).resolveAll.2
  obtain ⟨sizes, -⟩ := sizes_in_any_order headTable turnedTable
  obtain ⟨-, -, histories⟩ := sizes_in_any_order headTable turnedTable.resolveAll.2
  obtain ⟨resolved, all⟩ := histories .empty .empty headCalls (turnedCalls ++ [.resolveAll])
    (.inl rfl) (.inl rfl) reached reachedResolved (by rw [declared]; exact same)
  have found : (headTable.resolveQSize (.ofLeaf "@head")).1 = .ok ⟨3, some 1⟩ := by cbv
  have done : headTable.resolveAll.1 = .ok () := by cbv
  have fits : turnedTable.resolveAll.2.resolveAll.1 ≠ .error .overflow := by
    cbv
    simp
  exact ⟨reached, reachedTurned, same, sizes same, found, ((sizes same _).1 _).1 found, resolved,
    done, (all (by simp [done]) fits).1 done⟩

/-- A label of a text and a stamp, with its members in some order, and its quantum size resolved. -/
def labelCalls (members : List Member) : List TableCall :=
  [.add (.builtin (.ofLeaf "str") .unset (.fixed 0)),
    .add (.builtin (.ofLeaf "stamp") (.fixed 8) (.fixed 0)),
    .add (.user (.ofLeaf "label") .struct members), .resolveQSize (.ofLeaf "label")]

/-- The label as it leaves that table: its quantum size is on record, its bit width is not. -/
def resolvedLabel (members : List Member) : DataType :=
  ⟨.ofLeaf "label", .struct, members, .unset, some (.fixed 0), false⟩

/-- The resolved label in another table, where no stamp is declared. -/
def labelTable (members : List Member) : TypeTable where
  types := [.builtin (.ofLeaf "str") .unset (.fixed 0), resolvedLabel members]
  distinct := (by decide : [Name.ofLeaf "str", Name.ofLeaf "label"].Nodup)

/--
With the quantum size brought along, the whole table resolves when the text comes first, since
a type without a bit width is passed over, and does not when the missing stamp comes first.
-/
theorem resolveAll_labelTable :
    let text : Member := .typed "text" (.ofLeaf "str")
    let stamp : Member := .typed "stamp" (.ofLeaf "stamp")
    (TableCall.run .empty (labelCalls [text, stamp])).get? (.ofLeaf "label") =
        some (resolvedLabel [text, stamp]) ∧
      (TableCall.run .empty (labelCalls [stamp, text])).get? (.ofLeaf "label") =
        some (resolvedLabel [stamp, text]) ∧
      (∀ members, (TableCall.run .empty [.add (.builtin (.ofLeaf "str") .unset (.fixed 0))]).add
        (resolvedLabel members) = .ok (labelTable members)) ∧
      (labelTable [text, stamp]).Rearranges (labelTable [stamp, text]) ∧
      (labelTable [text, stamp]).resolveAll.1 = .ok () ∧
      (labelTable [stamp, text]).resolveAll.1 = .fail (.unknownType (.ofLeaf "stamp")) := by
  intro text stamp
  refine ⟨by cbv, by cbv, fun _ => rfl, ?_, by cbv, by cbv⟩
  exact .cons ⟨_, .refl _, rfl⟩ (.cons ⟨_, .swap _ _ _, rfl⟩ .zero)

end Sizes

end TypeTable

end HybridQuantum
