import HybridQuantum.Exchange.Fields
import Mathlib.Data.List.Forall2
import Mathlib.Data.List.Nodup

/-!
# Records in any order

The fields of a record are found by name, so their order carries no meaning, and a
text may come back with every record rearranged.  What reading a structure needs is
stated here over all arrangements at once.
-/

namespace HybridQuantum

namespace Datum

/-- The same data, the fields of records at any depth perhaps in another order. -/
inductive Reordered : Datum → Datum → Prop
  | same (datum : Datum) : Reordered datum datum
  | list {items others : List Datum} (each : List.Forall₂ Reordered items others) :
      Reordered (.list items) (.list others)
  | record {fields others arranged : List (String × Datum)}
      (names : fields.map Prod.fst = others.map Prod.fst)
      (contents : List.Forall₂ Reordered (fields.map Prod.snd) (others.map Prod.snd))
      (order : others.Perm arranged) : Reordered (.record fields) (.record arranged)

theorem height_le_heights {items : List Datum} {item : Datum} (listed : item ∈ items) :
    item.height ≤ heights items := by
  induction items with
  | nil => cases listed
  | cons first rest ih =>
      rw [heights]
      rcases List.mem_cons.1 listed with rfl | later
      · exact Nat.le_max_left _ _
      · exact Nat.le_trans (ih later) (Nat.le_max_right _ _)

theorem height_le_fieldHeights {fields : List (String × Datum)} {field : String × Datum}
    (listed : field ∈ fields) : field.2.height ≤ fieldHeights fields := by
  induction fields with
  | nil => cases listed
  | cons first rest ih =>
      rw [fieldHeights]
      rcases List.mem_cons.1 listed with rfl | later
      · exact Nat.le_max_left _ _
      · exact Nat.le_trans (ih later) (Nat.le_max_right _ _)

theorem height_pos : (datum : Datum) → 0 < datum.height
  | list _ | sequence _ | record _ | mapping _ => Nat.succ_pos _
  | marked _ content => content.height_pos
  | null | bool _ | number _ | string _ | plain _ | literal _ | unusable => Nat.one_pos

namespace Reordered

variable {items : List Datum} {datum content : Datum} {fields : List (String × Datum)}
  {tag : String}

theorem exists_items (reordered : Reordered (.list items) datum) :
    ∃ others, datum = .list others ∧ List.Forall₂ Reordered items others := by
  cases reordered with
  | same => exact ⟨items, rfl, List.forall₂_same.2 fun item _ => .same item⟩
  | list each => exact ⟨_, rfl, each⟩

theorem exists_arranged (reordered : Reordered (.record fields) datum) :
    ∃ others arranged : List (String × Datum), datum = .record arranged ∧
      fields.map Prod.fst = others.map Prod.fst ∧
      List.Forall₂ Reordered (fields.map Prod.snd) (others.map Prod.snd) ∧
      others.Perm arranged := by
  cases reordered with
  | same =>
      exact ⟨fields, fields, rfl, rfl, List.forall₂_same.2 fun content _ => .same content, .refl _⟩
  | record names contents order => exact ⟨_, _, rfl, names, contents, order⟩

/-- A variant has one arrangement for each one of its content. -/
theorem exists_content {limit : Nat} (reordered : Reordered (.tagged tag content) datum)
    (low : datum.height ≤ limit + 1) :
    ∃ other, datum = .tagged tag other ∧ Reordered content other ∧ other.height ≤ limit := by
  obtain ⟨others, arranged, rfl, names, contents, order⟩ := exists_arranged reordered
  match others, names, contents with
  | [(_, other)], rfl, .cons inside .nil =>
      obtain rfl := List.singleton_perm.1 order
      refine ⟨other, rfl, inside, ?_⟩
      simpa [height, fieldHeights] using low

end Reordered

end Datum

namespace Fields

/-- Fields that hold the contents of a record, each in some arrangement and up to a height. -/
structure Holds (fields : Fields) (contents : List (String × Datum)) (limit : Nat) : Prop where
  named : fields.positional = false
  some : ∀ name content, contents.lookup name = some content →
    ∃ other, fields.entries.lookup name = .some other ∧ content.Reordered other ∧
      other.height ≤ limit
  none : ∀ name, contents.lookup name = none → fields.entries.lookup name = .none

variable {entries contents others : List (String × Datum)} {name : String} {content datum : Datum}
  {limit : Nat}

theorem lookup_eq_some_of_mem (distinct : (entries.map Prod.fst).Nodup)
    (listed : (name, content) ∈ entries) : entries.lookup name = some content := by
  obtain ⟨front, back, rfl⟩ := List.append_of_mem listed
  refine List.lookup_eq_some_iff.2 ⟨front, back, rfl, fun field earlier => bne_iff_ne.2 ?_⟩
  rintro rfl
  rw [List.map_append, List.nodup_append] at distinct
  exact distinct.2.2 _ (List.mem_map_of_mem earlier) _ (by simp) rfl

theorem lookup_eq_none_iff_not_mem :
    entries.lookup name = none ↔ name ∉ entries.map Prod.fst := by
  rw [List.lookup_eq_none_iff, List.mem_map, not_exists]
  exact forall_congr' fun field => by rw [not_and, bne_iff_ne, ne_comm]

theorem exists_mem_of_lookup (names : contents.map Prod.fst = others.map Prod.fst)
    (each : List.Forall₂ Datum.Reordered (contents.map Prod.snd) (others.map Prod.snd))
    (found : contents.lookup name = some content) :
    ∃ other, (name, other) ∈ others ∧ content.Reordered other := by
  induction contents generalizing others with
  | nil => cases found
  | cons field rest ih =>
      cases others with
      | nil => cases names
      | cons otherField otherRest =>
          obtain ⟨key, first⟩ := field
          obtain ⟨otherKey, other⟩ := otherField
          obtain ⟨rfl, restNames⟩ := List.cons.inj names
          obtain ⟨inside, each⟩ := List.forall₂_cons.1 each
          rw [List.lookup_cons] at found
          split at found
          · rename_i here
            cases found
            exact ⟨other, by simp [eq_of_beq here], inside⟩
          · obtain ⟨later, listed, arranged⟩ := ih restNames each found
            exact ⟨later, List.mem_cons_of_mem _ listed, arranged⟩

theorem ofNamed?_eq_some (asked : List String) (distinct : (entries.map Prod.fst).Nodup) :
    ofNamed? asked entries = some ⟨entries, false⟩ := by
  refine if_pos (List.all_eq_true.2 fun name _ => decide_eq_true ?_)
  have once := List.nodup_iff_count_le_one.1 distinct name
  rwa [List.count, List.countP_map] at once

/-- Every arrangement of a record without repeated names opens, whatever fields are asked for. -/
theorem exists_holds (asked : List String) (distinct : (contents.map Prod.fst).Nodup)
    (reordered : Datum.Reordered (.record contents) datum) (low : datum.height ≤ limit + 1) :
    ∃ fields, of? asked datum = some fields ∧ fields.Holds contents limit := by
  obtain ⟨others, arranged, rfl, names, each, order⟩ := reordered.exists_arranged
  have unique : (arranged.map Prod.fst).Nodup := (order.map _).nodup_iff.1 (names ▸ distinct)
  refine ⟨⟨arranged, false⟩, ofNamed?_eq_some asked unique, rfl, fun name content found => ?_,
    fun name missing => ?_⟩
  · obtain ⟨other, listed, inside⟩ := exists_mem_of_lookup names each found
    have kept : (name, other) ∈ arranged := order.mem_iff.1 listed
    exact ⟨other, lookup_eq_some_of_mem unique kept, inside,
      Nat.le_trans (Datum.height_le_fieldHeights kept) (Nat.le_of_succ_le_succ low)⟩
  · rw [lookup_eq_none_iff_not_mem, names, (order.map _).mem_iff] at missing
    exact lookup_eq_none_iff_not_mem.2 missing

end Fields

namespace Datum

/-- Up to a height, every arrangement of a datum is read as a value. -/
def ReadsAs {α : Type} (datum : Datum) (decode : Datum → Option α) (limit : Nat) (value : α) :
    Prop :=
  ∀ other, datum.Reordered other → other.height ≤ limit → decode other = some value

variable {α : Type} {decode : Datum → Option α} {encode : α → Datum} {limit : Nat} {value : α}
  {datum content : Datum}

theorem ReadsAs.zero : datum.ReadsAs decode 0 value :=
  fun other _ low => absurd low (Nat.not_le.2 other.height_pos)

theorem ReadsAs.string {text : String} (reads : decode (.string text) = some value) :
    ReadsAs (.string text) decode limit value := by
  rintro other ⟨⟩ -
  exact reads

theorem mapM_eq_some {items : List α} {others : List Datum}
    (each : List.Forall₂ Reordered (items.map encode) others)
    (reads : ∀ item ∈ items, (encode item).ReadsAs decode limit item)
    (low : ∀ other ∈ others, other.height ≤ limit) : others.mapM decode = some items := by
  induction items generalizing others with
  | nil =>
      cases each
      rfl
  | cons item rest ih =>
      cases each with
      | @cons _ other _ otherRest first later =>
          have head := reads item List.mem_cons_self other first (low other List.mem_cons_self)
          have tail := ih later (fun item listed => reads item (List.mem_cons_of_mem _ listed))
            fun other listed => low other (List.mem_cons_of_mem _ listed)
          rw [List.mapM_cons, head, tail]
          rfl

theorem ReadsAs.list {items : List α}
    (reads : ∀ item ∈ items, (encode item).ReadsAs decode limit item) :
    ReadsAs (.list (items.map encode)) (Datum.list? decode) (limit + 1) items := by
  intro other reordered low
  obtain ⟨others, rfl, each⟩ := reordered.exists_items
  refine mapM_eq_some each reads fun item listed => ?_
  exact Nat.le_trans (height_le_heights listed) (Nat.le_of_succ_le_succ low)

theorem ReadsAs.map {β : Type} (convert : α → β) (reads : datum.ReadsAs decode limit value) :
    datum.ReadsAs (fun other => (decode other).map convert) limit (convert value) := by
  intro other reordered low
  simp only [reads other reordered low, Option.map_some]

/-- A variant is read as soon as its content is, which is one level lower. -/
theorem ReadsAs.tagged {tag : String} {inner : Datum → Option α}
    (reads : datum.ReadsAs inner limit value)
    (opens : ∀ content, decode (.tagged tag content) = inner content) :
    (Datum.tagged tag datum).ReadsAs decode (limit + 1) value := by
  intro other reordered low
  obtain ⟨content, rfl, arranged, low⟩ := reordered.exists_content low
  rw [opens]
  exact reads content arranged low

theorem ReadsAs.mono {less : Nat} (reads : datum.ReadsAs decode limit value)
    (fewer : less ≤ limit) : datum.ReadsAs decode less value :=
  fun other reordered low => reads other reordered (Nat.le_trans low fewer)

end Datum

theorem Fields.Holds.required {α : Type} {decode : Datum → Option α} {fields : Fields}
    {contents : List (String × Datum)} {limit : Nat} {name : String} {content : Datum} {value : α}
    (holds : fields.Holds contents limit) (found : contents.lookup name = .some content)
    (reads : content.ReadsAs decode limit value) : fields.required name decode = .some value := by
  obtain ⟨other, here, reordered, low⟩ := holds.some name content found
  rw [Fields.required, here]
  exact reads other reordered low

/-- A record of two fields is read as soon as both of them are. -/
theorem Datum.ReadsAs.record {α β γ : Type} {first second : String} {left right : Datum}
    {decodeLeft : Datum → Option α} {decodeRight : Datum → Option β} {limit : Nat} {one : α}
    {other : β} (apart : first ≠ second) (build : α → β → γ)
    (leftReads : left.ReadsAs decodeLeft limit one)
    (rightReads : right.ReadsAs decodeRight limit other) :
    (Datum.record [(first, left), (second, right)]).ReadsAs
      (fun datum => do
        let fields ← Fields.of? [first, second] datum
        let one ← fields.required first decodeLeft
        let other ← fields.required second decodeRight
        return build one other)
      limit (build one other) := by
  intro datum reordered low
  obtain ⟨fields, opened, holds⟩ := Fields.exists_holds [first, second] (by simpa using apart)
    reordered (Nat.le_succ_of_le low)
  have here : fields.required first decodeLeft = some one :=
    holds.required List.lookup_cons_self leftReads
  have later : [(first, left), (second, right)].lookup second = some right := by
    rw [List.lookup_cons, beq_false_of_ne apart.symm]
    exact List.lookup_cons_self
  simp only [opened, here, holds.required later rightReads, Option.bind_eq_bind, Option.bind_some]
  rfl

end HybridQuantum
