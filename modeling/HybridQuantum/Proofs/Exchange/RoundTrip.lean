import HybridQuantum.Exchange.Program
import HybridQuantum.Proofs.Exchange.Reordering

/-!
# Programs come back

A program part without floating-point numbers is read back from its data tree as it
was, however the records of the tree are arranged.  Literals and arguments hold one
another, and so do blocks; a reader that goes down as many levels as the tree is
high always reaches the bottom.
-/

namespace HybridQuantum

open Datum (ReadsAs Reordered)

theorem NameSpace.readsAs (space : NameSpace) (limit : Nat) :
    space.toDatum.ReadsAs NameSpace.ofDatum? limit space := by
  intro other reordered low
  have texts : (Datum.list (space.segments.map .string)).ReadsAs (Datum.list? Datum.text?)
      (limit + 1) space.segments :=
    ReadsAs.list fun segment _ => ReadsAs.string rfl
  rw [NameSpace.ofDatum?, texts other reordered (Nat.le_succ_of_le low)]
  rfl

theorem Name.readsAs (name : Name) (limit : Nat) :
    name.toDatum.ReadsAs Name.ofDatum? limit name :=
  ReadsAs.record (by decide) Name.mk (name.space.readsAs limit) (ReadsAs.string rfl)

namespace Datum

theorem word64?_ofNat (number : UInt64) : (Datum.ofNat number.toNat).word64? = some number := by
  have word : Word.ofNat64? number.toNat = some (UInt64.ofNat number.toNat) :=
    if_pos number.toNat_lt
  rw [UInt64.ofNat_toNat] at word
  exact word

theorem int64?_ofInt (number : Int64) : (Datum.ofInt number.toInt).int64? = some number := by
  have read : (Numeral.ofInt number.toInt).int? = some number.toInt := by
    unfold Numeral.ofInt
    by_cases negative : number.toInt < 0
    · simp only [negative, decide_true, Numeral.int?]
      congr 1
      omega
    · simp only [negative, decide_false, Numeral.int?]
      congr 1
      omega
  have low := number.le_toInt
  have high := number.toInt_lt
  have word : Word.ofInt64? number.toInt = some (Int64.ofInt number.toInt) :=
    if_pos (by simp [Word.signedLimit]; omega)
  rw [Int64.ofInt_toInt] at word
  rw [Datum.ofInt, Datum.int64?, read]
  exact word

end Datum

namespace Value

/-- Not a floating-point number. -/
def isFloatless : Value → Bool
  | float _ => false
  | _ => true

variable {value : Value}

theorem ofContent?_of_isFloatless (floatless : value.isFloatless = true) :
    ofContent? value.kindTag value.contentDatum? = some value := by
  cases value with
  | null => rfl
  | bool content => rfl
  | int content => exact congrArg (Option.map int) (Datum.int64?_ofInt content)
  | uint content => exact congrArg (Option.map uint) (Datum.word64?_ofNat content)
  | float content => cases floatless
  | char content =>
      have text : (Datum.string content.toString).char? = some content := by
        simp [Datum.char?, Datum.text?]
      exact congrArg (Option.map char) text
  | str content => rfl

/-- The content of a value is a scalar, which has one arrangement. -/
theorem eq_of_reordered (floatless : value.isFloatless = true) {content other : Datum}
    (has : value.contentDatum? = some content) (reordered : content.Reordered other) :
    other = content := by
  cases value with
  | null => cases has
  | float number => cases floatless
  | bool _ | int _ | uint _ | char _ | str _ =>
      cases has
      cases reordered
      rfl

theorem readsAs (floatless : value.isFloatless = true) (limit : Nat) :
    value.toDatum.ReadsAs Value.ofDatum? limit value := by
  intro other reordered low
  have distinct : ((("kind", Datum.string value.kindTag) ::
      (value.contentDatum?.map fun content => ("value", content)).toList).map Prod.fst).Nodup := by
    cases value.contentDatum? <;> simp
  obtain ⟨fields, opened, holds⟩ := Fields.exists_holds ["kind", "value"] distinct reordered
    (Nat.le_succ_of_le low)
  have kind : fields.required "kind" Datum.tag? = some value.kindTag :=
    holds.required rfl (ReadsAs.string rfl)
  have read := ofContent?_of_isFloatless floatless
  simp only [Value.ofDatum?, opened, kind, Option.bind_eq_bind, Option.bind_some]
  cases has : value.contentDatum? with
  | none =>
      rw [has] at holds read
      simp only [holds.none "value" rfl, holds.named, Bool.false_eq_true, if_false]
      exact read
  | some content =>
      rw [has] at holds read
      obtain ⟨inside, found, arranged, -⟩ := holds.some "value" content rfl
      rw [eq_of_reordered floatless has arranged] at found
      simp only [found]
      exact read

end Value

namespace CoreLiteral

theorem readsAs {core : CoreLiteral} (floatless : core.value.isFloatless = true) (limit : Nat) :
    core.toDatum.ReadsAs CoreLiteral.ofDatum? limit core :=
  ReadsAs.record (by decide) CoreLiteral.mk (Value.readsAs floatless limit)
    (core.type.readsAs limit)

end CoreLiteral

theorem InstrFlag.readsAs (flag : InstrFlag) (limit : Nat) :
    (Datum.string flag.tag).ReadsAs InstrFlag.ofDatum? limit flag :=
  ReadsAs.string (by cases flag <;> rfl)

theorem BlockFlag.readsAs (flag : BlockFlag) (limit : Nat) :
    (Datum.string flag.tag).ReadsAs BlockFlag.ofDatum? limit flag :=
  ReadsAs.string (by cases flag <;> rfl)

mutual

def Literal.isFloatless : Literal → Bool
  | .core content => content.value.isFloatless
  | .composite _ items => Literal.areFloatless items
  | .mixed _ items => Arg.areFloatless items

def Literal.areFloatless : List Literal → Bool
  | [] => true
  | literal :: rest => literal.isFloatless && Literal.areFloatless rest

def Arg.isFloatless : Arg → Bool
  | .literal content => content.isFloatless
  | .symbol _ => true
  | .instr _ args _ => Arg.areFloatless args

def Arg.areFloatless : List Arg → Bool
  | [] => true
  | arg :: rest => arg.isFloatless && Arg.areFloatless rest

end

mutual

def BlockItem.isFloatless : BlockItem → Bool
  | .instr content => Arg.areFloatless content.args
  | .block _ items => BlockItem.areFloatless items

def BlockItem.areFloatless : List BlockItem → Bool
  | [] => true
  | item :: rest => item.isFloatless && BlockItem.areFloatless rest

end

section Lists

variable {α β : Type} {all : List α → Bool} {test : α → Bool} {each : List α → List β} {one : α → β}

theorem eq_all_of_cons (nil : all [] = true)
    (cons : ∀ item rest, all (item :: rest) = (test item && all rest)) (items : List α) :
    all items = items.all test := by
  induction items with
  | nil => exact nil
  | cons item rest ih => rw [cons, ih, List.all_cons]

theorem eq_map_of_cons (nil : each [] = [])
    (cons : ∀ item rest, each (item :: rest) = one item :: each rest) (items : List α) :
    each items = items.map one := by
  induction items with
  | nil => exact nil
  | cons item rest ih => rw [cons, ih, List.map_cons]

end Lists

theorem Literal.areFloatless_eq (items : List Literal) :
    Literal.areFloatless items = items.all Literal.isFloatless :=
  eq_all_of_cons rfl (fun _ _ => rfl) items

theorem Arg.areFloatless_eq (args : List Arg) : Arg.areFloatless args = args.all Arg.isFloatless :=
  eq_all_of_cons rfl (fun _ _ => rfl) args

theorem BlockItem.areFloatless_eq (items : List BlockItem) :
    BlockItem.areFloatless items = items.all BlockItem.isFloatless :=
  eq_all_of_cons rfl (fun _ _ => rfl) items

theorem Literal.toData_eq (items : List Literal) :
    Literal.toData items = items.map Literal.toDatum :=
  eq_map_of_cons rfl (fun _ _ => rfl) items

theorem Arg.toData_eq (args : List Arg) : Arg.toData args = args.map Arg.toDatum :=
  eq_map_of_cons rfl (fun _ _ => rfl) args

theorem BlockItem.toData_eq (items : List BlockItem) :
    BlockItem.toData items = items.map BlockItem.toDatum :=
  eq_map_of_cons rfl (fun _ _ => rfl) items

/-- An instruction is read as soon as its arguments are. -/
theorem Instr.readsAs_of_args (name : Name) (flag : InstrFlag) {args : List Arg}
    {decode : Datum → Option Arg} {limit : Nat}
    (reads : ∀ arg ∈ args, arg.toDatum.ReadsAs decode limit arg) :
    (instrDatum name (args.map Arg.toDatum) flag).ReadsAs (Instr.ofDatumWith? decode) limit
      ⟨name, args, flag⟩ := by
  intro other reordered low
  obtain ⟨fields, opened, holds⟩ := Fields.exists_holds ["name", "args", "flag"] (by simp) reordered
    (Nat.le_succ_of_le low)
  have read : fields.required "name" Name.ofDatum? = some name :=
    holds.required rfl (name.readsAs limit)
  have list : fields.required "args" (Datum.list? decode) = some args :=
    holds.required rfl ((ReadsAs.list reads).mono (Nat.le_succ limit))
  have tag : fields.required "flag" InstrFlag.ofDatum? = some flag :=
    holds.required rfl (flag.readsAs limit)
  simp only [Instr.ofDatumWith?, opened, read, list, tag, Option.bind_eq_bind, Option.bind_some]
  rfl

/-- A composite is read as soon as its items are. -/
theorem readsAs_composite {α : Type} {type : Name} {items : List α} {encode : α → Datum}
    {decode : Datum → Option α} {limit : Nat} (build : Name → List α → Literal)
    (reads : ∀ item ∈ items, (encode item).ReadsAs decode limit item) :
    (Datum.record [("type_name", type.toDatum), ("items", .list (items.map encode))]).ReadsAs
      (fun datum => do
        let fields ← Fields.of? ["type_name", "items"] datum
        let type ← fields.required "type_name" Name.ofDatum?
        let items ← fields.required "items" (Datum.list? decode)
        return build type items)
      limit (build type items) :=
  ReadsAs.record (by decide) build (type.readsAs limit)
    ((ReadsAs.list reads).mono (Nat.le_succ limit))

/-- Whatever lies inside a literal or an argument is lower, so each level reads all of it. -/
theorem readsAs_within (levels : Nat) :
    (∀ literal : Literal, literal.isFloatless = true →
      literal.toDatum.ReadsAs (Literal.ofDatumWithin? levels) levels literal) ∧
    ∀ arg : Arg, arg.isFloatless = true →
      arg.toDatum.ReadsAs (Arg.ofDatumWithin? levels) levels arg := by
  induction levels with
  | zero => exact ⟨fun _ _ => ReadsAs.zero, fun _ _ => ReadsAs.zero⟩
  | succ levels ih =>
      obtain ⟨literals, arguments⟩ := ih
      refine ⟨fun literal floatless => ?_, fun arg floatless => ?_⟩
      · cases literal with
        | core core =>
            exact ((CoreLiteral.readsAs floatless levels).map Literal.core).tagged fun _ => rfl
        | composite type items =>
            rw [Literal.isFloatless, Literal.areFloatless_eq, List.all_eq_true] at floatless
            rw [Literal.toDatum, Literal.toData_eq]
            exact (readsAs_composite .composite fun item listed =>
              literals item (floatless item listed)).tagged fun _ => rfl
        | mixed type items =>
            rw [Literal.isFloatless, Arg.areFloatless_eq, List.all_eq_true] at floatless
            rw [Literal.toDatum, Arg.toData_eq]
            exact (readsAs_composite .mixed fun item listed =>
              arguments item (floatless item listed)).tagged fun _ => rfl
      · cases arg with
        | literal literal =>
            exact ((literals literal floatless).map Arg.literal).tagged fun _ => rfl
        | symbol name => exact ((name.readsAs levels).map Arg.symbol).tagged fun _ => rfl
        | instr name args flag =>
            rw [Arg.isFloatless, Arg.areFloatless_eq, List.all_eq_true] at floatless
            rw [Arg.toDatum, Arg.toData_eq]
            have read := Instr.readsAs_of_args name flag fun arg listed =>
              arguments arg (floatless arg listed)
            exact (read.map Instr.toArg).tagged fun _ => rfl

namespace Instr

/-- An instruction whose arguments hold no floating-point number. -/
def isFloatless (instr : Instr) : Bool :=
  Arg.areFloatless instr.args

variable {instr : Instr}

theorem readsAs_within (floatless : instr.isFloatless = true) (levels : Nat) :
    instr.toDatum.ReadsAs (ofDatumWith? (Arg.ofDatumWithin? levels)) levels instr := by
  rw [isFloatless, Arg.areFloatless_eq, List.all_eq_true] at floatless
  rw [toDatum, Arg.toData_eq]
  exact readsAs_of_args _ _ fun arg listed =>
    (HybridQuantum.readsAs_within levels).2 arg (floatless arg listed)

theorem readsAs (floatless : instr.isFloatless = true) (limit : Nat) :
    instr.toDatum.ReadsAs ofDatum? limit instr :=
  fun other reordered _ => readsAs_within floatless other.height other reordered (Nat.le_refl _)

end Instr

/-- A block is read as soon as its elements are. -/
theorem Block.readsAs_of_items (flag : BlockFlag) {items : List BlockItem}
    {decode : Datum → Option BlockItem} {limit : Nat}
    (reads : ∀ item ∈ items, item.toDatum.ReadsAs decode limit item) :
    (blockDatum flag (items.map BlockItem.toDatum)).ReadsAs (Block.ofDatumWith? decode) limit
      ⟨flag, items⟩ :=
  ReadsAs.record (by decide) Block.mk (flag.readsAs limit)
    ((ReadsAs.list reads).mono (Nat.le_succ limit))

theorem BlockItem.readsAs_within (levels : Nat) :
    ∀ item : BlockItem, item.isFloatless = true →
      item.toDatum.ReadsAs (BlockItem.ofDatumWithin? levels) levels item := by
  induction levels with
  | zero => exact fun _ _ => ReadsAs.zero
  | succ levels ih =>
      intro item floatless
      cases item with
      | instr instr =>
          exact ((instr.readsAs floatless levels).map BlockItem.instr).tagged fun _ => rfl
      | block flag items =>
          rw [BlockItem.isFloatless, BlockItem.areFloatless_eq, List.all_eq_true] at floatless
          rw [BlockItem.toDatum, BlockItem.toData_eq]
          have read := Block.readsAs_of_items flag fun item listed =>
            ih item (floatless item listed)
          exact ReadsAs.tagged (read.map fun block => BlockItem.block block.flag block.items)
            fun _ => rfl

namespace Block

/-- A block none of whose instructions holds a floating-point number. -/
def isFloatless (block : Block) : Bool :=
  BlockItem.areFloatless block.items

theorem readsAs {block : Block} (floatless : block.isFloatless = true) (limit : Nat) :
    block.toDatum.ReadsAs ofDatum? limit block := by
  intro other reordered _
  rw [isFloatless, BlockItem.areFloatless_eq, List.all_eq_true] at floatless
  rw [toDatum, BlockItem.toData_eq] at reordered
  exact readsAs_of_items _ (fun item listed =>
    BlockItem.readsAs_within other.height item (floatless item listed)) other reordered
    (Nat.le_refl _)

end Block

/-- Without floating-point numbers every part of a program comes back as it was. -/
theorem ofDatum?_of_reordered :
    (∀ value : Value, value.isFloatless = true →
      ∀ other, value.toDatum.Reordered other → Value.ofDatum? other = some value) ∧
    (∀ literal : Literal, literal.isFloatless = true →
      ∀ other, literal.toDatum.Reordered other → Literal.ofDatum? other = some literal) ∧
    (∀ arg : Arg, arg.isFloatless = true →
      ∀ other, arg.toDatum.Reordered other → Arg.ofDatum? other = some arg) ∧
    (∀ instr : Instr, instr.isFloatless = true →
      ∀ other, instr.toDatum.Reordered other → Instr.ofDatum? other = some instr) ∧
    ∀ block : Block, block.isFloatless = true →
      ∀ other, block.toDatum.Reordered other → Block.ofDatum? other = some block := by
  refine ⟨fun value floatless other reordered => ?_, fun literal floatless other reordered => ?_,
    fun arg floatless other reordered => ?_, fun instr floatless other reordered => ?_,
    fun block floatless other reordered => ?_⟩
  · exact Value.readsAs floatless other.height other reordered (Nat.le_refl _)
  · exact (readsAs_within other.height).1 literal floatless other reordered (Nat.le_refl _)
  · exact (readsAs_within other.height).2 arg floatless other reordered (Nat.le_refl _)
  · exact Instr.readsAs floatless other.height other reordered (Nat.le_refl _)
  · exact Block.readsAs floatless other.height other reordered (Nat.le_refl _)

namespace Block

/-- A closure around `@rotate((:symbol 'a', null), @flip(-7))`. -/
def nested : Block where
  flag := .instrBlock
  items := [.block .closure [.instr ⟨⟨⟨["gates"]⟩, "@rotate"⟩,
    [.literal (.mixed ⟨⟨[]⟩, "pair"⟩ [.symbol ⟨⟨[]⟩, "symbol"⟩,
      .literal (.composite ⟨⟨[]⟩, "point"⟩ [.core ⟨.char 'a', ⟨⟨[]⟩, "char"⟩⟩,
        .core ⟨.null, ⟨⟨[]⟩, "unit"⟩⟩])]),
      .instr ⟨⟨[]⟩, "@flip"⟩ [.literal (.core ⟨.int (-7), ⟨⟨[]⟩, "int"⟩⟩)] .loopCond], .call⟩]]

/-- The tree of `nested` with its elements in front of its flag. -/
def nestedDatum : Datum :=
  .record [("items", .list (BlockItem.toData nested.items)), ("flag", .string nested.flag.tag)]

theorem nestedDatum_ne : nestedDatum ≠ nested.toDatum := by
  intro same
  injection same with fields
  injection fields with first
  injection first with name
  exact absurd name (by decide)

theorem nested_reordered : nested.toDatum.Reordered nestedDatum :=
  .record rfl (List.forall₂_same.2 fun content _ => .same content) (.swap _ _ _)

end Block

theorem ofDatum?_nested :
    Block.nestedDatum ≠ Block.nested.toDatum ∧
    Block.ofDatum? Block.nested.toDatum = some Block.nested ∧
    Block.ofDatum? Block.nestedDatum = some Block.nested :=
  ⟨Block.nestedDatum_ne,
    ofDatum?_of_reordered.2.2.2.2 Block.nested (by decide) _ (.same _),
    ofDatum?_of_reordered.2.2.2.2 Block.nested (by decide) _ Block.nested_reordered⟩

end HybridQuantum
