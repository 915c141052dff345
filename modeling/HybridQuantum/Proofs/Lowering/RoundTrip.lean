import HybridQuantum.Proofs.Circuit.Reading
import HybridQuantum.Proofs.Circuit.Scanning
import HybridQuantum.Proofs.Lowering.Emission

/-!
# Lowered programs parse back

The text of a lowered program is scanned, read and built up again: every
statement comes back as the operation it stands for, on the slots it names, and
the closing line as one measurement for each slot.
-/

namespace HybridQuantum

open Circuit

namespace Statement

/-- The operation a statement stands for. -/
def op {ρ : Type} : Statement → Op ρ
  | flip slot => .gate .x [slot]
  | superpose slot => .gate .h [slot]
  | entangle control target => .gate .cx [control, target]

/-- The slots a lowering uses: all below the width, and the first one as the only control. -/
def InRange (width : Nat) : Statement → Prop
  | flip slot => slot < width
  | superpose slot => slot < width
  | entangle control target => control = 0 ∧ 1 ≤ target ∧ target < width

/-- The tokens of a slot. -/
def slotTokens (slot : Nat) : List Token :=
  [.identifier "q", .leftBracket, .int slot, .rightBracket]

/-- The tokens of a statement. -/
def tokens : Statement → List Token
  | flip slot => .identifier "x" :: (slotTokens slot ++ [.semicolon])
  | superpose slot => .identifier "h" :: (slotTokens slot ++ [.semicolon])
  | entangle control target =>
      .identifier "cx" :: (slotTokens control ++ .comma :: (slotTokens target ++ [.semicolon]))

theorem toList_slotText (slot : Nat) :
    (slotText slot).toList = 'q' :: '[' :: (Nat.toDigits 10 slot ++ [']']) := by
  simp [slotText, String.toList_append]

end Statement

theorem Emission.inRange_of_mem_code {width : Nat} {emission : Emission} {statement : Statement}
    (member : statement ∈ emission.code width) : statement.InRange width := by
  cases emission with
  | prepare bits =>
      simp only [code, List.mem_map, List.mem_filter, List.mem_range] at member
      obtain ⟨slot, ⟨below, -⟩, rfl⟩ := member
      exact Nat.lt_of_lt_of_le below (Nat.min_le_left _ _)
  | apply operation =>
      cases operation with
      | redim =>
          simp only [code, List.mem_map, List.mem_range] at member
          obtain ⟨slot, below, rfl⟩ := member
          exact below
      | not =>
          simp only [code, List.mem_map, List.mem_range] at member
          obtain ⟨slot, below, rfl⟩ := member
          exact below
      | sync =>
          simp only [code, List.mem_map, List.mem_range'_1] at member
          obtain ⟨slot, bounds, rfl⟩ := member
          exact ⟨rfl, bounds.1, by omega⟩

/-- Every emitted statement keeps to the slots. -/
theorem Realizes.inRange {width : Nat} {emissions : List Emission} {code : List Statement}
    (realized : Realizes width emissions code) : ∀ statement ∈ code, statement.InRange width := by
  intro statement member
  rw [realized.same] at member
  obtain ⟨emission, -, inside⟩ := List.mem_flatMap.1 member
  exact Emission.inRange_of_mem_code inside

section Scanning

variable {rest : List Char} {tokens : List Token}

/-- A position of a register with a name of one letter. -/
theorem scans_position {letter : Char} {index : Nat} (starts : startsWord letter = true)
    (small : index < UInt64.size) (others : Scans rest tokens) :
    Scans (letter :: '[' :: (Nat.toDigits 10 index ++ ']' :: rest))
      (.ofWord (String.ofList [letter]) :: .leftBracket :: .int index :: .rightBracket ::
        tokens) := by
  have closed : Scans (']' :: rest) (.rightBracket :: tokens) := Scans.mark rfl others
  have number : Scans (Nat.toDigits 10 index ++ ']' :: rest)
      (.int index :: .rightBracket :: tokens) :=
    Scans.int small (by simp [Ends, extendsNumber]) closed
  have opened : Scans ('[' :: (Nat.toDigits 10 index ++ ']' :: rest))
      (.leftBracket :: .int index :: .rightBracket :: tokens) := Scans.mark rfl number
  have named : Scans (letter :: ([] ++ '[' :: (Nat.toDigits 10 index ++ ']' :: rest)))
      (.ofWord (String.ofList [letter]) :: .leftBracket :: .int index :: .rightBracket :: tokens) :=
    Scans.word starts (by simp) (by simp [Ends, isWordChar]) opened
  exact named

theorem scans_slotText {slot : Nat} (small : slot < UInt64.size) (others : Scans rest tokens) :
    Scans ((Statement.slotText slot).toList ++ rest) (Statement.slotTokens slot ++ tokens) := by
  have named : Scans ('q' :: '[' :: (Nat.toDigits 10 slot ++ ']' :: rest))
      (Statement.slotTokens slot ++ tokens) := scans_position rfl small others
  simpa [Statement.toList_slotText] using named

/-- The text of a statement scans to its tokens. -/
theorem scans_statement {statement : Statement} {width : Nat} (inRange : statement.InRange width)
    (small : width < UInt64.size) (others : Scans rest tokens) :
    Scans (statement.text.toList ++ rest) (statement.tokens ++ tokens) := by
  have ended : Scans (';' :: rest) (.semicolon :: tokens) := Scans.mark rfl others
  cases statement with
  | flip slot =>
      have placed := scans_slotText (Nat.lt_trans inRange small) ended
      have named : Scans ('x' :: ' ' :: ((Statement.slotText slot).toList ++ ';' :: rest))
          (.identifier "x" :: (Statement.slotTokens slot ++ .semicolon :: tokens)) :=
        Scans.mark rfl (Scans.blank rfl placed)
      simpa [Statement.text, Statement.tokens, String.toList_append] using named
  | superpose slot =>
      have placed := scans_slotText (Nat.lt_trans inRange small) ended
      have named : Scans ('h' :: ' ' :: ((Statement.slotText slot).toList ++ ';' :: rest))
          (.identifier "h" :: (Statement.slotTokens slot ++ .semicolon :: tokens)) :=
        Scans.mark rfl (Scans.blank rfl placed)
      simpa [Statement.text, Statement.tokens, String.toList_append] using named
  | entangle control target =>
      obtain ⟨rfl, -, below⟩ := inRange
      have placed := scans_slotText (Nat.lt_trans below small) ended
      have divided : Scans (',' :: ' ' :: ((Statement.slotText target).toList ++ ';' :: rest))
          (.comma :: (Statement.slotTokens target ++ .semicolon :: tokens)) :=
        Scans.mark rfl (Scans.blank rfl placed)
      have controlled : Scans ((Statement.slotText 0).toList ++
            ',' :: ' ' :: ((Statement.slotText target).toList ++ ';' :: rest))
          (Statement.slotTokens 0 ++
            .comma :: (Statement.slotTokens target ++ .semicolon :: tokens)) :=
        scans_slotText (by decide) divided
      have named : Scans ('c' :: (['x'] ++ ' ' :: ((Statement.slotText 0).toList ++
            ',' :: ' ' :: ((Statement.slotText target).toList ++ ';' :: rest))))
          (.identifier "cx" :: (Statement.slotTokens 0 ++
            .comma :: (Statement.slotTokens target ++ .semicolon :: tokens))) :=
        Scans.word rfl rfl (by simp [Ends, isWordChar]) (Scans.blank rfl controlled)
      simpa [Statement.text, Statement.tokens, String.toList_append] using named

end Scanning

/-- One register of each kind, both as wide as the slots. -/
structure HoldsRegisters {ρ : Type} (builder : Builder ρ) (width : Nat) : Prop where
  quantum : builder.quantum.get? "q" = some ⟨0, width⟩
  classical : builder.classical.get? "c" = some ⟨0, width⟩

namespace HoldsRegisters

variable {ρ : Type} {builder : Builder ρ} {width : Nat}

theorem append (holds : HoldsRegisters builder width) (ops : List (Op ρ)) :
    HoldsRegisters (builder.append ops) width :=
  ⟨holds.quantum, holds.classical⟩

theorem mapM_resolve (holds : HoldsRegisters builder width) {slots : List Nat}
    (below : ∀ slot ∈ slots, slot < width) :
    (slots.map fun slot => (⟨"q", some slot⟩ : RegisterArg)).mapM builder.quantum.resolve =
      .ok (slots.map fun slot => ⟨slot, none⟩) := by
  induction slots with
  | nil => rfl
  | cons slot rest ih =>
      have here : builder.quantum.resolve ⟨"q", some slot⟩ = .ok ⟨slot, none⟩ := by
        simp [Registers.resolve, holds.quantum, below slot (by simp)]
      have others := ih fun other member => below other (by simp [member])
      rw [List.map_cons, List.mapM_cons, here, others]
      rfl

/-- A gate on single slots is applied once, to those slots. -/
theorem applyGate (holds : HoldsRegisters builder width) (name : String) (gate : Gate ρ)
    (slots : List Nat) (count : gate.qubitCount = slots.length) (distinct : slots.Nodup)
    (below : ∀ slot ∈ slots, slot < width) :
    builder.applyGate name gate (slots.map fun slot => ⟨"q", some slot⟩) =
      .ok (builder.append [.gate gate slots]) := by
  have single : ∀ rest : List Nat,
      Builder.commonWidth name none (rest.map fun slot => ⟨slot, none⟩) = .ok 1 := by
    intro rest
    induction rest with
    | nil => rfl
    | cons slot rest ih => exact ih
  have qubits : (slots.map fun slot => (⟨slot, none⟩ : Span)).map (·.position 0) = slots := by
    simp [Function.comp_def, Span.position]
  have once : Builder.applyAt name gate (slots.map fun slot => ⟨slot, none⟩) 0 =
      .ok (.gate gate slots) := by
    simp only [Builder.applyAt, qubits, distinct, if_true]
  simp only [Builder.applyGate, List.length_map, count, if_true, ok_bind,
    holds.mapM_resolve below, single, List.range_one, List.mapM_cons, once]
  rfl

/-- Measuring the whole register writes every slot into the bit of the same number. -/
theorem measure (holds : HoldsRegisters builder width) :
    builder.measure ⟨"q", none⟩ ⟨"c", none⟩ =
      .ok (builder.append ((List.range width).map fun slot => .measure slot slot)) := by
  have quantum : builder.quantum.resolve ⟨"q", none⟩ = .ok ⟨0, some width⟩ := by
    simp [Registers.resolve, holds.quantum]
  have classical : builder.classical.resolve ⟨"c", none⟩ = .ok ⟨0, some width⟩ := by
    simp [Registers.resolve, holds.classical]
  rw [Builder.measure, quantum, classical]
  simp [Span.count, Span.position, Bind.bind, Except.bind, Pure.pure, Except.pure]

end HoldsRegisters

/-- The arguments of a statement on slots are read as those slots. -/
theorem reads_slotTokens (slot : Nat) (rest : List Token) :
    Reads readArgs (Statement.slotTokens slot ++ .semicolon :: rest) [⟨"q", some slot⟩]
      (.semicolon :: rest) :=
  Reads.bind (Reads.readArg_index "q" slot) (Reads.readMoreArgs_none _ (by decide))

theorem reads_slotTokens_pair (first second : Nat) (rest : List Token) :
    Reads readArgs (Statement.slotTokens first ++
        .comma :: (Statement.slotTokens second ++ .semicolon :: rest))
      [⟨"q", some first⟩, ⟨"q", some second⟩] (.semicolon :: rest) :=
  Reads.bind (Reads.readArg_index "q" first) <|
    Reads.readMoreArgs_comma (Reads.readArg_index "q" second)
      (Reads.readMoreArgs_none _ (by decide))

section Reading

variable {draft result : Draft} {width : Nat} {rest : List Token}

/-- A statement adds the operation it stands for. -/
theorem drafts_statement (holds : HoldsRegisters draft width) {statement : Statement}
    (inRange : statement.InRange width)
    (others : Drafts (draft.append [statement.op]) rest result) :
    Drafts draft (statement.tokens ++ rest) result := by
  cases statement with
  | flip slot =>
      have applied : draft.applyGate "x" .x [⟨"q", some slot⟩] =
          .ok (draft.append [.gate .x [slot]]) :=
        holds.applyGate "x" .x [slot] rfl (by simp) (List.forall_mem_singleton.2 inRange)
      exact Drafts.cons (fun _ =>
        Reads.readGate (by decide) rfl (reads_slotTokens slot rest) applied) others
  | superpose slot =>
      have applied : draft.applyGate "h" .h [⟨"q", some slot⟩] =
          .ok (draft.append [.gate .h [slot]]) :=
        holds.applyGate "h" .h [slot] rfl (by simp) (List.forall_mem_singleton.2 inRange)
      exact Drafts.cons (fun _ =>
        Reads.readGate (by decide) rfl (reads_slotTokens slot rest) applied) others
  | entangle control target =>
      obtain ⟨rfl, positive, below⟩ := inRange
      have applied : draft.applyGate "cx" .cx [⟨"q", some 0⟩, ⟨"q", some target⟩] =
          .ok (draft.append [.gate .cx [0, target]]) :=
        holds.applyGate "cx" .cx [0, target] rfl (by simp; omega) (by simp; omega)
      exact Drafts.cons (fun _ =>
        Reads.readGate (by decide) rfl (reads_slotTokens_pair 0 target rest) applied) others

/-- Statements add their operations in order. -/
theorem drafts_statements {code : List Statement} (holds : HoldsRegisters draft width)
    (inRange : ∀ statement ∈ code, statement.InRange width)
    (others : Drafts (draft.append (code.map Statement.op)) rest result) :
    Drafts draft (code.flatMap Statement.tokens ++ rest) result := by
  induction code generalizing draft with
  | nil => simpa [Builder.append] using others
  | cons statement code ih =>
      rw [List.flatMap_cons, List.append_assoc]
      refine drafts_statement holds (inRange statement (by simp)) ?_
      refine ih (holds.append _) (fun other member => inRange other (by simp [member])) ?_
      simpa [Builder.append] using others

theorem reads_register {kind : RegisterKind} {name : String} {size : Nat}
    (declared : draft.declare kind name size = .ok result) :
    Reads (readRegister kind draft)
      (.identifier name :: .leftBracket :: .int size :: .rightBracket :: .semicolon :: rest)
      result rest :=
  Reads.bind (Reads.identifier name) <| Reads.bind (Reads.expect .leftBracket) <|
    Reads.bind (Reads.integer size) <| Reads.bind (Reads.expect .rightBracket) <|
      Reads.bind (Reads.expect .semicolon) (Reads.lift declared)

theorem reads_measure (holds : HoldsRegisters draft width) :
    Reads (readMeasure draft)
      (.identifier "q" :: .arrow :: .identifier "c" :: .semicolon :: rest)
      (draft.append ((List.range width).map fun slot => .measure slot slot)) rest :=
  Reads.bind (Reads.readArg_whole "q" (by decide)) <| Reads.bind (Reads.expect .arrow) <|
    Reads.bind (Reads.readArg_whole "c" (by decide)) <|
      Reads.bind (Reads.expect .semicolon) (Reads.liftExcept holds.measure)

end Reading

namespace Lowering

/-- The tokens of the lines before the statements. -/
def openingTokens (width : Nat) : List Token :=
  [.openQasm, .float (floatValue ['2'] ['0'] none), .semicolon,
    .inclusion, .string "qelib1.inc", .semicolon,
    .qreg, .identifier "q", .leftBracket, .int width, .rightBracket, .semicolon,
    .creg, .identifier "c", .leftBracket, .int width, .rightBracket, .semicolon]

/-- The tokens of the closing measurement. -/
def closingTokens : List Token :=
  [.measure, .identifier "q", .arrow, .identifier "c", .semicolon]

theorem toList_unlines (lines : List String) :
    (unlines lines).toList = lines.flatMap fun line => line.toList ++ ['\n'] := by
  simp [unlines, List.flatMap_map, String.toList_append]

end Lowering

section Scanning

variable {rest : List Char} {tokens : List Token}

theorem scans_version (others : Scans rest tokens) :
    Scans ("OPENQASM 2.0;".toList ++ rest)
      (.openQasm :: .float (floatValue ['2'] ['0'] none) :: .semicolon :: tokens) := by
  have ended : Scans (';' :: rest) (.semicolon :: tokens) := Scans.mark rfl others
  have version : Scans ('2' :: '.' :: '0' :: ';' :: rest)
      (.float (floatValue ['2'] ['0'] none) :: .semicolon :: tokens) := Scans.token rfl ended
  have named : Scans ('O' :: (['P', 'E', 'N', 'Q', 'A', 'S', 'M'] ++
        ' ' :: '2' :: '.' :: '0' :: ';' :: rest))
      (.openQasm :: .float (floatValue ['2'] ['0'] none) :: .semicolon :: tokens) :=
    Scans.word rfl rfl (by simp [Ends, isWordChar]) (Scans.blank rfl version)
  simpa using named

theorem scans_inclusion (others : Scans rest tokens) :
    Scans ("include \"qelib1.inc\";".toList ++ rest)
      (.inclusion :: .string "qelib1.inc" :: .semicolon :: tokens) := by
  have ended : Scans (';' :: rest) (.semicolon :: tokens) := Scans.mark rfl others
  have path : Scans ('"' :: (['q', 'e', 'l', 'i', 'b', '1', '.', 'i', 'n', 'c'] ++
        '"' :: ';' :: rest))
      (.string "qelib1.inc" :: .semicolon :: tokens) := Scans.string rfl ended
  have named : Scans ('i' :: (['n', 'c', 'l', 'u', 'd', 'e'] ++
        ' ' :: '"' :: (['q', 'e', 'l', 'i', 'b', '1', '.', 'i', 'n', 'c'] ++ '"' :: ';' :: rest)))
      (.inclusion :: .string "qelib1.inc" :: .semicolon :: tokens) :=
    Scans.word rfl rfl (by simp [Ends, isWordChar]) (Scans.blank rfl path)
  simpa using named

theorem scans_quantumRegister {width : Nat} (small : width < UInt64.size)
    (others : Scans rest tokens) :
    Scans (("qreg q[" ++ toString width ++ "];").toList ++ rest)
      (.qreg :: .identifier "q" :: .leftBracket :: .int width :: .rightBracket :: .semicolon ::
        tokens) := by
  have ended : Scans (';' :: rest) (.semicolon :: tokens) := Scans.mark rfl others
  have named : Scans ('q' :: (['r', 'e', 'g'] ++
        ' ' :: 'q' :: '[' :: (Nat.toDigits 10 width ++ ']' :: ';' :: rest)))
      (.qreg :: .identifier "q" :: .leftBracket :: .int width :: .rightBracket :: .semicolon ::
        tokens) :=
    Scans.word rfl rfl (by simp [Ends, isWordChar])
      (Scans.blank rfl (scans_position rfl small ended))
  simpa [String.toList_append] using named

theorem scans_classicalRegister {width : Nat} (small : width < UInt64.size)
    (others : Scans rest tokens) :
    Scans (("creg c[" ++ toString width ++ "];").toList ++ rest)
      (.creg :: .identifier "c" :: .leftBracket :: .int width :: .rightBracket :: .semicolon ::
        tokens) := by
  have ended : Scans (';' :: rest) (.semicolon :: tokens) := Scans.mark rfl others
  have named : Scans ('c' :: (['r', 'e', 'g'] ++
        ' ' :: 'c' :: '[' :: (Nat.toDigits 10 width ++ ']' :: ';' :: rest)))
      (.creg :: .identifier "c" :: .leftBracket :: .int width :: .rightBracket :: .semicolon ::
        tokens) :=
    Scans.word rfl rfl (by simp [Ends, isWordChar])
      (Scans.blank rfl (scans_position rfl small ended))
  simpa [String.toList_append] using named

theorem scans_measurement (others : Scans rest tokens) :
    Scans ("measure q -> c;".toList ++ rest) (Lowering.closingTokens ++ tokens) := by
  have bits : Scans ('c' :: ';' :: rest) (.identifier "c" :: .semicolon :: tokens) :=
    Scans.mark rfl (Scans.mark rfl others)
  have arrow : Scans ('-' :: '>' :: ' ' :: 'c' :: ';' :: rest)
      (.arrow :: .identifier "c" :: .semicolon :: tokens) :=
    Scans.token rfl (Scans.blank rfl bits)
  have slots : Scans ('q' :: ' ' :: '-' :: '>' :: ' ' :: 'c' :: ';' :: rest)
      (.identifier "q" :: .arrow :: .identifier "c" :: .semicolon :: tokens) :=
    Scans.mark rfl (Scans.blank rfl arrow)
  have named : Scans ('m' :: (['e', 'a', 's', 'u', 'r', 'e'] ++
        ' ' :: 'q' :: ' ' :: '-' :: '>' :: ' ' :: 'c' :: ';' :: rest))
      (Lowering.closingTokens ++ tokens) :=
    Scans.word rfl rfl (by simp [Ends, isWordChar]) (Scans.blank rfl slots)
  simpa using named

/-- Statements, one a line, scan to their tokens. -/
theorem scans_statements {code : List Statement} {width : Nat}
    (inRange : ∀ statement ∈ code, statement.InRange width) (small : width < UInt64.size)
    (others : Scans rest tokens) :
    Scans ((code.map Statement.text).flatMap (fun line => line.toList ++ ['\n']) ++ rest)
      (code.flatMap Statement.tokens ++ tokens) := by
  induction code with
  | nil => exact others
  | cons statement code ih =>
      have following := ih fun other member => inRange other (by simp [member])
      have line := scans_statement (inRange statement (by simp)) small following.newline
      simpa using line

end Scanning

/-- The text of a program scans to the tokens of its lines. -/
theorem Lowering.scans_render (lowering : Lowering) {code : List Statement}
    (inRange : ∀ statement ∈ code, statement.InRange lowering.width)
    (small : lowering.width < UInt64.size) :
    Scans (lowering.render code).toList
      (openingTokens lowering.width ++ (code.flatMap Statement.tokens ++ closingTokens)) := by
  have last : Scans ("measure q -> c;".toList ++ ['\n']) (closingTokens ++ []) :=
    scans_measurement Scans.nil.newline
  have statements := scans_statements inRange small last
  have bits := scans_classicalRegister small statements.newline
  have slots := scans_quantumRegister small bits.newline
  have included := scans_inclusion slots.newline
  have version := scans_version included.newline
  simpa [render, toList_unlines, opening, closing, openingTokens] using version

/-- The draft of a program after its register lines. -/
def registersDraft (width : Nat) : Draft where
  quantum := FiniteMap.empty.insert "q" ⟨0, width⟩
  classical := FiniteMap.empty.insert "c" ⟨0, width⟩
  circuit := ⟨width, width, []⟩

theorem holdsRegisters_registersDraft (width : Nat) :
    HoldsRegisters (registersDraft width) width :=
  ⟨by simp [registersDraft, FiniteMap.get?_insert], by simp [registersDraft, FiniteMap.get?_insert]⟩

theorem reads_header (rest : List Token) :
    Reads readHeader
      (.openQasm :: .float (floatValue ['2'] ['0'] none) :: .semicolon :: rest) () rest := by
  have supported : isSupportedVersion (.float (floatValue ['2'] ['0'] none)) = true := by
    decide +kernel
  have version : Reads readVersion
      (.float (floatValue ['2'] ['0'] none) :: .semicolon :: rest) () (.semicolon :: rest) := by
    refine Reads.bind (Reads.next _ _) ?_
    rw [if_pos supported]
    exact Reads.pure ()
  exact Reads.bind (Reads.expect .openQasm) <| Reads.bind version (Reads.expect .semicolon)

theorem drafts_registers {width : Nat} {rest : List Token} {result : Draft}
    (small : width < UInt64.size) (others : Drafts (registersDraft width) rest result) :
    Drafts .empty
      (.inclusion :: .string "qelib1.inc" :: .semicolon ::
        .qreg :: .identifier "q" :: .leftBracket :: .int width :: .rightBracket :: .semicolon ::
        .creg :: .identifier "c" :: .leftBracket :: .int width :: .rightBracket :: .semicolon ::
        rest) result := by
  have quantum : (Builder.empty : Draft).declare .quantum "q" width =
      .ok ⟨FiniteMap.empty.insert "q" ⟨0, width⟩, .empty, ⟨width, 0, []⟩⟩ := by
    simp [Builder.declare, Builder.empty, FiniteMap.contains, small]
  have classical : Builder.declare
      (⟨FiniteMap.empty.insert "q" ⟨0, width⟩, .empty, ⟨width, 0, []⟩⟩ : Draft) .classical "c"
      width = .ok (registersDraft width) := by
    simp [Builder.declare, FiniteMap.contains, FiniteMap.get?_insert, small, registersDraft]
  refine Drafts.cons (fun _ => Reads.bind (Reads.next _ _) <|
    Reads.bind (Reads.expect .semicolon) (Reads.pure _)) ?_
  refine Drafts.cons (fun _ => reads_register quantum) ?_
  exact Drafts.cons (fun _ => reads_register classical) others

theorem drafts_measurement {draft : Draft} {width : Nat} (holds : HoldsRegisters draft width) :
    Drafts draft Lowering.closingTokens
      (draft.append ((List.range width).map fun slot => .measure slot slot)) :=
  Drafts.cons (fun _ => reads_measure holds) (Drafts.nil _)

/-- The circuit that statements over a number of slots stand for, all slots measured at the end. -/
def circuitOf {ρ : Type} (width : Nat) (code : List Statement) : Circuit ρ where
  qubits := width
  clbits := width
  ops := code.map Statement.op ++ (List.range width).map fun slot => .measure slot slot

theorem Statement.map_op {ρ τ : Type} (convert : ρ → τ) (statement : Statement) :
    (statement.op : Op ρ).map convert = statement.op := by
  cases statement <;> rfl

theorem map_circuitOf {ρ τ : Type} (convert : ρ → τ) (width : Nat) (code : List Statement) :
    (circuitOf width code : Circuit ρ).map convert = circuitOf width code := by
  have measured : ∀ slot, (Op.measure slot slot : Op ρ).map convert = .measure slot slot :=
    fun _ => rfl
  simp [circuitOf, Circuit.map, Function.comp_def, Statement.map_op, measured]

namespace Lowering

/-- The tokens of a program are read as the circuit of its statements. -/
theorem ofTokens_eq_circuitOf {width : Nat} {code : List Statement} {spans : List Spanned}
    (inRange : ∀ statement ∈ code, statement.InRange width) (small : width < UInt64.size)
    (written : spans.map Spanned.token =
      openingTokens width ++ (code.flatMap Statement.tokens ++ closingTokens)) :
    ofTokens spans = .ok (circuitOf width code) := by
  have holds := holdsRegisters_registersDraft width
  have last := drafts_measurement (holds.append (code.map Statement.op))
  have statements := drafts_registers small (drafts_statements holds inRange last)
  obtain ⟨cursor, header, standing⟩ := reads_header _ ⟨1, spans⟩ written
  rw [ofTokens, header]
  simp only [statements cursor standing]
  simp [Builder.append, registersDraft, circuitOf]

/-- The text of a program parses to the circuit of its statements. -/
theorem parse_render (lowering : Lowering) {code : List Statement}
    (inRange : ∀ statement ∈ code, statement.InRange lowering.width)
    (small : lowering.width < UInt64.size) :
    parse (lowering.render code) = .ok (circuitOf lowering.width code) := by
  obtain ⟨spans, scanned, written⟩ := lowering.scans_render inRange small 0 1
  rw [parse, tokenize, scanned]
  simp only [ofTokens_eq_circuitOf inRange small written, map_circuitOf]

theorem width_evaluator_of_new {pool : IndexPool} {var : Name} {evaluator : Evaluator}
    {indexes : List Nat} {lowering : Lowering} (held : pool.indexesOf? var = some indexes)
    (built : Lowering.new pool var evaluator = .ok lowering) :
    lowering.width = indexes.length ∧ lowering.evaluator = evaluator := by
  simp only [Lowering.new, held] at built
  cases built
  exact ⟨rfl, rfl⟩

/--
The parser accepts every lowered program and reads each statement as the
operation it stands for, on slots of the variable, with all slots measured at
the end into the bits of the same numbers.
-/
theorem parse_program {pool : IndexPool} {var : Name} {evaluator : Evaluator}
    {indexes : List Nat} {lowering : Lowering} {block : Block} {text : String}
    (held : pool.indexesOf? var = some indexes) (small : indexes.length < 2 ^ 64)
    (built : Lowering.new pool var evaluator = .ok lowering)
    (generated : lowering.program block = .ok text) :
    ∃ code : List Statement,
      lowering.lowerBlock block = .ok code ∧
      text = unlines (lowering.opening ++ code.map Statement.text ++ closing) ∧
      (∀ statement ∈ code, statement.InRange indexes.length) ∧
      ∃ circuit, parse text = .ok circuit ∧
        circuit.qubits = indexes.length ∧ circuit.clbits = indexes.length ∧
        circuit.ops = code.map Statement.op ++
          (List.range indexes.length).map fun slot => .measure slot slot := by
  obtain ⟨width, -⟩ := width_evaluator_of_new held built
  obtain ⟨code, lowered, rendered⟩ := exists_of_bind_eq_ok generated
  cases rendered
  have inRange := (realizes_lowerBlock lowered).inRange
  have parsed := lowering.parse_render inRange (by rw [width]; exact small)
  rw [width] at inRange parsed
  exact ⟨code, lowered, rfl, inRange, _, parsed, rfl, rfl, rfl⟩

/-- A variable that holds the first three of four indices. -/
def samplePool : IndexPool :=
  ((IndexPool.new 4).request (.ofLeaf "@v") 3).2

/-- A host that knows one symbol, the basis state two. -/
def sampleEvaluator : Evaluator :=
  .ofBindings (FiniteMap.empty.insert (.ofLeaf "@two") (.core (.quantum 2 (.ofLeaf "@u3"))))

/-- Prepare the symbol, flip every slot and entangle them. -/
def sampleBlock : Block where
  flag := .instrBlock
  items := [.block .instrBlock [.instr ⟨.ofLeaf "@sync",
    [.instr (.ofLeaf "@not") [.symbol (.ofLeaf "@two")] .call], .call⟩]]

/-- The lowering of the sample variable. -/
def sampleLowering : Lowering :=
  ⟨.ofLeaf "@v", [0, 1, 2], sampleEvaluator⟩

/-- The code of the sample block. -/
def sampleCode : List Statement :=
  [.flip 1, .flip 0, .flip 1, .flip 2, .entangle 0 1, .entangle 0 2]

theorem new_samplePool :
    Lowering.new samplePool (.ofLeaf "@v") sampleEvaluator = .ok sampleLowering := by
  rfl

theorem program_sampleBlock :
    sampleLowering.program sampleBlock = .ok (sampleLowering.render sampleCode) := by
  rfl

/-- Both instructions of a nested block are read back, the literal first. -/
theorem parse_program_sample :
    sampleLowering.program sampleBlock = .ok (sampleLowering.render sampleCode) ∧
      ∃ code : List Statement,
        sampleLowering.lowerBlock sampleBlock = .ok code ∧
        sampleLowering.render sampleCode =
          unlines (sampleLowering.opening ++ code.map Statement.text ++ closing) ∧
        (∀ statement ∈ code, statement.InRange 3) ∧
        ∃ circuit, parse (sampleLowering.render sampleCode) = .ok circuit ∧
          circuit.qubits = 3 ∧ circuit.clbits = 3 ∧
          circuit.ops = code.map Statement.op ++
            (List.range 3).map fun slot => .measure slot slot :=
  ⟨program_sampleBlock,
    @parse_program samplePool (.ofLeaf "@v") sampleEvaluator [0, 1, 2] sampleLowering sampleBlock
      (sampleLowering.render sampleCode) rfl (by decide) new_samplePool program_sampleBlock⟩

end Lowering

end HybridQuantum
