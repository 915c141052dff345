import HybridQuantum.Proofs.Circuit.Scanning

/-!
# Printed tokens

Tokens are printed one behind another, with blanks and comments between any two.
Scanning the text gives the tokens back, each with the line it stands on.  Every
separator begins with a blank, which goes on with no word and no number and makes
neither an arrow of a minus nor a comment of a slash; so each token is cut off where
it was printed.
-/

namespace HybridQuantum.Circuit

/-- The white space between tokens. -/
inductive Blank where
  | space
  | tab
  | carriageReturn
  | newline
deriving DecidableEq

def Blank.char : Blank → Char
  | space => ' '
  | tab => '\t'
  | carriageReturn => '\r'
  | newline => '\n'

/-- A part of what stands between two tokens. -/
inductive GapPart where
  | blank (white : Blank)
  /-- From two slashes to the end of the line. -/
  | comment (content : List Char) (oneLine : '\n' ∉ content)

def GapPart.chars : GapPart → List Char
  | blank white => [white.char]
  | comment content _ => '/' :: '/' :: content ++ ['\n']

/-- What stands between two tokens: a blank, then any blanks and comments. -/
structure Separator where
  first : Blank
  more : List GapPart

def Separator.chars (separator : Separator) : List Char :=
  separator.first.char :: separator.more.flatMap GapPart.chars

/-- A token with the separator behind it. -/
structure PrintedToken where
  token : Token
  separator : Separator

def PrintedToken.chars (printed : PrintedToken) : List Char :=
  printed.token.text.toList ++ printed.separator.chars

/-- Tokens joined by their separators; the last separator is left out. -/
def joined : List PrintedToken → List Char
  | [] => []
  | [last] => last.token.text.toList
  | printed :: next :: row => printed.chars ++ joined (next :: row)

/-- What stands before the token at a position. -/
def textBefore (row : List PrintedToken) (position : Nat) : List Char :=
  (row.take position).flatMap PrintedToken.chars

/--
The tokens whose texts are read back: names are words and no keywords, strings have no
quotes inside, integers fit in 64 bits.  Floats are left out.
-/
def Token.IsPlain : Token → Prop
  | float _ => False
  | int value => value < 2 ^ 64
  | string content => '"' ∉ content.toList
  | identifier name =>
      (∃ first more, name.toList = first :: more ∧ (first.isAlpha ∨ first = '_') ∧
        ∀ char ∈ more, char.isAlpha ∨ char.isDigit ∨ char = '_') ∧
      name ∉ ["OPENQASM", "include", "qreg", "creg", "measure", "reset", "barrier", "pi"]
  | _ => True

section Cuts

variable {first : Char} {more rest : List Char} {offset line : Nat}

theorem scanFrom_gap (step : scanStep first (more ++ rest) = ⟨.gap, more.length⟩) :
    scanFrom offset line (first :: (more ++ rest)) =
      scanFrom (offset + byteLength (first :: more)) (line + newlines (first :: more)) rest := by
  rw [scanFrom, step]
  simp

theorem scanFrom_token {token : Token} {spans : List Spanned}
    (step : scanStep first (more ++ rest) = ⟨.token token, more.length⟩)
    (others : scanFrom (offset + byteLength (first :: more)) (line + newlines (first :: more))
      rest = .ok spans) :
    scanFrom offset line (first :: (more ++ rest)) = .ok (⟨token, line⟩ :: spans) := by
  rw [scanFrom, step]
  simp only [List.drop_left, List.take_left, others]
  rfl

end Cuts

section Skipping

theorem byteLength_append (first second : List Char) :
    byteLength (first ++ second) = byteLength first + byteLength second := by
  rw [byteLength, String.ofList_append, String.utf8ByteSize_append]
  rfl

theorem newlines_append (first second : List Char) :
    newlines (first ++ second) = newlines first + newlines second :=
  List.count_append

/-- These characters are scanned without a token, whatever follows. -/
def IsSkipped (gap : List Char) : Prop :=
  ∀ offset line rest, scanFrom offset line (gap ++ rest) =
    scanFrom (offset + byteLength gap) (line + newlines gap) rest

namespace IsSkipped

theorem append {first second : List Char} (firstSkipped : IsSkipped first)
    (secondSkipped : IsSkipped second) : IsSkipped (first ++ second) := by
  intro offset line rest
  rw [List.append_assoc, firstSkipped, secondSkipped, byteLength_append, newlines_append,
    Nat.add_assoc, Nat.add_assoc]

theorem flatMap {α : Type} {chars : α → List Char} (skipped : ∀ part, IsSkipped (chars part))
    (parts : List α) : IsSkipped (parts.flatMap chars) := by
  induction parts with
  | nil => exact fun _ _ _ => rfl
  | cons part parts ih =>
      rw [List.flatMap_cons]
      exact (skipped part).append ih

theorem blank (blank : Blank) : IsSkipped [blank.char] := by
  intro offset line rest
  have step : scanStep blank.char ([] ++ rest) = ⟨.gap, 0⟩ := by cases blank <;> rfl
  exact scanFrom_gap step

/-- A comment is skipped with the end of its line, which the scanner takes as a second gap. -/
theorem comment {content : List Char} (oneLine : '\n' ∉ content) :
    IsSkipped ('/' :: '/' :: content ++ ['\n']) := by
  intro offset line rest
  have inside : ∀ char ∈ content, decide (char ≠ '\n') = true := fun char member =>
    decide_eq_true fun same => oneLine (same ▸ member)
  have run : (content ++ '\n' :: rest).takeWhile (· ≠ '\n') = content :=
    takeWhile_append_of_ends inside (by simp [Ends])
  have opens : isBlank '/' = false ∧ startsWord '/' = false ∧ '/'.isDigit = false := by decide
  have step : scanStep '/' (('/' :: content) ++ '\n' :: rest) =
      ⟨.gap, ('/' :: content).length⟩ := by
    simp only [scanStep, opens, Bool.false_eq_true, if_false, List.cons_append, run,
      List.length_cons, Nat.add_comm]
  rw [List.append_assoc]
  refine (scanFrom_gap step).trans ?_
  rw [byteLength_append, newlines_append, ← Nat.add_assoc, ← Nat.add_assoc]
  exact blank .newline _ _ _

end IsSkipped

theorem GapPart.isSkipped (part : GapPart) : IsSkipped part.chars := by
  cases part with
  | blank white => exact .blank white
  | comment _ oneLine => exact .comment oneLine

theorem Separator.isSkipped (separator : Separator) : IsSkipped separator.chars :=
  (IsSkipped.blank separator.first).append (.flatMap GapPart.isSkipped separator.more)

end Skipping

section Tokens

variable {rest : List Char}

/-- Nothing follows, or a blank. -/
def IsSeparated (rest : List Char) : Prop :=
  ∀ next ∈ rest.head?, ∃ blank : Blank, next = blank.char

theorem IsSeparated.nil : IsSeparated [] := by simp [IsSeparated]

theorem Separator.isSeparated (separator : Separator) :
    IsSeparated (separator.chars ++ rest) := by
  rintro next ⟨⟩
  exact ⟨separator.first, rfl⟩

theorem IsSeparated.ends {goesOn : Char → Bool} (separated : IsSeparated rest)
    (stops : ∀ blank : Blank, goesOn blank.char = false) : Ends goesOn rest := by
  intro next member
  obtain ⟨blank, rfl⟩ := separated next member
  exact stops blank

/-- A text is cut off as a token from what follows it. -/
def IsCutAs (text rest : List Char) (token : Token) : Prop :=
  ∃ first more, text = first :: more ∧
    scanStep first (more ++ rest) = ⟨.token token, more.length⟩

theorem isCutAs_word {word : String} (separated : IsSeparated rest)
    (shape : ∃ first more, word.toList = first :: more ∧ startsWord first = true ∧
      more.all isWordChar = true) : IsCutAs word.toList rest (.ofWord word) := by
  obtain ⟨first, more, written, starts, inside⟩ := shape
  have ends : Ends isWordChar rest := separated.ends fun blank => by cases blank <;> rfl
  have step := scanStep_word starts inside ends
  rw [← written, String.ofList_toList] at step
  exact ⟨first, more, written, step⟩

theorem isCutAs_int {value : Nat} (small : value < 2 ^ 64) (separated : IsSeparated rest) :
    IsCutAs (toString value).toList rest (.int value) := by
  have ends : Ends extendsNumber rest := separated.ends fun blank => by cases blank <;> rfl
  rw [Nat.toString_eq_ofList_toDigits, String.toList_ofList]
  exact exists_scanStep_int small ends

theorem isCutAs_string {content : String} (unquoted : '"' ∉ content.toList) :
    IsCutAs ("\"" ++ content ++ "\"").toList rest (.string content) := by
  have inside : content.toList.all (· ≠ '"') = true :=
    List.all_eq_true.2 fun char member => decide_eq_true fun same => unquoted (same ▸ member)
  have step := scanStep_string rest inside
  rw [String.ofList_toList] at step
  refine ⟨'"', content.toList ++ ['"'], by simp [String.toList_append], ?_⟩
  simpa using step

theorem ofWord_eq_identifier {name : String}
    (free : name ∉ ["OPENQASM", "include", "qreg", "creg", "measure", "reset", "barrier", "pi"]) :
    Token.ofWord name = .identifier name := by
  have unknown : Token.keywords.lookup name = none := by
    simpa [Token.keywords, List.lookup_eq_none_iff] using free
  rw [Token.ofWord, unknown]
  rfl

/-- A mark is no beginning of a longer token where a blank follows. -/
theorem isCutAs_mark {first : Char} {token : Token}
    (step : ∀ blank : Blank, ∀ more, scanStep first (blank.char :: more) = ⟨.token token, 0⟩)
    (last : scanStep first [] = ⟨.token token, 0⟩) (separated : IsSeparated rest) :
    IsCutAs [first] rest token := by
  refine ⟨first, [], rfl, ?_⟩
  cases rest with
  | nil => exact last
  | cons next more =>
      obtain ⟨blank, rfl⟩ := separated next rfl
      exact step blank more

theorem Token.IsPlain.isCutAs {token : Token} (plain : token.IsPlain)
    (separated : IsSeparated rest) : IsCutAs token.text.toList rest token := by
  cases token with
  | float _ => exact plain.elim
  | int value => exact isCutAs_int plain separated
  | string content => exact isCutAs_string plain
  | identifier name =>
      obtain ⟨⟨first, more, written, starts, inside⟩, free⟩ := plain
      have starting : startsWord first = true := by simpa [startsWord] using starts
      have going : more.all isWordChar = true := by
        simpa [isWordChar, Char.isAlphanum, or_assoc] using inside
      have cut : IsCutAs name.toList rest (.ofWord name) :=
        isCutAs_word separated ⟨first, more, written, starting, going⟩
      rw [ofWord_eq_identifier free] at cut
      exact cut
  | openQasm | inclusion | qreg | creg | measure | reset | barrier | pi =>
      exact isCutAs_word separated ⟨_, _, rfl, rfl, rfl⟩
  | arrow => exact ⟨'-', ['>'], rfl, rfl⟩
  | plus | minus | star | slash | caret | leftParen | rightParen | leftBracket | rightBracket
  | semicolon | comma =>
      exact isCutAs_mark (fun blank more => by cases blank <;> rfl) rfl separated

end Tokens

section Rows

variable {row : List PrintedToken}

theorem textBefore_succ (printed : PrintedToken) (row : List PrintedToken) (position : Nat) :
    textBefore (printed :: row) (position + 1) = printed.chars ++ textBefore row position :=
  rfl

theorem joined_cons (printed : PrintedToken) (nonempty : row ≠ []) :
    joined (printed :: row) = printed.chars ++ joined row := by
  cases row with
  | nil => exact absurd rfl nonempty
  | cons next row => rfl

theorem joined_eq_textBefore_append {position : Nat} (inside : position < row.length) :
    joined row = textBefore row position ++ joined (row.drop position) := by
  induction row generalizing position with
  | nil => simp at inside
  | cons printed row ih =>
      cases position with
      | zero => rfl
      | succ position =>
          have remains : position < row.length := Nat.lt_of_succ_lt_succ inside
          rw [joined_cons printed (List.ne_nil_of_length_pos (by omega)), ih remains,
            textBefore_succ, List.append_assoc]
          rfl

/-- The tokens of a row, each with the line it stands on when the row starts on this line. -/
def locate (line : Nat) (row : List PrintedToken) : List Spanned :=
  row.mapIdx fun position printed => ⟨printed.token, line + newlines (textBefore row position)⟩

theorem locate_cons (line : Nat) (printed : PrintedToken) (row : List PrintedToken) :
    locate line (printed :: row) =
      ⟨printed.token, line⟩ :: locate (line + newlines printed.chars) row := by
  simp only [locate, List.mapIdx_cons, textBefore_succ, newlines_append, Nat.add_assoc]
  rfl

theorem scanFrom_text {token : Token} {rest : List Char} {offset line : Nat}
    {spans : List Spanned} (plain : token.IsPlain) (separated : IsSeparated rest)
    (others : ∀ offset, scanFrom offset (line + newlines token.text.toList) rest = .ok spans) :
    scanFrom offset line (token.text.toList ++ rest) = .ok (⟨token, line⟩ :: spans) := by
  obtain ⟨first, more, written, step⟩ := plain.isCutAs separated
  rw [written] at others ⊢
  exact scanFrom_token step (others _)

theorem scanFrom_joined (offset line : Nat) (plain : ∀ printed ∈ row, printed.token.IsPlain) :
    scanFrom offset line (joined row) = .ok (locate line row) := by
  induction row generalizing offset line with
  | nil => rw [joined, scanFrom]; rfl
  | cons printed row ih =>
      have own : printed.token.IsPlain := plain printed (by simp)
      have others : ∀ other ∈ row, other.token.IsPlain := fun other member =>
        plain other (by simp [member])
      rw [locate_cons]
      cases row with
      | nil =>
          have last : scanFrom offset line (printed.token.text.toList ++ []) =
              .ok [⟨printed.token, line⟩] :=
            scanFrom_text own .nil fun _ => by rw [scanFrom]
          rw [List.append_nil] at last
          exact last
      | cons next row =>
          rw [joined_cons printed (by simp), PrintedToken.chars, List.append_assoc]
          refine scanFrom_text own printed.separator.isSeparated fun offset => ?_
          rw [printed.separator.isSkipped, ih _ _ others, Nat.add_assoc, ← newlines_append]

/--
Printed tokens scan back to themselves.  Each stands on the line that follows from the
text before it, with the line ends inside strings and comments.
-/
theorem tokenize_joined (row : List PrintedToken)
    (plain : ∀ printed ∈ row, printed.token.IsPlain) :
    tokenize (String.ofList (joined row)) =
        .ok (row.mapIdx fun position printed =>
          ⟨printed.token, 1 + (textBefore row position).count '\n'⟩) ∧
      ∀ position < row.length,
        joined row = textBefore row position ++ joined (row.drop position) := by
  refine ⟨?_, fun position inside => joined_eq_textBefore_append inside⟩
  rw [tokenize, String.toList_ofList]
  exact scanFrom_joined 0 1 plain

/-- A string and a comment over several lines, a name that begins like a keyword, both signs. -/
theorem tokenize_joined_lines :
    tokenize "include \"a\nb\"\t///\"\n\rpix - -> 18446744073709551615" =
      .ok [⟨.inclusion, 1⟩, ⟨.string "a\nb", 1⟩, ⟨.identifier "pix", 3⟩, ⟨.minus, 3⟩,
        ⟨.arrow, 3⟩, ⟨.int 18446744073709551615, 3⟩] := by
  let row : List PrintedToken := [⟨.inclusion, ⟨.space, []⟩⟩,
    ⟨.string "a\nb", ⟨.tab, [.comment ['/', '"'] (by decide), .blank .carriageReturn]⟩⟩,
    ⟨.identifier "pix", ⟨.space, []⟩⟩, ⟨.minus, ⟨.space, []⟩⟩, ⟨.arrow, ⟨.space, []⟩⟩,
    ⟨.int 18446744073709551615, ⟨.space, []⟩⟩]
  have name : (Token.identifier "pix").IsPlain :=
    ⟨⟨'p', ['i', 'x'], rfl, by decide, by simp⟩, by decide⟩
  have plain : ∀ printed ∈ row, printed.token.IsPlain := by
    simp only [row, List.forall_mem_cons]
    exact ⟨trivial, show '"' ∉ _ by decide, name, trivial, trivial,
      show 18446744073709551615 < 2 ^ 64 by decide, by simp⟩
  have text : String.ofList (joined row) =
      "include \"a\nb\"\t///\"\n\rpix - -> 18446744073709551615" := by decide +kernel
  have scanned := (tokenize_joined row plain).1
  rw [text] at scanned
  exact scanned.trans (congrArg Except.ok (by decide +kernel))

end Rows

end HybridQuantum.Circuit
