import HybridQuantum.Circuit.Scanner
import Mathlib.Algebra.Group.Nat.Defs

/-!
# Scanning written tokens

A text that is written token by token scans back to those tokens.  `Scans`
forgets offsets and lines, so what a text scans to can be put together from the
left: a gap adds nothing, a token adds itself, and a word or a number is cut off
where its characters end.
-/

namespace HybridQuantum.Circuit

/-- A text scans to tokens, wherever it stands. -/
def Scans (text : List Char) (tokens : List Token) : Prop :=
  ∀ offset line, ∃ spans, scanFrom offset line text = .ok spans ∧
    spans.map Spanned.token = tokens

namespace Scans

theorem nil : Scans [] [] := by
  intro offset line
  exact ⟨[], by rw [scanFrom], rfl⟩

/-- A blank or a comment adds no token. -/
theorem gap {first : Char} {rest : List Char} {extra : Nat} {tokens : List Token}
    (step : scanStep first rest = ⟨.gap, extra⟩)
    (others : Scans (rest.drop extra) tokens) : Scans (first :: rest) tokens := by
  intro offset line
  obtain ⟨spans, scanned, same⟩ := others
    (offset + byteLength (first :: rest.take extra)) (line + newlines (first :: rest.take extra))
  refine ⟨spans, ?_, same⟩
  rw [scanFrom, step]
  exact scanned

/-- A token stands in front of the tokens of what follows it. -/
theorem token {first : Char} {rest : List Char} {extra : Nat} {token : Token}
    {tokens : List Token} (step : scanStep first rest = ⟨.token token, extra⟩)
    (others : Scans (rest.drop extra) tokens) : Scans (first :: rest) (token :: tokens) := by
  intro offset line
  obtain ⟨spans, scanned, same⟩ := others
    (offset + byteLength (first :: rest.take extra)) (line + newlines (first :: rest.take extra))
  refine ⟨⟨token, line⟩ :: spans, ?_, by rw [List.map_cons, same]⟩
  rw [scanFrom, step]
  simp only [scanned]
  rfl

/-- A token of one character. -/
theorem mark {first : Char} {rest : List Char} {token : Token} {tokens : List Token}
    (step : scanStep first rest = ⟨.token token, 0⟩) (others : Scans rest tokens) :
    Scans (first :: rest) (token :: tokens) :=
  Scans.token step others

theorem blank {first : Char} {rest : List Char} {tokens : List Token}
    (isGap : isBlank first = true) (others : Scans rest tokens) : Scans (first :: rest) tokens := by
  have step : scanStep first rest = ⟨.gap, 0⟩ := by simp [scanStep, isGap]
  exact gap step others

theorem newline {rest : List Char} {tokens : List Token} (others : Scans rest tokens) :
    Scans ('\n' :: rest) tokens :=
  blank rfl others

end Scans

/-- What follows a run of characters does not go on with it. -/
def Ends (goesOn : Char → Bool) (rest : List Char) : Prop :=
  ∀ next ∈ rest.head?, goesOn next = false

theorem takeWhile_append_of_ends {goesOn : Char → Bool} {run rest : List Char}
    (inside : ∀ char ∈ run, goesOn char = true) (ends : Ends goesOn rest) :
    (run ++ rest).takeWhile goesOn = run := by
  rw [List.takeWhile_append_of_pos inside]
  cases rest with
  | nil => simp
  | cons next rest =>
      have stops : goesOn next = false := ends next (by simp)
      simp [stops]

theorem isBlank_eq_false_of_startsWord {char : Char} (starts : startsWord char = true) :
    isBlank char = false := by
  cases blank : isBlank char with
  | false => rfl
  | true =>
      simp only [isBlank, Bool.or_eq_true, beq_iff_eq] at blank
      obtain ((rfl | rfl) | rfl) | rfl := blank <;> revert starts <;> decide

theorem isBlank_eq_false_of_isDigit {char : Char} (digit : char.isDigit = true) :
    isBlank char = false := by
  cases blank : isBlank char with
  | false => rfl
  | true =>
      simp only [isBlank, Bool.or_eq_true, beq_iff_eq] at blank
      obtain ((rfl | rfl) | rfl) | rfl := blank <;> revert digit <;> decide

theorem startsWord_eq_false_of_isDigit {char : Char} (digit : char.isDigit = true) :
    startsWord char = false := by
  obtain ⟨-, atMost⟩ := Char.isDigit_iff_toNat.1 digit
  cases starts : startsWord char with
  | false => rfl
  | true =>
      obtain letter | mark := Bool.or_eq_true_iff.1 starts
      · obtain upper | lower := Bool.or_eq_true_iff.1 letter
        · exact absurd atMost (Nat.not_le_of_lt (Nat.lt_of_lt_of_le (by decide)
            (UInt32.le_iff_toNat_le.1 (of_decide_eq_true upper).1)))
        · exact absurd atMost (Nat.not_le_of_lt (Nat.lt_of_lt_of_le (by decide)
            (UInt32.le_iff_toNat_le.1 (of_decide_eq_true (Bool.and_eq_true_iff.1 lower).1))))
      · obtain rfl := eq_of_beq mark
        exact absurd digit (by decide)

/-- Whether a character goes on with a number after its first digits. -/
def extendsNumber (char : Char) : Bool :=
  char.isDigit || char == '.' || char == 'e' || char == 'E'

/-- A word ends where no word character follows. -/
theorem scanStep_word {first : Char} {more rest : List Char} (starts : startsWord first = true)
    (inside : more.all isWordChar = true) (ends : Ends isWordChar rest) :
    scanStep first (more ++ rest) =
      ⟨.token (.ofWord (String.ofList (first :: more))), more.length⟩ := by
  simp [scanStep, isBlank_eq_false_of_startsWord starts, starts, scanWord,
    takeWhile_append_of_ends (List.all_eq_true.1 inside) ends]

theorem Scans.word {first : Char} {more rest : List Char} {tokens : List Token}
    (starts : startsWord first = true) (inside : more.all isWordChar = true)
    (ends : Ends isWordChar rest) (others : Scans rest tokens) :
    Scans (first :: (more ++ rest)) (.ofWord (String.ofList (first :: more)) :: tokens) :=
  token (scanStep_word starts inside ends) (by simpa using others)

theorem scanNumber_of_ends {first : Char} {more rest : List Char}
    (inside : ∀ char ∈ more, char.isDigit = true) (ends : Ends extendsNumber rest)
    (small : Numeric.digitsValue (first :: more) < UInt64.size) :
    scanNumber first (more ++ rest) =
      ⟨.token (.int (Numeric.digitsValue (first :: more))), more.length⟩ := by
  have run : (more ++ rest).takeWhile Char.isDigit = more := by
    refine takeWhile_append_of_ends inside fun next member => ?_
    have stops := ends next member
    simp only [extendsNumber, Bool.or_eq_false_iff] at stops
    exact stops.1.1.1
  have after : (more ++ rest).drop more.length = rest := List.drop_left
  simp only [scanNumber, run, after]
  cases rest with
  | nil => simp [scanExponent?, small]
  | cons next rest =>
      have stops := ends next (by simp)
      simp only [extendsNumber, Bool.or_eq_false_iff, beq_eq_false_iff_ne] at stops
      obtain ⟨⟨⟨-, notPoint⟩, notSmallMark⟩, notMark⟩ := stops
      have noExponent : scanExponent? (next :: rest) = none := by
        simp [scanExponent?, notSmallMark, notMark]
      rw [noExponent]
      split
      · rename_i tail same
        exact absurd (List.cons.inj same).1 notPoint
      · simp [small]

theorem digitsValue_toDigits (value : Nat) :
    Numeric.digitsValue (Nat.toDigits 10 value) = value :=
  Nat.ofDigitChars_ten_toDigits

/-- A word-sized number in decimal digits ends where nothing goes on with it. -/
theorem exists_scanStep_int {value : Nat} {rest : List Char} (small : value < UInt64.size)
    (ends : Ends extendsNumber rest) :
    ∃ first more, Nat.toDigits 10 value = first :: more ∧
      scanStep first (more ++ rest) = ⟨.token (.int value), more.length⟩ := by
  have digits : ∀ char ∈ Nat.toDigits 10 value, char.isDigit = true := fun char member =>
    Nat.isDigit_of_mem_toDigits (by decide) (by decide) member
  have valueOf := digitsValue_toDigits value
  cases written : Nat.toDigits 10 value with
  | nil => exact absurd written Nat.toDigits_ne_nil
  | cons first more =>
      rw [written] at digits valueOf
      have digit : first.isDigit = true := digits first (by simp)
      have inside : ∀ char ∈ more, char.isDigit = true := fun char member =>
        digits char (by simp [member])
      have number := scanNumber_of_ends inside ends (by rw [valueOf]; exact small)
      rw [valueOf] at number
      refine ⟨first, more, rfl, ?_⟩
      simp [scanStep, isBlank_eq_false_of_isDigit digit, startsWord_eq_false_of_isDigit digit,
        digit, number]

/-- A string ends at the first quote behind it. -/
theorem scanStep_string {content : List Char} (rest : List Char)
    (unquoted : content.all (· ≠ '"') = true) :
    scanStep '"' (content ++ '"' :: rest) =
      ⟨.token (.string (String.ofList content)), content.length + 1⟩ := by
  have run : (content ++ '"' :: rest).takeWhile (· ≠ '"') = content :=
    takeWhile_append_of_ends (List.all_eq_true.1 unquoted) (by simp [Ends])
  have opens : isBlank '"' = false ∧ startsWord '"' = false ∧ '"'.isDigit = false := by decide
  simp only [scanStep, opens, Bool.false_eq_true, if_false, scanString, run]
  rw [if_pos (by simp)]

namespace Scans

/-- A word-sized number in decimal digits is read back. -/
theorem int {value : Nat} {rest : List Char} {tokens : List Token}
    (small : value < UInt64.size) (ends : Ends extendsNumber rest) (others : Scans rest tokens) :
    Scans (Nat.toDigits 10 value ++ rest) (.int value :: tokens) := by
  obtain ⟨first, more, written, step⟩ := exists_scanStep_int small ends
  rw [written]
  exact token step (by simpa using others)

/-- A text between quotes is read back. -/
theorem string {content rest : List Char} {tokens : List Token}
    (unquoted : content.all (· ≠ '"') = true) (others : Scans rest tokens) :
    Scans ('"' :: (content ++ '"' :: rest)) (.string (String.ofList content) :: tokens) := by
  refine token (scanStep_string rest unquoted) ?_
  rw [List.drop_length_add_append]
  exact others

end Scans

end HybridQuantum.Circuit
