import HybridQuantum.Cast.Error

/-!
# Conversions without a run

Classical values convert to classical builtins when the target holds them, and
to basis states of a quantum type when its width does.  Numbers are never cut
off or wrapped around.
-/

namespace HybridQuantum

/-- The classical builtins a value converts to. -/
inductive ClassicalType where
  | bool
  | unsigned (width : Nat)
  | int
  | float
  | char
  | str
deriving DecidableEq, Repr

namespace ClassicalType

def all : List (String × ClassicalType) :=
  [("bool", bool), ("u8", unsigned 8), ("u16", unsigned 16), ("u32", unsigned 32),
    ("u64", unsigned 64), ("int", int), ("float", float), ("char", char), ("str", str)]

/-- The classical builtin with a name; only root names are builtins. -/
def ofName? (name : Name) : Option ClassicalType :=
  if name.space.isRoot then all.lookup name.leaf else none

end ClassicalType

def charOfCode? (code : Nat) : Option Char :=
  if code.isValidChar then some (Char.ofNat code) else none

namespace Conversion

/-- The greatest number of a bit width, which a word caps. -/
def maxForWidth (width : Nat) : Nat :=
  (1 <<< min width 64) - 1

/-- The error of a value that has no counterpart. -/
def unsupported (value : Value) (target : Name) (obstacle : Obstacle) : CastError :=
  .unsupported (.value value) target obstacle

/-- The content of a value as a natural number. -/
def natural (value : Value) (target : Name) : Except CastError Nat :=
  match value with
  | .uint number => .ok number.toNat
  | .int number =>
      if 0 ≤ number.toInt then .ok number.toInt.toNat
      else .error (.negativeToUnsigned number target)
  | .bool content => .ok content.toNat
  | .char content => .ok content.toNat
  | .float _ => .error (unsupported value target .floatNotTruncated)
  | .null => .error (unsupported value target .notANumber)
  | .str _ => .error (unsupported value target .notANumber)

/-- The content of a value as a natural number up to a bound. -/
def bounded (value : Value) (target : Name) (max : Nat) : Except CastError Nat := do
  let number ← natural value target
  if max < number then .error (.overflow number target max) else .ok number

/-- A value as a truth value: itself, or a number up to one. -/
def toBool (value : Value) (target : Name) : Except CastError Value :=
  match value with
  | .bool content => .ok (.bool content)
  | other => do
      let number ← bounded other target 1
      return .bool (number == 1)

def toUnsigned (width : Nat) (value : Value) (target : Name) : Except CastError Value := do
  let number ← bounded value target (maxForWidth width)
  return .uint (UInt64.ofNat number)

def toInt (value : Value) (target : Name) : Except CastError Value :=
  match value with
  | .int content => .ok (.int content)
  | other => do
      let number ← bounded other target (Word.signedLimit - 1)
      return .int (Int64.ofInt number)

/-- A number as the nearest float. -/
def toFloat (value : Value) (target : Name) : Except CastError Value :=
  match value with
  | .float content => .ok (.float content)
  | .int content => .ok (.float content.toFloat)
  | .uint content => .ok (.float content.toFloat)
  | other => .error (unsupported other target .notANumber)

/-- A number as the character with that code point. -/
def codeToChar (value : Value) (target : Name) : Except CastError Value := do
  let code ← bounded value target (UInt32.size - 1)
  match charOfCode? code with
  | some char => .ok (.char char)
  | none => .error (unsupported value target .notAScalar)

def toChar (value : Value) (target : Name) : Except CastError Value :=
  match value with
  | .char content => .ok (.char content)
  | .int content => codeToChar (.int content) target
  | .uint content => codeToChar (.uint content) target
  | other => .error (unsupported other target .noCodePoint)

def toStr : Value → Value
  | .str content => .str content
  | .char content => .str content.toString
  | other => .str other.text

def toClassical (value : Value) (target : Name) : Except CastError Value :=
  match ClassicalType.ofName? target with
  | none => .error (unsupported value target .noClassicalBuiltin)
  | some .bool => toBool value target
  | some (.unsigned width) => toUnsigned width value target
  | some .int => toInt value target
  | some .float => toFloat value target
  | some .char => toChar value target
  | some .str => .ok (toStr value)

/-- Encode a value as a basis state of a quantum type that spans `width` indices. -/
def toQuantum (value : Value) (target : Name) (width : Nat) : Except CastError CoreLiteral := do
  let state ← bounded value target (maxForWidth width)
  return .quantum (UInt64.ofNat state) target

end Conversion

end HybridQuantum
