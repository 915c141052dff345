import HybridQuantum.Fault
import HybridQuantum.Word

/-!
# Classical and quantum sizes

A classical size is a bit width that is written at most once.  A quantum size
bounds the number of indices a type requires; its upper bound is undefined until
a first finite value is supplied and only grows from then on.
-/

namespace HybridQuantum

/-- A bit width, or none yet. -/
structure Size where
  bits : Option UInt32
deriving DecidableEq, Repr, Inhabited

namespace Size

def unset : Size :=
  ⟨none⟩

def fixed (bits : UInt32) : Size :=
  ⟨some bits⟩

def isSet (size : Size) : Bool :=
  size.bits.isSome

/-- Record a width; a width that is already there is returned as the obstacle. -/
def set (size : Size) (bits : UInt32) : Except UInt32 Size :=
  match size.bits with
  | some current => .error current
  | none => .ok (fixed bits)

/-- A width with its unit. -/
def text (size : Size) : String :=
  match size.bits with
  | some bits => toString bits.toNat ++ " bits"
  | none => "unsized"

end Size

/-- The least and the greatest number of quantum indices a type requires. -/
structure QSize where
  min : UInt32
  max : Option UInt32
deriving DecidableEq, Repr, Inhabited

namespace QSize

/-- The size of a purely classical type: none needed, no upper bound defined. -/
def empty : QSize :=
  ⟨0, none⟩

/-- Exactly `count` indices. -/
def fixed (count : UInt32) : QSize :=
  ⟨count, some count⟩

/-- Raise the lower bound. -/
def raiseMin? (size : QSize) (count : UInt32) : Option QSize :=
  (Word.add32? size.min count).map fun min => { size with min }

/-- Raise the upper bound, counting an undefined one as zero; an undefined raise changes nothing. -/
def raiseMax? (size : QSize) : Option UInt32 → Option QSize
  | none => some size
  | some count =>
      (Word.add32? (size.max.getD 0) count).map fun max => { size with max := some max }

/-- The bounds of two types side by side. -/
def add? (left right : QSize) : Option QSize :=
  (left.raiseMin? right.min).bind fun raised => raised.raiseMax? right.max

def isQuantum (size : QSize) : Bool :=
  0 < size.min || size.max.any (0 < ·)

/-- The number of indices granted to a variable: the upper bound, or the lower when there is none. -/
def width (size : QSize) : UInt32 :=
  size.max.getD size.min

/-- Whether a variable holding `count` indices lies within the bounds. -/
def admits (size : QSize) (count : Nat) : Bool :=
  size.min.toNat ≤ count && count < UInt32.size && size.max.all (count ≤ ·.toNat)

/-- Both bounds, with a blank mark for an undefined one. -/
def text (size : QSize) : String :=
  "QSize(" ++ toString size.min.toNat ++ ", " ++
    (match size.max with
      | some max => toString max.toNat
      | none => "_") ++ ")"

end QSize

end HybridQuantum
