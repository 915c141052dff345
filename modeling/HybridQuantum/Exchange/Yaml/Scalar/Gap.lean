import HybridQuantum.Exchange.Yaml.Cursor

/-!
# Gaps in scalars

Scalars may go on over several lines.  Blanks within a line are kept, blanks
around line breaks are not, and line breaks are folded: one becomes a space, and
of several all but the first are kept.
-/

namespace HybridQuantum.Yaml

/-- What lies between two pieces of a scalar, kept backwards. -/
inductive Gap where
  /-- Blanks within a line. -/
  | blanks (read : List Char)
  /-- Line breaks, the blanks around them left out. -/
  | breaks (read : List Char)
  /-- Line breaks that follow an escaped one. -/
  | escaped (read : List Char)
deriving DecidableEq, Repr

namespace Gap

def none : Gap := .blanks []

def isNone (gap : Gap) : Bool :=
  gap == none

def isBroken : Gap → Bool
  | blanks _ => false
  | _ => true

def pushBlank (char : Char) : Gap → Gap
  | blanks read => blanks (char :: read)
  | gap => gap

def pushBreak (char : Char) : Gap → Gap
  | blanks _ => breaks [char]
  | breaks read => breaks (char :: read)
  | escaped read => escaped (char :: read)

/-- Line breaks as they are read: a line feed in front is folded. -/
def foldBreaks : List Char → List Char
  | ['\n'] => [' ']
  | '\n' :: more => more
  | lines => lines

/-- The text that a gap stands for. -/
def text : Gap → List Char
  | blanks read => read.reverse
  | breaks read => foldBreaks read.reverse
  | escaped read => read.reverse

/-- A text that is kept backwards, with a gap after it. -/
def onto (gap : Gap) (read : List Char) : List Char :=
  gap.text.reverse ++ read

end Gap

end HybridQuantum.Yaml
