/-!
# Amplitudes

Complex numbers with floating-point parts, and the rounded length of a vector.
-/

namespace HybridQuantum.Circuit

/-- A complex amplitude. -/
structure Amplitude where
  re : Float
  im : Float
deriving DecidableEq

namespace Amplitude

/-- The amplitude of an impossible basis state. -/
def zero : Amplitude :=
  ⟨0, 0⟩

/-- The amplitude of a certain basis state. -/
def one : Amplitude :=
  ⟨1, 0⟩

instance : Inhabited Amplitude :=
  ⟨zero⟩

instance : Add Amplitude :=
  ⟨fun left right => ⟨left.re + right.re, left.im + right.im⟩⟩

instance : Sub Amplitude :=
  ⟨fun left right => ⟨left.re - right.re, left.im - right.im⟩⟩

instance : Neg Amplitude :=
  ⟨fun amplitude => ⟨-amplitude.re, -amplitude.im⟩⟩

instance : Mul Amplitude :=
  ⟨fun left right =>
    ⟨left.re * right.re - left.im * right.im, left.re * right.im + left.im * right.re⟩⟩

def scale (factor : Float) (amplitude : Amplitude) : Amplitude :=
  ⟨factor * amplitude.re, factor * amplitude.im⟩

def unit : Amplitude :=
  ⟨0, 1⟩

/-- The amplitude of length one at an angle. -/
def phase (angle : Float) : Amplitude :=
  ⟨angle.cos, angle.sin⟩

/-- The square of the length. -/
def weight (amplitude : Amplitude) : Float :=
  amplitude.re * amplitude.re + amplitude.im * amplitude.im

/-- The rounded root of a sum of squares with one correction step, for the longer side first. -/
def correctedRoot (long short : Float) : Float :=
  let root := (long * long + short * short).sqrt
  let (first, second) :=
    if root ≤ 2 * short then
      let delta := root - short
      (long * (2 * delta - long), (delta - 2 * (long - short)) * delta)
    else
      let delta := root - long
      (2 * delta * (long - 2 * short), (4 * delta - short) * short + delta * delta)
  root - (first + second) / (2 * root)

/-- Below this power of two a square may vanish. -/
def tiny : Float :=
  Float.ofBits 0x2340000000000000

/-- Above this power of two a square may overflow. -/
def huge : Float :=
  Float.ofBits 0x5fe0000000000000

/-- The factor between the ordinary range and the extremes. -/
def rescale : Float :=
  Float.ofBits 0x1a70000000000000

/-- A side this much shorter than the other does not count. -/
def negligible : Float :=
  Float.ofBits 0x3c90000000000000

/-- The length of the hypotenuse, scaled where squares would overflow or vanish. -/
def hypotenuse (first second : Float) : Float :=
  let first := first.abs
  let second := second.abs
  let long := if first < second then second else first
  let short := if first < second then first else second
  if first.isInf || second.isInf then Float.ofBits 0x7ff0000000000000
  else if huge < long then
    if short ≤ long * negligible then long + short
    else correctedRoot (long * rescale) (short * rescale) / rescale
  else if short < tiny then
    if short / negligible ≤ long then long + short
    else correctedRoot (long / rescale) (short / rescale) * rescale
  else if short ≤ long * negligible then long + short
  else correctedRoot long short

def length (amplitude : Amplitude) : Float :=
  hypotenuse amplitude.re amplitude.im

end Amplitude

end HybridQuantum.Circuit
