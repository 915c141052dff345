/-!
# Seeded draws

A seed is expanded to a key of eight words by a linear congruence with permuted
output; the key drives a ChaCha generator with twelve rounds.  Draw `n` takes the
`n`-th pair of its output words, so draws are a function of seed and number.
-/

namespace HybridQuantum.Circuit.Random

/-- One step of the congruence. -/
def advance (state : UInt64) : UInt64 :=
  state * 6364136223846793005 + 11634580027462260723

def rotateRight (word amount : UInt32) : UInt32 :=
  if amount = 0 then word else (word >>> amount) ||| (word <<< (32 - amount))

def rotateLeft (word amount : UInt32) : UInt32 :=
  (word <<< amount) ||| (word >>> (32 - amount))

/-- The permuted output of a state. -/
def output (state : UInt64) : UInt32 :=
  rotateRight (((state >>> 18) ^^^ state) >>> 27).toUInt32 (state >>> 59).toUInt32

/-- The outputs of `count` further states. -/
def expand : (count : Nat) → (state : UInt64) → List UInt32
  | 0, _ => []
  | count + 1, state => output (advance state) :: expand count (advance state)

def keyWords (seed : UInt64) : List UInt32 :=
  expand 8 seed

/-- The sixteen words of a generator. -/
abbrev Words := Vector UInt32 16

/-- Mix four words. -/
@[inline]
def quarterRound (a b c d : Fin 16) (words : Words) : Words :=
  let wa := words[a] + words[b]
  let wd := rotateLeft (words[d] ^^^ wa) 16
  let wc := words[c] + wd
  let wb := rotateLeft (words[b] ^^^ wc) 12
  let wa := wa + wb
  let wd := rotateLeft (wd ^^^ wa) 8
  let wc := wc + wd
  let wb := rotateLeft (wb ^^^ wc) 7
  (((words.set a wa).set b wb).set c wc).set d wd

/-- One round on columns and one on diagonals. -/
def doubleRound (words : Words) : Words :=
  let words := quarterRound 0 4 8 12 words
  let words := quarterRound 1 5 9 13 words
  let words := quarterRound 2 6 10 14 words
  let words := quarterRound 3 7 11 15 words
  let words := quarterRound 0 5 10 15 words
  let words := quarterRound 1 6 11 12 words
  let words := quarterRound 2 7 8 13 words
  quarterRound 3 4 9 14 words

/-- The words before the first round: constants, key and block counter. -/
def initialWords (key : List UInt32) (counter : UInt64) : Words :=
  Vector.ofFn fun place =>
    if place.val = 0 then 0x61707865
    else if place.val = 1 then 0x3320646e
    else if place.val = 2 then 0x79622d32
    else if place.val = 3 then 0x6b206574
    else if place.val < 12 then key.getD (place.val - 4) 0
    else if place.val = 12 then counter.toUInt32
    else if place.val = 13 then (counter >>> 32).toUInt32
    else 0

/-- The output words of a block, after six double rounds. -/
def block (key : List UInt32) (counter : UInt64) : Words :=
  let start := initialWords key counter
  let mixed := Nat.repeat doubleRound 6 start
  start.zipWith (· + ·) mixed

/-- The number in `[0, 1)` with 53 binary places from the `number`-th pair of output words. -/
def draw (key : List UInt32) (number : Nat) : Float :=
  let words := block key (UInt64.ofNat (number / 8))
  let place := 2 * (number % 8)
  let low := words.toArray.getD place 0
  let high := words.toArray.getD (place + 1) 0
  let word := low.toUInt64 ||| (high.toUInt64 <<< 32)
  (word >>> 11).toFloat * Float.ofBits 0x3ca0000000000000

end HybridQuantum.Circuit.Random
