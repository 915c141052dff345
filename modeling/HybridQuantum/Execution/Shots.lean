import HybridQuantum.Word

/-!
# Shot policies

How many repetitions a program over a number of quantum indices gets.  A linear
policy is steeper up to a threshold; all its arithmetic saturates.
-/

namespace HybridQuantum

/-- `count * low` shots up to the threshold, `count * high + offset` beyond it. -/
structure LinearShots where
  threshold : UInt32
  perIndexLow : UInt32
  perIndexHigh : UInt32
  offsetHigh : UInt32
deriving DecidableEq, Repr

namespace LinearShots

/-- A thousand shots per index up to twelve, then `550 * count + 12000`. -/
def standard : LinearShots where
  threshold := 12
  perIndexLow := 1000
  perIndexHigh := 550
  offsetHigh := 12000

/-- The estimate for a number of indices. -/
def estimate (policy : LinearShots) (indexCount : Nat) : UInt32 :=
  let count := Word.saturate32 indexCount
  if count ≤ policy.threshold then Word.saturate32 (count.toNat * policy.perIndexLow.toNat)
  else
    let slope := Word.saturate32 (count.toNat * policy.perIndexHigh.toNat)
    Word.saturate32 (slope.toNat + policy.offsetHigh.toNat)

end LinearShots

/-- A choice of policy. -/
inductive ShotsPolicy where
  | linear (policy : LinearShots)
  | fixed (shots : UInt32)
deriving DecidableEq, Repr

namespace ShotsPolicy

def standard : ShotsPolicy :=
  .linear .standard

def estimate : ShotsPolicy → Nat → UInt32
  | linear policy, indexCount => policy.estimate indexCount
  | fixed shots, _ => shots

end ShotsPolicy

end HybridQuantum
