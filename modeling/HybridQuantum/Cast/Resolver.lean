import HybridQuantum.Cast.Spec
import HybridQuantum.Execution.Counts

/-!
# Reducing counts

A resolver keeps the counts, or reduces them to one value: the weighted average
of the bitstrings' ordinals, the most frequent or the least frequent bitstring.
The ordinal of a bitstring is the sum of its characters' code points.
-/

namespace HybridQuantum

/-- What a resolver made of counts. -/
inductive Resolved where
  | distribution (counts : Counts)
  | value (value : Value)

/-- Why a resolver made nothing of counts. -/
inductive ResolveError where
  | empty
  /-- The spec has no value for the outcome. -/
  | unrepresentable (outcome : String) (spec : Spec)
deriving DecidableEq, Repr

namespace ResolveError

def message : ResolveError → String
  | empty => "no measurement outcomes"
  | unrepresentable outcome spec => "outcome '" ++ outcome ++ "' has no " ++ spec.text ++ " value"

end ResolveError

/-- A way of reducing counts for a spec. -/
abbrev Resolver := Counts → Spec → Outcome ResolveError Resolved

namespace Resolver

/-- The negative zero, which sums start from. -/
def sumStart : Float :=
  Float.ofBits 0x8000000000000000

/-- The sum of the code points of a bitstring. -/
def ordinal (bitstring : String) : Float :=
  bitstring.toList.foldl (fun sum char => sum + Float.ofNat char.toNat) sumStart

/-- The average ordinal of counts with a positive total. -/
def average (counts : Counts) (total : UInt64) : Float :=
  counts.entries.foldl (fun sum entry =>
    sum + (entry.2.toFloat / total.toFloat) * ordinal entry.1) sumStart

/-- Keep the counts. -/
def raw : Resolver :=
  fun counts _ => .ok (.distribution counts)

/-- The average ordinal through the spec. -/
def weightedAverage : Resolver :=
  fun counts spec =>
    match counts.total? with
    | none => .error .overflow
    | some total =>
        if total = 0 then .fail .empty
        else
          let mean := average counts total
          match spec.ofNumber? mean with
          | some value => .ok (.value value)
          | none => .fail (.unrepresentable (Numeric.shortestText mean) spec)

/-- A chosen bitstring through the spec. -/
def choose (chosen : Option (String × UInt64)) (spec : Spec) : Outcome ResolveError Resolved :=
  match chosen with
  | none => .fail .empty
  | some (bitstring, _) =>
      match spec.ofBitstring? bitstring with
      | some value => .ok (.value value)
      | none => .fail (.unrepresentable bitstring spec)

/-- The most frequent bitstring through the spec. -/
def highest : Resolver :=
  fun counts spec => choose counts.mostFrequent? spec

/-- The least frequent bitstring through the spec. -/
def lowest : Resolver :=
  fun counts spec => choose counts.leastFrequent? spec

end Resolver

/-- The resolvers a configuration can name. -/
inductive ResolverKind where
  | raw
  | weightedAverage
  | highest
  | lowest
deriving DecidableEq, Repr

namespace ResolverKind

def all : List ResolverKind :=
  [raw, weightedAverage, highest, lowest]

def text : ResolverKind → String
  | raw => "raw"
  | weightedAverage => "weighted_average"
  | highest => "highest"
  | lowest => "lowest"

def ofText? (name : String) : Option ResolverKind :=
  all.find? fun kind => kind.text == name

def unknownMessage (name : String) : String :=
  "unknown resolver '" ++ name ++ "'"

def resolver : ResolverKind → Resolver
  | raw => .raw
  | weightedAverage => .weightedAverage
  | highest => .highest
  | lowest => .lowest

end ResolverKind

end HybridQuantum
