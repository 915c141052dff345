import HybridQuantum.Fault
import HybridQuantum.Lowering.Lowering
import Mathlib.Algebra.Group.Nat.Defs

/-!
# What a lowering emits

The code of a block is the code of its emissions, one after another: each
quantum literal that is prepared and each instruction of the catalog that is
applied, arguments before the instruction they belong to.  The emissions depend
on the block and on the host alone; the code of each depends on nothing but the
number of slots.
-/

namespace HybridQuantum

/-- One piece of emitted code. -/
inductive Emission where
  /-- Bring the slots of the set bits up. -/
  | prepare (bits : UInt64)
  /-- Run an instruction of the catalog on all slots. -/
  | apply (operation : Operation)
deriving DecidableEq

namespace Emission

/-- The statements of an emission over a number of slots. -/
def code (width : Nat) : Emission → List Statement
  | prepare bits => ((List.range (min width 64)).filter bits.toNat.testBit).map .flip
  | apply .redim => (List.range width).map .superpose
  | apply .not => (List.range width).map .flip
  | apply .sync => (List.range' 1 (width - 1)).map (.entangle 0)

/-- A number of slots on which an emission goes through. -/
def Fits (width : Nat) : Emission → Prop
  | prepare bits => bits.toNat < 2 ^ width
  | apply .sync => 2 ≤ width
  | apply _ => True

/-- What a literal adds: its bits when it is quantum, and nothing otherwise. -/
def ofLiteral (literal : Literal) : List Emission :=
  if literal.isQuantum then ((literal.core?.bind (·.value.bits?)).map prepare).toList else []

/-- What an instruction adds after its arguments. -/
def ofInstr (name : Name) : List Emission :=
  ((Operation.ofName? name.leaf).map apply).toList

mutual

/-- The emissions of one argument. -/
def ofArg (evaluator : Evaluator) : Arg → List Emission
  | .literal literal => ofLiteral literal
  | .symbol name => (evaluator.lookup name).toList.flatMap ofLiteral
  | .instr name args flag =>
      if name.isQuantum then ofArgs evaluator args ++ ofInstr name
      else (evaluator.evaluate ⟨name, args, flag⟩).toOption.toList.flatMap ofLiteral

/-- The emissions of arguments, left to right. -/
def ofArgs (evaluator : Evaluator) : List Arg → List Emission
  | [] => []
  | arg :: rest => ofArg evaluator arg ++ ofArgs evaluator rest

end

mutual

/-- The emissions of one element of a block. -/
def ofItem (evaluator : Evaluator) : BlockItem → List Emission
  | .instr instr => ofArgs evaluator instr.args ++ ofInstr instr.name
  | .block _ items => ofItems evaluator items

/-- The emissions of elements in order. -/
def ofItems (evaluator : Evaluator) : List BlockItem → List Emission
  | [] => []
  | item :: rest => ofItem evaluator item ++ ofItems evaluator rest

end

end Emission

/-- Code is that of emissions which all fit. -/
structure Realizes (width : Nat) (emissions : List Emission) (code : List Statement) : Prop where
  same : code = emissions.flatMap (Emission.code width)
  fits : ∀ emission ∈ emissions, emission.Fits width

namespace Realizes

variable {width : Nat}

theorem nil : Realizes width [] [] :=
  ⟨rfl, by simp⟩

theorem append {first second : List Emission} {firstCode secondCode : List Statement}
    (left : Realizes width first firstCode) (right : Realizes width second secondCode) :
    Realizes width (first ++ second) (firstCode ++ secondCode) := by
  refine ⟨by rw [left.same, right.same, List.flatMap_append], ?_⟩
  intro emission member
  rcases List.mem_append.1 member with member | member
  · exact left.fits emission member
  · exact right.fits emission member

theorem singleton {emission : Emission} (fits : emission.Fits width) :
    Realizes width [emission] (emission.code width) :=
  ⟨by simp, by simpa using fits⟩

end Realizes

namespace Lowering

variable {lowering : Lowering}

theorem realizes_prepare {instr : Name} {literal : Literal} {code : List Statement}
    (isQuantum : literal.isQuantum = true) (prepared : lowering.prepare instr literal = .ok code) :
    Realizes lowering.width (Emission.ofLiteral literal) code := by
  cases literal with
  | composite type items => cases prepared
  | mixed type items => cases prepared
  | core content =>
      simp only [prepare, CoreLiteral.setBits?] at prepared
      cases pattern : content.value.bits? with
      | none =>
          rw [pattern] at prepared
          cases prepared
      | some bits =>
          simp only [pattern, Option.map_some] at prepared
          split at prepared
          · cases prepared
          · rename_i small
            cases prepared
            have emissions : Emission.ofLiteral (.core content) = [.prepare bits] := by
              simp [Emission.ofLiteral, isQuantum, Literal.core?, pattern]
            have fits : bits.toNat < 2 ^ lowering.width := by
              rw [Nat.one_shiftLeft] at small
              by_cases narrow : lowering.width < 64
              · omega
              · calc
                  bits.toNat < 2 ^ 64 := bits.toNat_lt
                  _ ≤ 2 ^ lowering.width := Nat.pow_le_pow_right (by decide) (by omega)
            rw [emissions]
            exact Realizes.singleton fits

theorem realizes_place {instr : Name} {literal : Literal}
    {prepared : List Statement × List Literal}
    (placed : lowering.place instr literal = .ok prepared) :
    Realizes lowering.width (Emission.ofLiteral literal) prepared.1 := by
  simp only [place] at placed
  split at placed
  · rename_i isQuantum
    obtain ⟨code, found, rest⟩ := exists_of_bind_eq_ok placed
    cases rest
    exact realizes_prepare isQuantum found
  · rename_i classical
    cases placed
    simp only [Emission.ofLiteral, classical]
    exact Realizes.nil

theorem realizes_emit {operation : Operation} {literals : List Literal} {code : List Statement}
    {status : Status} (emitted : operation.emit lowering.slots literals = (code, status))
    (done : status.isDone = true) :
    Realizes lowering.width [.apply operation] code := by
  simp only [Operation.emit] at emitted
  split at emitted
  · cases emitted
    cases done
  · cases operation with
    | redim =>
        cases emitted
        exact Realizes.singleton trivial
    | not =>
        cases emitted
        exact Realizes.singleton trivial
    | sync =>
        simp only [slots] at emitted
        match width : lowering.width, emitted with
        | 0, emitted | 1, emitted =>
            cases emitted
            cases done
        | wide + 2, emitted =>
            rw [List.range_eq_range', List.range'_succ, List.range'_succ] at emitted
            cases emitted
            have fits : (Emission.apply .sync).Fits (wide + 2) := Nat.le_add_left 2 wide
            exact Realizes.singleton fits

theorem realizes_finish {instr : Instr} {prepared : List Statement × List Literal}
    {code : List Statement} {emissions : List Emission}
    (before : Realizes lowering.width emissions prepared.1)
    (finished : lowering.finish instr prepared = .ok code) :
    Realizes lowering.width (emissions ++ Emission.ofInstr instr.name) code := by
  simp only [finish] at finished
  split at finished
  · rename_i operation known
    have adds : Emission.ofInstr instr.name = [.apply operation] := by
      simp [Emission.ofInstr, known]
    split at finished
    · rename_i done
      cases finished
      rw [adds]
      exact before.append (realizes_emit rfl done)
    · cases finished
  · rename_i unknown
    have adds : Emission.ofInstr instr.name = [] := by
      simp [Emission.ofInstr, unknown]
    rw [adds, List.append_nil]
    split at finished
    · cases finished
    · obtain ⟨value, -, rest⟩ := exists_of_bind_eq_ok finished
      cases rest
      exact before

theorem evaluator_of_evaluate {instr : Instr} {literal : Literal}
    (evaluated : lowering.evaluate instr = .ok literal) :
    lowering.evaluator.evaluate instr = .ok literal := by
  simp only [evaluate] at evaluated
  split at evaluated
  · rename_i value found
    cases evaluated
    exact found
  · cases evaluated

mutual

theorem realizes_lowerArg {owner : Name} {prepared : List Statement × List Literal} :
    (arg : Arg) → lowering.lowerArg owner arg = .ok prepared →
      Realizes lowering.width (Emission.ofArg lowering.evaluator arg) prepared.1
  | .literal literal, lowered => by
      rw [Emission.ofArg]
      rw [lowerArg] at lowered
      exact realizes_place lowered
  | .symbol name, lowered => by
      rw [Emission.ofArg]
      rw [lowerArg] at lowered
      split at lowered
      · rename_i literal bound
        simpa [bound] using realizes_place lowered
      · cases lowered
  | .instr name args flag, lowered => by
      rw [Emission.ofArg]
      rw [lowerArg] at lowered
      split at lowered
      · rename_i isQuantum
        rw [if_pos isQuantum]
        obtain ⟨inner, loweredArgs, rest⟩ := exists_of_bind_eq_ok lowered
        obtain ⟨code, finished, rest⟩ := exists_of_bind_eq_ok rest
        cases rest
        exact realizes_finish (realizes_lowerArgs args loweredArgs) finished
      · rename_i classical
        rw [if_neg classical]
        obtain ⟨literal, evaluated, placed⟩ := exists_of_bind_eq_ok lowered
        simpa [evaluator_of_evaluate evaluated, Except.toOption] using realizes_place placed

theorem realizes_lowerArgs {owner : Name} {prepared : List Statement × List Literal} :
    (args : List Arg) → lowering.lowerArgs owner args = .ok prepared →
      Realizes lowering.width (Emission.ofArgs lowering.evaluator args) prepared.1
  | [], lowered => by
      rw [Emission.ofArgs]
      rw [lowerArgs] at lowered
      cases lowered
      exact Realizes.nil
  | arg :: rest, lowered => by
      rw [Emission.ofArgs]
      rw [lowerArgs] at lowered
      obtain ⟨first, loweredFirst, remaining⟩ := exists_of_bind_eq_ok lowered
      obtain ⟨others, loweredOthers, remaining⟩ := exists_of_bind_eq_ok remaining
      cases remaining
      exact (realizes_lowerArg arg loweredFirst).append (realizes_lowerArgs rest loweredOthers)

end

mutual

theorem realizes_lowerItem {code : List Statement} :
    (item : BlockItem) → lowering.lowerItem item = .ok code →
      Realizes lowering.width (Emission.ofItem lowering.evaluator item) code
  | .instr instr, lowered => by
      rw [Emission.ofItem]
      rw [lowerItem] at lowered
      obtain ⟨prepared, loweredArgs, finished⟩ := exists_of_bind_eq_ok lowered
      exact realizes_finish (realizes_lowerArgs instr.args loweredArgs) finished
  | .block flag items, lowered => by
      rw [Emission.ofItem]
      rw [lowerItem] at lowered
      split at lowered
      · exact realizes_lowerItems items lowered
      · cases lowered

theorem realizes_lowerItems {code : List Statement} :
    (items : List BlockItem) → lowering.lowerItems items = .ok code →
      Realizes lowering.width (Emission.ofItems lowering.evaluator items) code
  | [], lowered => by
      rw [Emission.ofItems]
      rw [lowerItems] at lowered
      cases lowered
      exact Realizes.nil
  | item :: rest, lowered => by
      rw [Emission.ofItems]
      rw [lowerItems] at lowered
      obtain ⟨first, loweredFirst, remaining⟩ := exists_of_bind_eq_ok lowered
      obtain ⟨others, loweredOthers, remaining⟩ := exists_of_bind_eq_ok remaining
      cases remaining
      exact (realizes_lowerItem item loweredFirst).append
        (realizes_lowerItems rest loweredOthers)

end

/-- The code of a block is that of its emissions, which all fit the slots. -/
theorem realizes_lowerBlock {block : Block} {code : List Statement}
    (lowered : lowering.lowerBlock block = .ok code) :
    Realizes lowering.width (Emission.ofItems lowering.evaluator block.items) code := by
  have realized := realizes_lowerItem _ lowered
  rwa [Emission.ofItem] at realized

end Lowering

end HybridQuantum
