import HybridQuantum.Execution.Error
import HybridQuantum.Fault
import HybridQuantum.Word

/-!
# Measurement counts

How often each bitstring was observed, in ascending order of bitstrings.  The
highest classical bit is the leftmost character.  Sums of counts are checked.
-/

namespace HybridQuantum

/-- Bitstrings in ascending order, each with its number of occurrences. -/
structure Counts where
  entries : List (String × UInt64)
  sorted : entries.Pairwise fun left right => left.1 < right.1
deriving DecidableEq

namespace Counts

def empty : Counts :=
  ⟨[], List.Pairwise.nil⟩

instance : Inhabited Counts :=
  ⟨empty⟩

/-- Change the count of one bitstring in a sorted list; the change may have no result. -/
def alterEntry (bitstring : String) (change : Option UInt64 → Option UInt64) :
    List (String × UInt64) → Option (List (String × UInt64))
  | [] => (change none).map fun count => [(bitstring, count)]
  | (key, count) :: rest =>
      if bitstring < key then
        (change none).map fun fresh => (bitstring, fresh) :: (key, count) :: rest
      else if bitstring = key then
        (change (some count)).map fun changed => (key, changed) :: rest
      else (alterEntry bitstring change rest).map ((key, count) :: ·)

theorem key_of_mem_alterEntry {bitstring : String} {change : Option UInt64 → Option UInt64}
    {entries result : List (String × UInt64)}
    (altered : alterEntry bitstring change entries = some result) :
    ∀ entry ∈ result, entry.1 = bitstring ∨ ∃ other ∈ entries, other.1 = entry.1 := by
  induction entries generalizing result with
  | nil =>
      obtain ⟨count, -, rfl⟩ := Option.map_eq_some_iff.1 altered
      intro entry member
      simp only [List.mem_singleton] at member
      exact .inl (by rw [member])
  | cons head rest ih =>
      obtain ⟨key, count⟩ := head
      simp only [alterEntry] at altered
      split at altered
      · obtain ⟨fresh, -, rfl⟩ := Option.map_eq_some_iff.1 altered
        intro entry member
        rcases List.mem_cons.1 member with same | member
        · exact .inl (by rw [same])
        · exact .inr ⟨entry, member, rfl⟩
      · split at altered
        · obtain ⟨changed, -, rfl⟩ := Option.map_eq_some_iff.1 altered
          intro entry member
          rcases List.mem_cons.1 member with same | member
          · exact .inr ⟨(key, count), List.mem_cons_self, by rw [same]⟩
          · exact .inr ⟨entry, List.mem_cons_of_mem _ member, rfl⟩
        · obtain ⟨changed, found, rfl⟩ := Option.map_eq_some_iff.1 altered
          intro entry member
          rcases List.mem_cons.1 member with same | member
          · exact .inr ⟨(key, count), List.mem_cons_self, by rw [same]⟩
          · rcases ih found entry member with same | ⟨other, otherMem, same⟩
            · exact .inl same
            · exact .inr ⟨other, List.mem_cons_of_mem _ otherMem, same⟩

theorem sorted_alterEntry {bitstring : String} {change : Option UInt64 → Option UInt64}
    {entries result : List (String × UInt64)}
    (sorted : entries.Pairwise fun left right => left.1 < right.1)
    (altered : alterEntry bitstring change entries = some result) :
    result.Pairwise fun left right => left.1 < right.1 := by
  induction entries generalizing result with
  | nil =>
      obtain ⟨count, -, rfl⟩ := Option.map_eq_some_iff.1 altered
      exact List.pairwise_singleton _ _
  | cons head rest ih =>
      obtain ⟨key, count⟩ := head
      have ⟨below, restSorted⟩ := List.pairwise_cons.1 sorted
      simp only [alterEntry] at altered
      split at altered
      · rename_i less
        obtain ⟨fresh, -, rfl⟩ := Option.map_eq_some_iff.1 altered
        refine List.pairwise_cons.2 ⟨?_, sorted⟩
        intro entry member
        rcases List.mem_cons.1 member with same | member
        · rw [same]
          exact less
        · exact String.lt_trans less (below entry member)
      · rename_i notLess
        split at altered
        · obtain ⟨changed, -, rfl⟩ := Option.map_eq_some_iff.1 altered
          exact List.pairwise_cons.2 ⟨fun entry member => below entry member, restSorted⟩
        · rename_i different
          obtain ⟨changed, found, rfl⟩ := Option.map_eq_some_iff.1 altered
          refine List.pairwise_cons.2 ⟨?_, ih restSorted found⟩
          intro entry member
          rcases key_of_mem_alterEntry found entry member with same | ⟨other, otherMem, same⟩
          · show key < entry.1
            rw [same]
            exact Std.lt_of_le_of_ne (Std.not_lt.1 notLess) (Ne.symm different)
          · show key < entry.1
            rw [← same]
            exact below other otherMem

def alter? (counts : Counts) (bitstring : String) (change : Option UInt64 → Option UInt64) :
    Option Counts :=
  match altered : alterEntry bitstring change counts.entries with
  | some entries => some ⟨entries, sorted_alterEntry counts.sorted altered⟩
  | none => none

/-- Add occurrences of a bitstring. -/
def insert? (counts : Counts) (bitstring : String) (count : UInt64) : Option Counts :=
  counts.alter? bitstring fun current => Word.add64? (current.getD 0) count

/-- Give a bitstring a count, whatever it was before. -/
def set (counts : Counts) (bitstring : String) (count : UInt64) : Counts :=
  (counts.alter? bitstring fun _ => some count).getD counts

/-- Add up observations in order. -/
def collect? (observations : List (String × UInt64)) : Option Counts :=
  observations.foldlM (fun counts observation => counts.insert? observation.1 observation.2) empty

/-- The occurrences of a bitstring; none when it was never observed. -/
def get (counts : Counts) (bitstring : String) : UInt64 :=
  (counts.entries.lookup bitstring).getD 0

def keys (counts : Counts) : List String :=
  counts.entries.map Prod.fst

def total? (counts : Counts) : Option UInt64 :=
  (counts.entries.map Prod.snd).foldlM Word.add64? 0

/-- The first entry that no later one beats. -/
def first? (beats : UInt64 → UInt64 → Bool) : List (String × UInt64) → Option (String × UInt64)
  | [] => none
  | entry :: rest =>
      some (rest.foldl (fun best next => if beats next.2 best.2 then next else best) entry)

/-- The most frequent bitstring, the smallest one of several. -/
def mostFrequent? (counts : Counts) : Option (String × UInt64) :=
  first? (fun next best => best < next) counts.entries

/-- The least frequent bitstring, the smallest one of several. -/
def leastFrequent? (counts : Counts) : Option (String × UInt64) :=
  first? (fun next best => next < best) counts.entries

/-- Whether a text has only the characters `0` and `1`. -/
def isBinary (bitstring : String) : Bool :=
  bitstring.toList.all fun char => char == '0' || char == '1'

/-- A bitstring must have the common width and binary digits only. -/
def checkKey (width : Nat) (bitstring : String) : Except BackendError Unit :=
  if bitstring.utf8ByteSize ≠ width then
    .error (.invalidResult ("bitstring '" ++ bitstring ++ "' has width " ++
      toString bitstring.utf8ByteSize ++ ", expected " ++ toString width))
  else if isBinary bitstring then .ok ()
  else .error (.invalidResult ("bitstring '" ++ bitstring ++ "' is not binary"))

/-- All bitstrings are binary and of the width of the first one, which is not empty. -/
def checkKeys (counts : Counts) : Except BackendError Unit :=
  match counts.keys with
  | [] => .error (.invalidResult "empty counts")
  | first :: rest =>
      if first.utf8ByteSize = 0 then .error (.invalidResult "empty bitstring")
      else (first :: rest).forM (checkKey first.utf8ByteSize)

/-- Counts are well formed when their keys are and they sum to the shots. -/
def validate (counts : Counts) (shots : UInt32) : Outcome BackendError Unit :=
  match counts.checkKeys with
  | .error cause => .fail cause
  | .ok () =>
      match counts.total? with
      | none => .error .overflow
      | some total =>
          if total.toNat = shots.toNat then .ok ()
          else .fail (.invalidResult ("counts sum to " ++ toString total.toNat ++ ", expected " ++
            toString shots.toNat ++ " shots"))

end Counts

/-- What a finished job hands out. -/
structure ExecutionResult where
  counts : Counts
  shots : UInt32
  /-- The run time in milliseconds, where it is reported. -/
  milliseconds : Option UInt64
deriving DecidableEq

namespace ExecutionResult

/-- The fraction of shots that gave a bitstring. -/
def probability (result : ExecutionResult) (bitstring : String) : Float :=
  if result.shots = 0 then 0
  else (result.counts.get bitstring).toFloat / result.shots.toUInt64.toFloat

end ExecutionResult

end HybridQuantum
