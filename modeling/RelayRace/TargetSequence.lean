import RelayRace.Candidate

/-!
# The sequence of protocol targets

A selector searches one set of protocols at a time. The sets stand in a fixed
cyclic order, and a round that ends without a winner moves on to the next one.

Both facts that make every access safe are part of the type: no set is empty,
and the current index is one of the sequence. So `current` needs no default
and `advance` cannot leave the sequence.
-/

namespace RelayRace

/-- Why a list of protocol sets is no target sequence. -/
inductive TargetFault where
  | noSets
  | emptySet (index : Nat)
  deriving DecidableEq, Repr

/-- The fault in words. -/
def TargetFault.message : TargetFault → String
  | .noSets => "protocol target list is empty"
  | .emptySet index => "protocol target set " ++ toString index ++ " is empty"

/-- Nonempty protocol sets in a cyclic order, one of them current. -/
structure TargetSequence where
  sets : List (List Protocol)
  index : Nat
  nonempty : ∀ set ∈ sets, set ≠ []
  index_lt : index < sets.length

namespace TargetSequence

/-- The sequence that starts at the first of the given sets. -/
def ofSets (sets : List (List Protocol)) : Except TargetFault TargetSequence :=
  match hEmpty : sets.findIdx? List.isEmpty with
  | some index => .error (.emptySet index)
  | none =>
      if hLength : 0 < sets.length then
        .ok {
          sets
          index := 0
          nonempty := by
            intro set hSet hNil
            have hNone := (List.findIdx?_eq_none_iff.mp hEmpty) set hSet
            simp [hNil] at hNone
          index_lt := hLength }
      else .error .noSets

/-- The sets that are searched unless others are given: all protocols at once,
then each on its own. -/
def standardSets : List (List Protocol) :=
  Protocol.all :: Protocol.all.map fun protocol => [protocol]

/-- The standard sequence. -/
def standard : TargetSequence where
  sets := standardSets
  index := 0
  nonempty := by decide
  index_lt := by decide

/-- The set that is searched now. -/
def current (t : TargetSequence) : List Protocol :=
  t.sets.get ⟨t.index, t.index_lt⟩

/-- Moves on to the next set, and from the last one back to the first. -/
def advance (t : TargetSequence) : TargetSequence :=
  { t with
    index := (t.index + 1) % t.sets.length
    index_lt := Nat.mod_lt _ (Nat.lt_of_le_of_lt (Nat.zero_le _) t.index_lt) }

/-- The protocol names of the current set, separated by blanks. -/
def label (t : TargetSequence) : String :=
  " ".intercalate (t.current.map Protocol.name)

/-- The protocol by which a set of targets reaches a candidate: the first of the
set that the candidate supports. -/
def choose (targets : List Protocol) (candidate : Candidate) : Option Protocol :=
  targets.find? candidate.supports

/-- The protocol by which the current set reaches a candidate. -/
def select (t : TargetSequence) (candidate : Candidate) : Option Protocol :=
  choose t.current candidate

end TargetSequence

end RelayRace
