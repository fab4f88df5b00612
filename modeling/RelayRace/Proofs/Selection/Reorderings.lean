import RelayRace.Proofs.Selection.Heeding

/-!
# Who reorders the stored list

Probes work on their own copies of the entries.  What a probe writes back stays
in its outcome until the round concludes, and nothing that a worker, the pool or
the race does touches the stored list: they make the acts of probes only, and
none of those is a reordering.
-/

namespace RelayRace

/-- The list that an act hands to the store to be moved to the front, if it is
such an act. -/
def Act.reordering : Act → Option (List Candidate)
  | .movedToFront winners => some winners
  | _ => none

/-- All that is handed to the store to be moved to the front, in order. -/
def reorderings (acts : List Act) : List (List Candidate) := acts.filterMap Act.reordering

@[simp] theorem reorderings_nil : reorderings [] = [] := rfl

@[simp] theorem reorderings_append (acts more : List Act) :
    reorderings (acts ++ more) = reorderings acts ++ reorderings more :=
  List.filterMap_append

theorem reorderings_map_noted {α : Type} (line : α → Notice) (lines : List α) :
    reorderings (lines.map fun x => .noted (line x)) = [] := by
  simp [reorderings, List.filterMap_map, Act.reordering]

@[simp] theorem Holdings.reorderings_closing (held : Holdings) (owner : Nat) :
    reorderings (held.closing owner) = [] := by
  simp [reorderings, Holdings.closing, List.filterMap_map, Act.reordering]

/-- No act of a probe reorders the stored list. -/
theorem reorderings_of_probeActs {raised : Bool} {acts : List Act}
    (hActs : ProbeActs raised acts) : reorderings acts = [] := by
  refine List.filterMap_eq_nil_iff.mpr fun act hMem => ?_
  have hAct := hActs act hMem
  cases act with
  | movedToFront winners => cases hAct
  | _ => rfl

namespace Race

variable {settings : Settings} {ctx : RoundContext} {amb : Ambient} {race next : Race}
  {acts : List Act}

/-- No step of a race reorders the stored list. -/
theorem reorderings_step {event : Event}
    (hStep : race.step settings ctx amb event = some (next, acts)) : reorderings acts = [] :=
  reorderings_of_probeActs (probeActs_step hStep)

end Race

end RelayRace
