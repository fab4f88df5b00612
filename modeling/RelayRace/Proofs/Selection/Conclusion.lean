import RelayRace.Proofs.Probe.Worker
import RelayRace.Proofs.Selection.Reorderings
import RelayRace.Proofs.Selection.Responders
import RelayRace.Selection.Conclusion

/-!
# What a conclusion comes to

The order of preference decides a round that is not aborted: its first outcome
becomes the winner, and the candidates in this order are handed to the store.
Every part of a conclusion is told here from that order, so that whoever knows
the order need not look into the conclusion again.
-/

namespace RelayRace

/-- Whether a conclusion can make an act: it reorders the stored list, closes, and tells of
results. -/
def Act.OfConclusion : Act → Prop
  | .noted (.responseCheck _) | .noted (.preferredServers _) | .noted (.selected ..)
  | .movedToFront _ | .closed _ => True
  | _ => False

namespace Conclusion

variable {list : ServerList} {g : Generator} {first : Option Candidate}
  {outcomes ordered : List Outcome}

/-! ## The award -/

theorem award_list (list : ServerList) (g : Generator) (ordered : List Outcome) :
    (award list g ordered).list = list.moveToFront (ordered.map Outcome.candidate) := by
  cases ordered with
  | nil => rfl
  | cons best losers => rfl

theorem award_generator (list : ServerList) (g : Generator) (ordered : List Outcome) :
    (award list g ordered).generator = g := by
  cases ordered with
  | nil => rfl
  | cons best losers => rfl

/-- The first in the order of preference wins. -/
theorem award_winner {best : Outcome} {losers : List Outcome} {w : Winner}
    (hGives : best.Gives w) : (award list g (best :: losers)).winner = some w := by
  simp only [award, hGives.select]

theorem reorderings_releaseAll (outcomes : List Outcome) :
    reorderings (releaseAll outcomes) = [] := by
  induction outcomes with
  | nil => rfl
  | cons o rest ih =>
      rw [releaseAll, List.flatMap_cons, reorderings_append, Holdings.reorderings_closing]
      exact ih

theorem reorderings_announcement (winner : Option Winner) :
    reorderings (announcement winner) = [] := by
  cases winner with
  | none => rfl
  | some w => rfl

/-- The store is asked once, if anybody responded, to move the candidates to the
front in the order of preference. -/
theorem reorderings_award (hGives : ∀ o ∈ ordered, ∃ w, o.Gives w) :
    reorderings (award list g ordered).acts =
      if ordered.map Outcome.candidate = [] then [] else [ordered.map Outcome.candidate] := by
  cases ordered with
  | nil => rfl
  | cons best losers =>
      obtain ⟨w, hGiven⟩ := hGives best List.mem_cons_self
      simp only [award, hGiven.select, List.append_nil, reorderings_append,
        reorderings_releaseAll, reorderings_announcement]
      rfl

/-! ## The whole conclusion -/

theorem reorderings_opening (outcomes : List Outcome) : reorderings (opening outcomes) = [] := by
  rw [opening, reorderings_append, reorderings_map_noted, reorderings_releaseAll]
  rfl

theorem of_eq_award (list : ServerList) (g : Generator) (first : Option Candidate)
    (outcomes : List Outcome) :
    of list g first false outcomes =
      { award list (orderResponders g first (outcomes.filter Outcome.responded)).2
          (orderResponders g first (outcomes.filter Outcome.responded)).1 with
        acts := opening outcomes ++
          (award list (orderResponders g first (outcomes.filter Outcome.responded)).2
            (orderResponders g first (outcomes.filter Outcome.responded)).1).acts } :=
  rfl

/-- Everybody in the order of preference can be made into a winner. -/
theorem gives_ordered (hGives : ∀ o ∈ outcomes, o.responded = true → ∃ w, o.Gives w) :
    ∀ o ∈ (orderResponders g first (outcomes.filter Outcome.responded)).1, ∃ w, o.Gives w := by
  intro o hMem
  have hPerm := perm_orderResponders g first (outcomes.filter Outcome.responded)
  obtain ⟨hOutcome, hResponded⟩ := List.mem_filter.mp (hPerm.mem_iff.mp hMem)
  exact hGives o hOutcome hResponded

/-- A round that is not aborted has a winner exactly when somebody responded, and
it is made of the first in the order of preference. -/
theorem of_winner (list : ServerList)
    (hGives : ∀ o ∈ outcomes, o.responded = true → ∃ w, o.Gives w) :
    ((orderResponders g first (outcomes.filter Outcome.responded)).1 = [] ∧
        (of list g first false outcomes).winner = none) ∨
      ∃ best losers w,
        (orderResponders g first (outcomes.filter Outcome.responded)).1 = best :: losers ∧
          (of list g first false outcomes).winner = some w ∧ best.Gives w := by
  have hOrderedGives : ∀ o ∈ (orderResponders g first (outcomes.filter Outcome.responded)).1,
      ∃ w, o.Gives w := gives_ordered hGives
  have hAward : (of list g first false outcomes).winner =
      (award list (orderResponders g first (outcomes.filter Outcome.responded)).2
        (orderResponders g first (outcomes.filter Outcome.responded)).1).winner := rfl
  rw [hAward]
  cases hOrdered : (orderResponders g first (outcomes.filter Outcome.responded)).1 with
  | nil => exact .inl ⟨rfl, rfl⟩
  | cons best losers =>
      obtain ⟨w, hGiven⟩ := hOrderedGives best (by rw [hOrdered]; exact List.mem_cons_self)
      exact .inr ⟨best, losers, w, rfl, award_winner hGiven, hGiven⟩

/-! ## Without responders -/

theorem filter_responded (hSilent : ∀ o ∈ outcomes, o.responded = false) :
    outcomes.filter Outcome.responded = [] :=
  List.filter_eq_nil_iff.mpr fun o hMem => by simp [hSilent o hMem]

/-- When nobody responded, nothing is drawn and nothing is moved. -/
theorem of_silent (list : ServerList) (g : Generator) (first : Option Candidate)
    (hSilent : ∀ o ∈ outcomes, o.responded = false) :
    of list g first false outcomes = ⟨none, list, g, opening outcomes⟩ := by
  have hOrder : orderResponders g first [] = ([], g) := by
    cases first <;>
      simp [orderResponders, Generator.shuffle, Generator.shuffleDown, preferFirst, firstToFront]
  rw [of_eq_award, filter_responded hSilent, hOrder]
  simp [award]

/-! ## The acts -/

theorem ofConclusion_closing (held : Holdings) (owner : Nat) :
    ∀ act ∈ held.closing owner, act.OfConclusion := by
  intro act hMem
  obtain ⟨handle, -, rfl⟩ := List.mem_map.mp hMem
  trivial

theorem ofConclusion_releaseAll (outcomes : List Outcome) :
    ∀ act ∈ releaseAll outcomes, act.OfConclusion := by
  intro act hMem
  obtain ⟨o, -, hAct⟩ := List.mem_flatMap.mp hMem
  exact ofConclusion_closing o.held o.index act hAct

theorem ofConclusion_opening (outcomes : List Outcome) :
    ∀ act ∈ opening outcomes, act.OfConclusion := by
  intro act hMem
  rcases List.mem_append.mp hMem with hLine | hClosing
  · obtain ⟨o, -, rfl⟩ := List.mem_map.mp hLine
    trivial
  · exact ofConclusion_releaseAll _ act hClosing

theorem ofConclusion_select (o : Outcome) : ∀ act ∈ o.select.2, act.OfConclusion := by
  unfold Outcome.select
  split
  · split
    · exact fun act hMem => by cases hMem
    · exact ofConclusion_closing _ _
  · exact ofConclusion_closing _ _

theorem ofConclusion_announcement (winner : Option Winner) :
    ∀ act ∈ announcement winner, act.OfConclusion := by
  intro act hMem
  cases winner with
  | none => cases hMem
  | some w =>
      cases List.mem_singleton.mp hMem
      trivial

theorem ofConclusion_award (list : ServerList) (g : Generator) (ordered : List Outcome) :
    ∀ act ∈ (award list g ordered).acts, act.OfConclusion := by
  intro act hMem
  cases ordered with
  | nil => cases hMem
  | cons best losers =>
      simp only [award, List.mem_append, List.mem_cons, List.not_mem_nil, or_false] at hMem
      obtain (((rfl | rfl) | hSelect) | hRelease) | hAnnouncement := hMem
      · trivial
      · trivial
      · exact ofConclusion_select best act hSelect
      · exact ofConclusion_releaseAll losers act hRelease
      · exact ofConclusion_announcement _ act hAnnouncement

theorem ofConclusion_of (list : ServerList) (g : Generator) (first : Option Candidate)
    (abort : Bool) (outcomes : List Outcome) :
    ∀ act ∈ (of list g first abort outcomes).acts, act.OfConclusion := by
  intro act hMem
  cases abort with
  | true =>
      rcases List.mem_append.mp hMem with hOpening | hRelease
      · exact ofConclusion_opening outcomes act hOpening
      · exact ofConclusion_releaseAll _ act hRelease
  | false =>
      rw [of_eq_award] at hMem
      rcases List.mem_append.mp hMem with hOpening | hAward
      · exact ofConclusion_opening outcomes act hOpening
      · exact ofConclusion_award _ _ _ act hAward

/-- There is nothing to close for outcomes that hold nothing. -/
theorem releaseAll_of_bare (hBare : ∀ o ∈ outcomes, o.held = {}) : releaseAll outcomes = [] := by
  refine List.flatMap_eq_nil_iff.mpr fun o hMem => ?_
  rw [hBare o hMem]
  rfl

end Conclusion

end RelayRace
