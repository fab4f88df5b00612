import RelayRace.Proofs.Selection.Conclusion
import RelayRace.Proofs.Selection.RoundTrace

/-!
# The winner does not depend on timing

Two rounds that begin alike and in which the same probes respond with the same
candidates come to the same end, in whatever order and at whatever times their
outcomes arrive.  Dispatch indices are different, so sorting by them forgets the
order of arrival; the shuffle looks at nothing but the generator and the number
of responders; and a round draws from the generator at no other moment than for
the order of its probes and for the order of its responders.

Rounds begin alike when their coordinators agree but for the statistics, and
they leave coordinators that agree again, so what is shown of one round holds of
all that follow.
-/

namespace RelayRace

/-- Whether two coordinators agree in everything that decides a round.  The
statistics do not: they keep the response time of the winner. -/
structure Coordinator.Agree (left right : Coordinator) : Prop where
  settings : left.settings = right.settings
  targets : left.targets = right.targets
  list : left.list = right.list
  generator : left.generator = right.generator

namespace Coordinator

variable {left right : Coordinator}

/-- Coordinators that agree conclude alike from the same outcomes. -/
theorem Agree.conclusion_eq (hAgree : left.Agree right) (abort : Bool) (outcomes : List Outcome) :
    left.conclusion abort outcomes = right.conclusion abort outcomes := by
  simp only [conclusion, probes, hAgree.settings, hAgree.list, hAgree.generator]

end Coordinator

/-- What a winner is told by. -/
def Winner.key (w : Winner) : Nat × Candidate × Protocol := (w.index, w.candidate, w.protocol)

/-- Outcomes with one key give winners with one key. -/
theorem Outcome.Gives.key_eq {o p : Outcome} {v w : Winner} (hO : o.Gives v) (hP : p.Gives w)
    (hKey : o.key = p.key) : v.key = w.key := by
  obtain ⟨hIndex, hCandidate⟩ := Prod.mk.inj hKey
  have hProtocol : some v.protocol = some w.protocol := by
    rw [← hO.protocol, ← hP.protocol, hCandidate]
  rw [Winner.key, Winner.key, hO.index, hP.index, hO.candidate, hP.candidate, hIndex, hCandidate,
    Option.some.inj hProtocol]

namespace Conclusion

/-- Conclusions from the same responders, arrived in any two orders, agree in
everything but the response time of the winner. -/
theorem of_agree (list : ServerList) (g : Generator) (first : Option Candidate)
    {early late : List Outcome}
    (hEarly : ∀ o ∈ early, o.responded = true → ∃ w, o.Gives w)
    (hLate : ∀ o ∈ late, o.responded = true → ∃ w, o.Gives w)
    (hNodup : ((early.filter Outcome.responded).map Outcome.index).Nodup)
    (hPerm : ((early.filter Outcome.responded).map Outcome.key).Perm
      ((late.filter Outcome.responded).map Outcome.key)) :
    (of list g first false early).list = (of list g first false late).list ∧
      (of list g first false early).generator = (of list g first false late).generator ∧
      (of list g first false early).winner.map Winner.key =
        (of list g first false late).winner.map Winner.key ∧
      reorderings (of list g first false early).acts =
        reorderings (of list g first false late).acts := by
  obtain ⟨hKeys, hGenerator⟩ := keys_orderResponders g first hPerm hNodup
  have hCandidates :
      (orderResponders g first (early.filter Outcome.responded)).1.map Outcome.candidate =
        (orderResponders g first (late.filter Outcome.responded)).1.map Outcome.candidate := by
    have hSnd := congrArg (List.map Prod.snd) hKeys
    rw [List.map_map, List.map_map] at hSnd
    exact hSnd
  refine ⟨?_, ?_, ?_, ?_⟩
  · rw [of_eq_award, of_eq_award]
    simp only [award_list, hCandidates]
  · rw [of_eq_award, of_eq_award]
    simp only [award_generator, hGenerator]
  · rcases of_winner list hEarly with ⟨hNil, hNone⟩ | ⟨best, losers, v, hOrdered, hSome, hGives⟩
    · rcases of_winner list hLate with ⟨-, hOther⟩ | ⟨_, _, _, hOrdered, -, -⟩
      · rw [hNone, hOther]
      · rw [hNil, hOrdered] at hKeys
        cases hKeys
    · rcases of_winner list hLate with ⟨hNil, -⟩ | ⟨other, others, w, hOther, hAlso, hGiven⟩
      · rw [hOrdered, hNil] at hKeys
        cases hKeys
      · rw [hOrdered, hOther, List.map_cons, List.map_cons] at hKeys
        rw [hSome, hAlso, Option.map_some, Option.map_some,
          hGives.key_eq hGiven (List.cons.inj hKeys).1]
  · rw [of_eq_award, of_eq_award, reorderings_append, reorderings_append, reorderings_opening,
      reorderings_opening, reorderings_award (gives_ordered hEarly),
      reorderings_award (gives_ordered hLate), hCandidates]

end Conclusion

/-! ## Whole rounds -/

namespace RoundTrace

/-- Who responded in a round, and with which candidate. -/
def responders (t : RoundTrace) : List (Nat × Candidate) :=
  (t.outcomes.filter Outcome.responded).map Outcome.key

variable {request : SelectionRequest} {start : Coordinator} {t : RoundTrace} {scene : Scene}
  {l : PoolLedger}

theorem Concluded.nodup_responders (hConcluded : Concluded request start t scene l) :
    ((t.outcomes.filter Outcome.responded).map Outcome.index).Nodup := by
  rw [hConcluded.outcomes]
  exact List.Nodup.sublist (List.filter_sublist.map _) hConcluded.raced.nodup

/-- Responders with different indices are listed once each. -/
theorem Concluded.nodup_keys (hConcluded : Concluded request start t scene l) :
    t.responders.Nodup := by
  refine List.Nodup.of_map Prod.fst ?_
  rw [responders, List.map_map]
  exact hConcluded.nodup_responders

/-- A round that concludes reorders the stored list only in its conclusion. -/
theorem Concluded.reorderings_eq (hConcluded : Concluded request start t scene l) :
    reorderings t.acts = reorderings (start.conclusion t.aborted t.outcomes).acts := by
  obtain ⟨before, hBefore, hActs⟩ := hConcluded.acts
  rw [hActs, reorderings_append, reorderings_append, hBefore.order, hConcluded.raced.order]
  rfl

/-- A round that is over and was not aborted at that moment has concluded. -/
theorem concluded_of_ended {schedule : List (Ambient × RoundEvent)} {winner : Option Winner}
    (hPlay : (RoundTrace.start start).play request schedule = some t)
    (hEnded : t.round.phase = .ended winner) (hKept : t.aborted = false) :
    ∃ scene l, Concluded request start t scene l ∧
      winner = (start.conclusion false t.outcomes).winner := by
  rcases stands_ended hPlay hEnded with ⟨hGaveUp, -⟩ | ⟨scene, l, hConcluded, hWinner⟩
  · rw [hGaveUp.aborted] at hKept
    cases hKept
  · rw [hKept] at hWinner
    exact ⟨scene, l, hConcluded, hWinner⟩

/-- Take any two rounds of coordinators that agree, for whatever requests and in
whatever schedules, neither of them aborted when it ends.  If the same probes
responded with the same candidates, the winner is the same probe's, with the
same candidate and protocol, the store was asked to move the same candidates to
the front in the same order, and the coordinators agree again: in the list, and
in the generator that later rounds and rests draw from. -/
theorem same_end_of_same_responders {leftStart rightStart : Coordinator}
    {leftRequest rightRequest : SelectionRequest}
    {leftSchedule rightSchedule : List (Ambient × RoundEvent)} {left right : RoundTrace}
    {leftWinner rightWinner : Option Winner} (hAgree : leftStart.Agree rightStart)
    (hLeft : (RoundTrace.start leftStart).play leftRequest leftSchedule = some left)
    (hRight : (RoundTrace.start rightStart).play rightRequest rightSchedule = some right)
    (hLeftEnded : left.round.phase = .ended leftWinner)
    (hRightEnded : right.round.phase = .ended rightWinner)
    (hLeftKept : left.aborted = false) (hRightKept : right.aborted = false)
    (hSame : ∀ key, key ∈ left.responders ↔ key ∈ right.responders) :
    leftWinner.map Winner.key = rightWinner.map Winner.key ∧
      reorderings left.acts = reorderings right.acts ∧
      left.coordinator.Agree right.coordinator := by
  obtain ⟨leftScene, l, hLeftConcluded, rfl⟩ := concluded_of_ended hLeft hLeftEnded hLeftKept
  obtain ⟨rightScene, r, hRightConcluded, rfl⟩ := concluded_of_ended hRight hRightEnded hRightKept
  have hPerm : left.responders.Perm right.responders :=
    (List.perm_ext_iff_of_nodup hLeftConcluded.nodup_keys hRightConcluded.nodup_keys).mpr hSame
  obtain ⟨hList, hGenerator, hWinner, hOrder⟩ := Conclusion.of_agree leftStart.list
    leftStart.probes.2 leftStart.list.entries.head? hLeftConcluded.gives hRightConcluded.gives
    hLeftConcluded.nodup_responders hPerm
  have hLeftOrder := hLeftConcluded.reorderings_eq
  have hRightOrder := hRightConcluded.reorderings_eq
  obtain ⟨_, -, -, -, hLeftCoordinator⟩ := hLeftConcluded.coordinator
  obtain ⟨_, -, -, -, hRightCoordinator⟩ := hRightConcluded.coordinator
  rw [hLeftKept] at hLeftOrder hLeftCoordinator
  rw [hRightKept, ← hAgree.conclusion_eq] at hRightOrder hRightCoordinator
  rw [← hAgree.conclusion_eq]
  refine ⟨hWinner, ?_, ?_⟩
  · rw [hLeftOrder, hRightOrder]
    exact hOrder
  · rw [hLeftCoordinator, hRightCoordinator]
    exact ⟨hAgree.settings, hAgree.targets, hList, hGenerator⟩

/-- Two rounds with the same responders: in one both respond in time, the direct
one first; in the other the direct one responds last, in the grace period. -/
theorem same_end_in_time_and_in_grace :
    ∃ left right leftWinner rightWinner,
      (RoundTrace.start Sample.coordinator).play {}
          (Sample.schedule (Sample.probing ++ Sample.plainResponds 25 ++ Sample.coveredResponds ++
            Sample.waits ++ Sample.retires)) = some left ∧
        (RoundTrace.start Sample.coordinator).play {}
            (Sample.schedule (Sample.probing ++ Sample.coveredResponds ++ Sample.waits ++
              Sample.plainResponds 155 ++ Sample.retires)) = some right ∧
        left.responders = right.responders.reverse ∧
        left.round.phase = .ended leftWinner ∧ right.round.phase = .ended rightWinner ∧
        leftWinner.map Winner.key = rightWinner.map Winner.key ∧
        reorderings left.acts = reorderings right.acts ∧
        left.coordinator.Agree right.coordinator := by
  have hLeftRun : ((RoundTrace.start Sample.coordinator).play {}
      (Sample.schedule (Sample.probing ++ Sample.plainResponds 25 ++ Sample.coveredResponds ++
        Sample.waits ++ Sample.retires))).map
          (fun t => (t.responders, t.aborted, t.round.isOver)) =
      some ([(0, Sample.plain.wroteBack .ossh), (1, Sample.covered.wroteBack .unfrontedMeekOssh)],
        false, true) := by decide +kernel
  have hRightRun : ((RoundTrace.start Sample.coordinator).play {}
      (Sample.schedule (Sample.probing ++ Sample.coveredResponds ++ Sample.waits ++
        Sample.plainResponds 155 ++ Sample.retires))).map
          (fun t => (t.responders, t.aborted, t.round.isOver)) =
      some ([(1, Sample.covered.wroteBack .unfrontedMeekOssh), (0, Sample.plain.wroteBack .ossh)],
        false, true) := by decide +kernel
  obtain ⟨left, hLeft, hLeftEnd⟩ := Option.map_eq_some_iff.mp hLeftRun
  obtain ⟨right, hRight, hRightEnd⟩ := Option.map_eq_some_iff.mp hRightRun
  simp only [Prod.mk.injEq] at hLeftEnd hRightEnd
  obtain ⟨hLeftResponders, hLeftKept, hLeftOver⟩ := hLeftEnd
  obtain ⟨hRightResponders, hRightKept, hRightOver⟩ := hRightEnd
  obtain ⟨leftWinner, hLeftEnded⟩ := Round.ended_of_isOver hLeftOver
  obtain ⟨rightWinner, hRightEnded⟩ := Round.ended_of_isOver hRightOver
  have hReversed : left.responders = right.responders.reverse := by
    rw [hLeftResponders, hRightResponders]
    rfl
  have hSame : ∀ key, key ∈ left.responders ↔ key ∈ right.responders := by
    intro key
    rw [hReversed, List.mem_reverse]
  refine ⟨left, right, leftWinner, rightWinner, hLeft, hRight, hReversed, hLeftEnded, hRightEnded,
    same_end_of_same_responders ⟨rfl, rfl, rfl, rfl⟩ hLeft hRight hLeftEnded hRightEnded
      hLeftKept hRightKept hSame⟩

end RoundTrace

end RelayRace
