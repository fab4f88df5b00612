import RelayRace.Proofs.Selection.Conclusion
import RelayRace.Proofs.Selection.RoundTrace
import RelayRace.Proofs.ServerList

/-!
# The stored list agrees with the result of the round

Nothing that happens in a round touches the stored list before the round
concludes, and it is touched then only if there is a winner.  What the probes
wrote back, the order in which the entries were probed and the outcomes that
came to nothing leave no trace in it: the list becomes the entries of the
responders in the order of preference, and behind them all other entries as they
were.
-/

namespace RelayRace

/-- The responders of a round in the order of preference. -/
def Coordinator.preference (c : Coordinator) (outcomes : List Outcome) : List Outcome :=
  (orderResponders c.probes.2 c.list.entries.head? (outcomes.filter Outcome.responded)).1

namespace RoundTrace

variable {request : SelectionRequest} {start : Coordinator} {t : RoundTrace} {scene : Scene}
  {l : PoolLedger}

/-- What a round with a winner leaves of the stored list. -/
structure Reordered (start : Coordinator) (t : RoundTrace) (w : Winner) : Prop where
  /-- The entries of the responders in the order of preference, with what was
  written back, and behind them all other entries in their old order. -/
  list : t.coordinator.list =
    { start.list with
      entries :=
        ServerList.moved start.list.entries
            ((start.preference t.outcomes).map Outcome.candidate) ++
          ServerList.remaining
            (((start.preference t.outcomes).map Outcome.candidate).map Candidate.ipAddress)
            start.list.entries }
  /-- Each distinct address among the responders has its entry in front. -/
  moved : (ServerList.moved start.list.entries
      ((start.preference t.outcomes).map Outcome.candidate)).map Candidate.ipAddress =
    (ServerList.firstOfEach ((start.preference t.outcomes).map Outcome.candidate)).map
      Candidate.ipAddress
  /-- A moved entry is as it was but for the protocol and the front that a
  responder of its address wrote back. -/
  writtenBack : ∀ entry ∈ ServerList.moved start.list.entries
      ((start.preference t.outcomes).map Outcome.candidate),
    ∃ old ∈ start.list.entries, ∃ o ∈ t.outcomes,
      o.responded = true ∧ old.ipAddress = o.candidate.ipAddress ∧
        entry =
          { old with
            connType := o.candidate.connType.or old.connType
            front := o.candidate.front.or old.front }
  /-- The order of preference is one of exactly those who responded. -/
  responders : (start.preference t.outcomes).Perm (t.outcomes.filter Outcome.responded)
  /-- The winner is made of the first of them. -/
  best : ∃ best losers, start.preference t.outcomes = best :: losers ∧ best.Gives w
  /-- The winner's entry is the first of the list. -/
  front : ∃ entry rest, t.coordinator.list.entries = entry :: rest ∧
    entry.ipAddress = w.candidate.ipAddress
  /-- If the server that stood first responded it is the winner, and if there is
  one outcome of it only, the winner is made of that. -/
  sticky : ∀ first, start.list.entries.head? = some first →
    ∀ o ∈ t.outcomes, o.responded = true → o.isOf first = true →
      w.candidate.sameServer first = true ∧
        ((∀ p ∈ t.outcomes, p.responded = true → p.isOf first = true → p = o) → o.Gives w)

/-! ## Concluded rounds -/

theorem perm_preference (c : Coordinator) (outcomes : List Outcome) :
    (c.preference outcomes).Perm (outcomes.filter Outcome.responded) :=
  perm_orderResponders _ _ _

theorem mem_preference {c : Coordinator} {outcomes : List Outcome} {o : Outcome} :
    o ∈ c.preference outcomes ↔ o ∈ outcomes ∧ o.responded = true := by
  rw [(perm_preference c outcomes).mem_iff, List.mem_filter]

/-- Whoever was probed has an entry in the stored list. -/
theorem Concluded.exists_entry (hConcluded : Concluded request start t scene l) :
    ∀ o ∈ t.outcomes, ∃ entry ∈ start.list.entries, entry.ipAddress = o.candidate.ipAddress := by
  rw [hConcluded.outcomes]
  intro o hMem
  obtain ⟨job, hJob, hSound⟩ := hConcluded.raced.sound o hMem
  exact ⟨job.candidate, mem_entries_of_jobsIn hJob, hSound.candidate.ipAddress_eq.symm⟩

/-- A round that is not aborted has the candidates moved in the order of
preference. -/
theorem Concluded.list_kept (hConcluded : Concluded request start t scene l)
    (hKept : t.aborted = false) : t.coordinator.list =
      start.list.moveToFront ((start.preference t.outcomes).map Outcome.candidate) := by
  obtain ⟨_, -, -, -, hCoordinator⟩ := hConcluded.coordinator
  rw [hCoordinator, hKept]
  exact Conclusion.award_list _ _ _

theorem Concluded.list_aborted (hConcluded : Concluded request start t scene l)
    (hAborted : t.aborted = true) : t.coordinator.list = start.list := by
  obtain ⟨_, -, -, -, hCoordinator⟩ := hConcluded.coordinator
  rw [hCoordinator, hAborted]
  rfl

/-- The winner of a round that is not aborted, told from the order of preference. -/
theorem Concluded.winner_kept (hConcluded : Concluded request start t scene l)
    (hKept : t.aborted = false) :
    (start.preference t.outcomes = [] ∧ t.round.phase = .ended none) ∨
      ∃ best losers w, start.preference t.outcomes = best :: losers ∧
        t.round.phase = .ended (some w) ∧ best.Gives w := by
  have hPhase := hConcluded.phase
  rw [hKept] at hPhase
  rcases Conclusion.of_winner start.list hConcluded.gives with
    ⟨hNil, hNone⟩ | ⟨best, losers, w, hOrdered, hSome, hGiven⟩
  · exact .inl ⟨hNil, hPhase.trans (congrArg RoundPhase.ended hNone)⟩
  · exact .inr ⟨best, losers, w, hOrdered, hPhase.trans (congrArg RoundPhase.ended hSome), hGiven⟩

/-- The server that stood first in the list is preferred if it responded. -/
theorem sticky_preference {c : Coordinator} {outcomes : List Outcome} {first : Candidate}
    {best : Outcome} {losers : List Outcome} (hHead : c.list.entries.head? = some first)
    (hOrdered : c.preference outcomes = best :: losers) {o : Outcome} (hMem : o ∈ outcomes)
    (hResponded : o.responded = true) (hFirst : o.isOf first = true) :
    best.isOf first = true := by
  have hResponder : o ∈ outcomes.filter Outcome.responded :=
    List.mem_filter.mpr ⟨hMem, hResponded⟩
  obtain ⟨leader, rest, hLeads, hIsOf⟩ :=
    head_orderResponders (g := c.probes.2) hResponder hFirst
  rw [Coordinator.preference, hHead, hLeads] at hOrdered
  rw [← (List.cons.inj hOrdered).1]
  exact hIsOf

/-- A round with a winner reorders the stored list. -/
theorem Concluded.reordered (hConcluded : Concluded request start t scene l)
    (hKept : t.aborted = false) {best : Outcome} {losers : List Outcome} {w : Winner}
    (hOrdered : start.preference t.outcomes = best :: losers) (hGives : best.Gives w) :
    Reordered start t w := by
  have hEntries := hConcluded.list_kept hKept
  have hList : (start.list.moveToFront
      ((start.preference t.outcomes).map Outcome.candidate)).entries = _ :=
    ServerList.entries_moveToFront _ _
  have hKnown : ∀ candidate ∈ (start.preference t.outcomes).map Outcome.candidate,
      ∃ entry ∈ start.list.entries, entry.ipAddress = candidate.ipAddress := by
    intro candidate hMem
    obtain ⟨o, hO, rfl⟩ := List.mem_map.mp hMem
    exact hConcluded.exists_entry o (mem_preference.mp hO).1
  have hMoved := ServerList.map_ipAddress_moved hKnown
  have hFront : ∃ entry rest, t.coordinator.list.entries = entry :: rest ∧
      entry.ipAddress = w.candidate.ipAddress := by
    rw [hEntries, hList, hGives.candidate]
    rw [hOrdered, List.map_cons, ServerList.firstOfEach, List.map_cons] at hMoved
    obtain ⟨entry, others, hCons, hAddress, -⟩ := List.map_eq_cons_iff.mp hMoved
    rw [hOrdered, List.map_cons, hCons]
    exact ⟨entry, _, rfl, hAddress⟩
  exact
    { list := by
        rw [hEntries, ← hList]
        rfl
      moved := hMoved
      writtenBack := by
        intro entry hMem
        obtain ⟨old, hOld, candidate, hCandidate, hAddress, rfl⟩ := ServerList.mem_moved hMem
        obtain ⟨o, hO, rfl⟩ := List.mem_map.mp hCandidate
        obtain ⟨hOutcome, hResponded⟩ := mem_preference.mp hO
        exact ⟨old, hOld, o, hOutcome, hResponded, hAddress, rfl⟩
      responders := perm_preference start t.outcomes
      best := ⟨best, losers, hOrdered, hGives⟩
      front := hFront
      sticky := by
        intro first hHead o hMem hResponded hFirst
        have hBestFirst := sticky_preference hHead hOrdered hMem hResponded hFirst
        refine ⟨?_, fun hOnly => ?_⟩
        · rw [hGives.candidate]
          exact hBestFirst
        · have hBest : best ∈ start.preference t.outcomes := by
            rw [hOrdered]
            exact List.mem_cons_self
          obtain ⟨hOutcome, hBestResponded⟩ := mem_preference.mp hBest
          rw [← hOnly best hOutcome hBestResponded hBestFirst]
          exact hGives }

/-- The ways in which a round can stand, told from its winner and the list. -/
theorem Concluded.result (hConcluded : Concluded request start t scene l) :
    (t.round.phase = .ended none ∧ t.coordinator.list = start.list ∧
        ¬((∃ o ∈ t.outcomes, o.responded = true) ∧ t.aborted = false)) ∨
      ∃ w, t.round.phase = .ended (some w) ∧ Reordered start t w ∧
        (∃ o ∈ t.outcomes, o.responded = true) ∧ t.aborted = false := by
  by_cases hKept : t.aborted = false
  · rcases hConcluded.winner_kept hKept with
      ⟨hNil, hPhase⟩ | ⟨best, losers, w, hOrdered, hPhase, hGives⟩
    · refine .inl ⟨hPhase, ?_, ?_⟩
      · rw [hConcluded.list_kept hKept, hNil]
        rfl
      · rintro ⟨⟨o, hMem, hResponded⟩, -⟩
        have hOrdered : o ∈ start.preference t.outcomes := mem_preference.mpr ⟨hMem, hResponded⟩
        rw [hNil] at hOrdered
        cases hOrdered
    · have hBest : best ∈ start.preference t.outcomes := by
        rw [hOrdered]
        exact List.mem_cons_self
      exact .inr ⟨w, hPhase, hConcluded.reordered hKept hOrdered hGives,
        ⟨best, mem_preference.mp hBest⟩, hKept⟩
  · have hAborted : t.aborted = true := by simpa using hKept
    have hPhase := hConcluded.phase
    rw [hAborted] at hPhase
    exact .inl ⟨hPhase, hConcluded.list_aborted hAborted, fun hBoth => hKept hBoth.2⟩

/-! ## All rounds -/

/-- What the stored list has to do with the result of a round. -/
structure Agrees (start : Coordinator) (t : RoundTrace) : Prop where
  /-- A round that is over has a winner exactly when somebody responded and the
  abort signal is not raised. -/
  winner : ∀ winner, t.round.phase = .ended winner →
    (winner.isSome = true ↔ (∃ o ∈ t.outcomes, o.responded = true) ∧ t.aborted = false)
  reordered : ∀ w, t.round.phase = .ended (some w) → Reordered start t w
  /-- Without a winner the list is what it was. -/
  untouched : (∀ w, t.round.phase ≠ .ended (some w)) → t.coordinator.list = start.list

theorem agrees_of_under_way (hUnder : t.round.isOver = false)
    (hList : t.coordinator.list = start.list) : Agrees start t := by
  have hPhase : ∀ winner, t.round.phase ≠ .ended winner := by
    intro winner hEnded
    rw [Round.isOver, hEnded] at hUnder
    cases hUnder
  exact ⟨fun winner hEnded => absurd hEnded (hPhase winner),
    fun w hEnded => absurd hEnded (hPhase _), fun _ => hList⟩

theorem agrees_of_none (hPhase : t.round.phase = .ended none)
    (hList : t.coordinator.list = start.list)
    (hNobody : ¬((∃ o ∈ t.outcomes, o.responded = true) ∧ t.aborted = false)) :
    Agrees start t := by
  refine ⟨fun winner hEnded => ?_, fun w hEnded => ?_, fun _ => hList⟩
  · rw [hPhase] at hEnded
    cases hEnded
    exact iff_of_false (by simp) hNobody
  · rw [hPhase] at hEnded
    cases hEnded

theorem agrees_of_some {w : Winner} (hPhase : t.round.phase = .ended (some w))
    (hReordered : Reordered start t w)
    (hBoth : (∃ o ∈ t.outcomes, o.responded = true) ∧ t.aborted = false) : Agrees start t := by
  refine ⟨fun winner hEnded => ?_, fun other hEnded => ?_, fun hNone => absurd hPhase (hNone w)⟩
  · rw [hPhase] at hEnded
    cases hEnded
    exact iff_of_true rfl hBoth
  · rw [hPhase] at hEnded
    cases hEnded
    exact hReordered

/-- Whatever happens to a round: it has a winner exactly when somebody responded
and the abort signal is not raised when it concludes.  Then the stored list has
the responders' entries in front, in the order of preference, and all others as
they were behind them; and at any time and in every other case the list is what
it was when the round began. -/
theorem stored_list_agrees_with_winner {request : SelectionRequest} {start : Coordinator}
    {schedule : List (Ambient × RoundEvent)} {t : RoundTrace}
    (hPlay : (RoundTrace.start start).play request schedule = some t) : Agrees start t := by
  cases stands_play hPlay with
  | searches hSearches =>
      refine agrees_of_under_way ?_ (by rw [hSearches.coordinator])
      rcases hSearches.phase with hPhase | ⟨sleep, hPhase⟩
      · rw [Round.isOver, hPhase]
      · rw [Round.isOver, hPhase]
  | crashed hCrashed =>
      refine agrees_of_under_way ?_ (by rw [hCrashed.coordinator, Coordinator.probing])
      rw [Round.isOver, hCrashed.phase]
  | collapsed hCollapsed =>
      refine agrees_of_under_way ?_ (by rw [hCollapsed.coordinator, Coordinator.probing])
      rw [Round.isOver, hCollapsed.phase]
  | races hRaces =>
      refine agrees_of_under_way ?_ (by rw [hRaces.coordinator, Coordinator.probing])
      rw [Round.isOver, hRaces.phase]
  | gaveUp hGaveUp =>
      refine agrees_of_none hGaveUp.phase (by rw [hGaveUp.coordinator]) ?_
      rintro ⟨-, hKept⟩
      rw [hGaveUp.aborted] at hKept
      cases hKept
  | concluded hConcluded =>
      rcases hConcluded.result with ⟨hPhase, hList, hNobody⟩ | ⟨w, hPhase, hReordered, hBoth⟩
      · exact agrees_of_none hPhase hList hNobody
      · exact agrees_of_some hPhase hReordered hBoth

/-- Only the relay behind the sub-server responds: its entry is moved before the
one that stood first, with the protocol written back, and the other entry keeps
nothing of its failed attempt. -/
theorem moved_before_the_failed_first :
    ∃ t w, (RoundTrace.start Sample.coordinator).play {}
        (Sample.schedule (Sample.probing ++ Sample.coveredResponds ++ Sample.plainCrashes ++
          Sample.waits ++ Sample.retires)) = some t ∧
      t.round.phase = .ended (some w) ∧
      t.coordinator.list.entries =
        [{ Sample.covered with connType := some .unfrontedMeekOssh }, Sample.plain] ∧
      (∃ entry rest, t.coordinator.list.entries = entry :: rest ∧
        entry.ipAddress = w.candidate.ipAddress) := by
  have hRun : ((RoundTrace.start Sample.coordinator).play {}
      (Sample.schedule (Sample.probing ++ Sample.coveredResponds ++ Sample.plainCrashes ++
        Sample.waits ++ Sample.retires))).map
          (fun t => (t.round.phase, t.coordinator.list.entries)) =
      some (.ended (some ⟨1, Sample.covered.wroteBack .unfrontedMeekOssh, .unfrontedMeekOssh, false,
        .ofMillis 40, true⟩),
        [{ Sample.covered with connType := some .unfrontedMeekOssh }, Sample.plain]) := by
    decide +kernel
  obtain ⟨t, hPlay, hEnd⟩ := Option.map_eq_some_iff.mp hRun
  obtain ⟨hEnded, hEntries⟩ := Prod.mk.inj hEnd
  have hAgrees := stored_list_agrees_with_winner hPlay
  exact ⟨t, _, hPlay, hEnded, hEntries, (hAgrees.reordered _ hEnded).front⟩

end RoundTrace

end RelayRace
