import RelayRace.Proofs.Selection.Conclusion
import RelayRace.Proofs.Selection.RoundTrace

/-!
# Nothing leaks and nothing is closed twice

When a round is over, every handle that was opened in it was closed exactly once
or belongs to the winner, and then it was not closed at all.  The handles take
six ways to their end: a stage that fails, an abort inside a stage, a crash, the
end by force after the grace period, the release of the losers, and the release
of everybody in an aborted round.  The first four are in the custody of the
pool's ledger; this module follows the outcomes through the conclusion.
-/

namespace RelayRace

/-! ## What is left to whom -/

namespace Winner

/-- Whether a handle belongs to a winner: it has the socket and the connection
of its probe, and the sub-server if its protocol runs through one. -/
def Owns (w : Winner) (h : Handle) : Prop :=
  h.owner = w.index ∧ (h.kind = .subServer → w.protocol.usesSubServer = true)

/-- What the probe `owner` still holds when a round has this winner. -/
def holdings (winner : Option Winner) (owner : Nat) : Holdings :=
  match winner with
  | some w => if w.index = owner then w.held else {}
  | none => {}

theorem holdings_self (w : Winner) : holdings (some w) w.index = w.held := if_pos rfl

theorem holdings_of_ne {w : Winner} {owner : Nat} (hOther : owner ≠ w.index) :
    holdings (some w) owner = {} := if_neg hOther.symm

/-- A handle is held by a winner, once, exactly when it belongs to it. -/
theorem count_holdings {winner : Option Winner}
    (hSub : ∀ w, winner = some w → w.hasSubServer = w.protocol.usesSubServer) (h : Handle) :
    (holdings winner h.owner).count h.kind = 1 ↔ ∃ w, winner = some w ∧ w.Owns h := by
  obtain ⟨kind, owner⟩ := h
  cases winner with
  | none => simp [holdings]
  | some w =>
      have hSame := hSub w rfl
      by_cases hOwner : owner = w.index
      · subst hOwner
        rw [holdings_self]
        cases kind <;> simp [held, Holdings.count, Owns, hSame]
      · rw [holdings_of_ne hOwner]
        simp [Owns, hOwner]

end Winner

/-! ## The conclusion -/

namespace Conclusion

/-- The account of every probe when the outcomes are in: whoever has an outcome
has what it holds, and nobody else has anything. -/
structure Ready (acts : List Act) (outcomes : List Outcome) : Prop where
  nodup : (outcomes.map Outcome.index).Nodup
  settled : ∀ o ∈ outcomes, Settled acts o.index o.held
  absent : ∀ owner, owner ∉ outcomes.map Outcome.index → Settled acts owner {}
  loser : ∀ o ∈ outcomes, o.responded = false → o.held = {}
  gives : ∀ o ∈ outcomes, o.responded = true → ∃ w, o.Gives w

variable {acts : List Act} {outcomes : List Outcome}

theorem releaseAll_eq (outcomes : List Outcome) :
    releaseAll outcomes = closeAll Outcome.index Outcome.held outcomes := rfl

/-- Telling about the outcomes and releasing those that hold nothing touches no
handle. -/
theorem quiet_opening (hBare : ∀ o ∈ outcomes, o.responded = false → o.held = {}) :
    Quiet (opening outcomes) := by
  have hLosers : ∀ o ∈ outcomes.filter (fun o => !o.responded), o.held = {} := by
    intro o hMem
    obtain ⟨hOutcome, hSilent⟩ := List.mem_filter.mp hMem
    exact hBare o hOutcome (by simpa using hSilent)
  rw [opening, releaseAll_of_bare hLosers, List.append_nil]
  exact quiet_noted _ outcomes

/-- Whoever is not among the responders has nothing. -/
theorem settled_of_not_responder (hReady : Ready acts outcomes) {owner : Nat}
    (hOther : owner ∉ (outcomes.filter Outcome.responded).map Outcome.index) :
    Settled acts owner {} := by
  by_cases hOutcome : owner ∈ outcomes.map Outcome.index
  · obtain ⟨o, hMem, rfl⟩ := List.mem_map.mp hOutcome
    have hSilent : o.responded = false := by
      by_contra hResponded
      have hFiltered : o ∈ outcomes.filter Outcome.responded :=
        List.mem_filter.mpr ⟨hMem, by simpa using hResponded⟩
      exact hOther (List.mem_map_of_mem hFiltered)
    rw [← hReady.loser o hMem hSilent]
    exact hReady.settled o hMem
  · exact hReady.absent owner hOutcome

/-- Releasing some outcomes leaves each of them with nothing, and everybody else
with what it had. -/
theorem settled_releaseAll {released : List Outcome} {owner : Nat} {held : Holdings}
    (hNodup : (released.map Outcome.index).Nodup)
    (hReleased : ∀ o ∈ released, Settled acts o.index o.held)
    (hGone : owner ∈ released.map Outcome.index → held = {})
    (hOther : owner ∉ released.map Outcome.index → Settled acts owner held) :
    Settled (acts ++ releaseAll released) owner held := by
  by_cases hMem : owner ∈ released.map Outcome.index
  · rw [hGone hMem]
    obtain ⟨o, hO, rfl⟩ := List.mem_map.mp hMem
    exact Settled.closeAll Outcome.index Outcome.held hNodup hO (hReleased o hO)
  · exact (hOther hMem).append (spares_closeAll Outcome.index Outcome.held hMem)

/-- What the opening leaves of the accounts. -/
theorem ready_opening (hReady : Ready acts outcomes) : Ready (acts ++ opening outcomes) outcomes :=
  have hQuiet := quiet_opening hReady.loser
  { hReady with
    settled := fun o hMem => (hReady.settled o hMem).append (hQuiet.spares _)
    absent := fun owner hOther => (hReady.absent owner hOther).append (hQuiet.spares _) }

theorem nodup_responders (hReady : Ready acts outcomes) :
    ((outcomes.filter Outcome.responded).map Outcome.index).Nodup :=
  List.Nodup.sublist (List.filter_sublist.map _) hReady.nodup

/-- In an aborted round everybody is released. -/
theorem settled_aborted (hReady : Ready acts outcomes) (owner : Nat) :
    Settled (acts ++ releaseAll (outcomes.filter Outcome.responded)) owner {} := by
  refine settled_releaseAll (nodup_responders hReady) (fun o hMem => ?_) (fun _ => rfl)
    (settled_of_not_responder hReady)
  exact hReady.settled o (List.mem_filter.mp hMem).1

theorem quiet_announcement (winner : Option Winner) : Quiet (announcement winner) := by
  cases winner with
  | none => exact quiet_nil
  | some w => exact fun h => by simp [announcement]

/-- The best responder keeps what it has, and the others are released. -/
theorem settled_award (hReady : Ready acts outcomes) {ordered : List Outcome}
    (hOrdered : ordered.Perm (outcomes.filter Outcome.responded)) (list : ServerList)
    (g : Generator) (owner : Nat) :
    Settled (acts ++ (award list g ordered).acts) owner
      (Winner.holdings (award list g ordered).winner owner) := by
  have hIndices := hOrdered.map Outcome.index
  have hOutcome : ∀ o ∈ ordered, o ∈ outcomes ∧ o.responded = true := fun o hMem =>
    List.mem_filter.mp (hOrdered.mem_iff.mp hMem)
  have hNodup := hIndices.nodup_iff.mpr (nodup_responders hReady)
  cases ordered with
  | nil =>
      rw [award, List.append_nil]
      refine settled_of_not_responder hReady fun hMem => ?_
      exact absurd (hIndices.mem_iff.mpr hMem) List.not_mem_nil
  | cons best losers =>
      rw [List.map_cons, List.nodup_cons] at hNodup
      obtain ⟨hBest, hResponded⟩ := hOutcome best List.mem_cons_self
      obtain ⟨w, hGives⟩ := hReady.gives best hBest hResponded
      have hWinner : (award list g (best :: losers)).winner = some w := award_winner hGives
      have hActs : (award list g (best :: losers)).acts =
          [.movedToFront ((best :: losers).map Outcome.candidate),
            .noted (.preferredServers ((best :: losers).map Outcome.candidate).length)] ++
            releaseAll losers ++ announcement (some w) := by
        simp only [award, hGives.select, List.append_nil]
      have hQuiet : Quiet
          [.movedToFront ((best :: losers).map Outcome.candidate),
            .noted (.preferredServers ((best :: losers).map Outcome.candidate).length)] :=
        fun h => by simp
      rw [hWinner, hActs, ← List.append_assoc, ← List.append_assoc]
      refine Settled.append ?_ ((quiet_announcement _).spares _)
      refine settled_releaseAll hNodup.2 (fun o hMem => ?_) (fun hMem => ?_) (fun hOther => ?_)
      · exact (hReady.settled o (hOutcome o (List.mem_cons_of_mem _ hMem)).1).append
          (hQuiet.spares _)
      · refine Winner.holdings_of_ne fun hEq => hNodup.1 ?_
        rw [← hGives.index, ← hEq]
        exact hMem
      · refine Settled.append ?_ (hQuiet.spares _)
        by_cases hOwner : owner = best.index
        · rw [hOwner, ← hGives.index, Winner.holdings_self, hGives.held, hGives.index]
          exact hReady.settled best hBest
        · rw [Winner.holdings_of_ne (hGives.index ▸ hOwner)]
          refine settled_of_not_responder hReady fun hMem => ?_
          rcases List.mem_cons.mp (hIndices.mem_iff.mpr hMem) with hEq | hLoser
          · exact hOwner hEq
          · exact hOther hLoser

/-- A round that concludes leaves every probe with nothing but the winner's. -/
theorem settled_of (hReady : Ready acts outcomes) (list : ServerList) (g : Generator)
    (first : Option Candidate) (abort : Bool) (owner : Nat) :
    Settled (acts ++ (of list g first abort outcomes).acts) owner
      (Winner.holdings (of list g first abort outcomes).winner owner) := by
  have hOpened := ready_opening hReady
  cases abort with
  | true =>
      show Settled (acts ++ (opening outcomes ++ releaseAll _)) owner {}
      rw [← List.append_assoc]
      exact settled_aborted hOpened owner
  | false =>
      show Settled (acts ++ (opening outcomes ++ (award list _ _).acts)) owner
        (Winner.holdings (award list _ _).winner owner)
      rw [← List.append_assoc]
      exact settled_award hOpened (perm_orderResponders g first _) list _ owner

/-- A winner is made of one of the outcomes that responded. -/
theorem winner_of (hGives : ∀ o ∈ outcomes, o.responded = true → ∃ w, o.Gives w)
    {list : ServerList} {g : Generator} {first : Option Candidate} {abort : Bool} {w : Winner}
    (hWinner : (of list g first abort outcomes).winner = some w) :
    ∃ o ∈ outcomes, o.responded = true ∧ o.Gives w := by
  cases abort with
  | true => cases hWinner
  | false =>
      rcases of_winner list hGives with ⟨-, hNone⟩ | ⟨best, losers, given, hOrdered, hSome, hGiven⟩
      · rw [hNone] at hWinner
        cases hWinner
      · rw [hSome, Option.some.injEq] at hWinner
        have hPerm := perm_orderResponders g first (outcomes.filter Outcome.responded)
        rw [hOrdered] at hPerm
        obtain ⟨hBest, hResponded⟩ := List.mem_filter.mp (hPerm.mem_iff.mp List.mem_cons_self)
        exact ⟨best, hBest, hResponded, hWinner ▸ hGiven⟩

end Conclusion

/-! ## Whole rounds -/

theorem Settled.after_quiet {before acts : List Act} {owner : Nat} {held : Holdings}
    (hQuiet : Quiet before) (hSettled : Settled acts owner held) :
    Settled (before ++ acts) owner held := by
  intro kind
  simpa [hQuiet ⟨kind, owner⟩] using hSettled kind

namespace RoundTrace

variable {request : SelectionRequest} {start : Coordinator} {t : RoundTrace} {scene : Scene}
  {l : PoolLedger}

/-- When a race is over, its ledger is ready for the conclusion. -/
theorem Raced.ready (hRaced : Raced request start scene l) (hClosed : l.Closed) :
    Conclusion.Ready l.acts l.received := by
  have hCustody := hRaced.reached.custody (start.nodup_jobsIn scene)
  have hSent : l.received = l.sent := by
    rw [← hRaced.reached.balanced.received, hClosed.channel, List.append_nil]
  refine ⟨hRaced.nodup, fun o hMem => ?_, fun owner hOther => ?_, fun o hMem hSilent => ?_,
    hRaced.gives⟩
  · exact hCustody.sent o (hSent ▸ hMem)
  · refine hCustody.absent owner ⟨fun job hJob => ?_, fun a hA => ?_, fun o hMem hEq => ?_⟩
    · rw [hClosed.queue] at hJob
      cases hJob
    · rw [hClosed.running] at hA
      cases hA
    · exact hOther (hEq ▸ List.mem_map_of_mem (hSent ▸ hMem))
  · obtain ⟨job, -, hSound⟩ := hRaced.sound o hMem
    exact (hSound.loser hSilent).1

/-- When a round is over, every probe is left with nothing but the winner's. -/
theorem settled_ended {schedule : List (Ambient × RoundEvent)} {winner : Option Winner}
    (hPlay : (RoundTrace.start start).play request schedule = some t)
    (hEnded : t.round.phase = .ended winner) (owner : Nat) :
    Settled t.acts owner (Winner.holdings winner owner) := by
  rcases stands_ended hPlay hEnded with ⟨hGaveUp, rfl⟩ | ⟨scene, l, hConcluded, rfl⟩
  · intro kind
    simp [hGaveUp.idle.quiet ⟨kind, owner⟩, Winner.holdings]
  · obtain ⟨before, hBefore, hActs⟩ := hConcluded.acts
    have hReady := hConcluded.raced.ready hConcluded.closed
    rw [← hConcluded.outcomes] at hReady
    rw [hActs, List.append_assoc]
    exact (Conclusion.settled_of hReady _ _ _ _ owner).after_quiet hBefore.quiet

/-- A winner has a sub-server exactly when its protocol runs through one. -/
theorem hasSubServer_ended {schedule : List (Ambient × RoundEvent)} {w : Winner}
    (hPlay : (RoundTrace.start start).play request schedule = some t)
    (hEnded : t.round.phase = .ended (some w)) : w.hasSubServer = w.protocol.usesSubServer := by
  rcases stands_ended hPlay hEnded with ⟨-, hNone⟩ | ⟨scene, l, hConcluded, hWinner⟩
  · cases hNone
  · obtain ⟨o, -, -, hGiven⟩ := Conclusion.winner_of hConcluded.gives hWinner.symm
    exact hGiven.hasSubServer

/-- Whatever the candidates, the settings, the behaviour of the probes, the order
in which they finish and the moments at which the signals are raised: when a
round is over, no handle was opened twice; what belongs to the winner is open,
and has not been closed; and everything else that was opened was closed exactly
once.  The winner itself knows what it has. -/
theorem closed_once_or_handed_over {request : SelectionRequest} {start : Coordinator}
    {schedule : List (Ambient × RoundEvent)} {t : RoundTrace} {winner : Option Winner}
    (hPlay : (RoundTrace.start start).play request schedule = some t)
    (hEnded : t.round.phase = .ended winner) :
    (∀ h, opens t.acts h ≤ 1) ∧
      (∀ h, (∃ w, winner = some w ∧ w.Owns h) → opens t.acts h = 1 ∧ closes t.acts h = 0) ∧
      (∀ h, ¬(∃ w, winner = some w ∧ w.Owns h) → closes t.acts h = opens t.acts h) ∧
      ∀ w, winner = some w → w.hasSubServer = w.protocol.usesSubServer := by
  have hSub : ∀ w, winner = some w → w.hasSubServer = w.protocol.usesSubServer := by
    rintro w rfl
    exact hasSubServer_ended hPlay hEnded
  have hSettled : ∀ h : Handle, opens t.acts h ≤ 1 ∧
      opens t.acts h = closes t.acts h + (Winner.holdings winner h.owner).count h.kind :=
    fun h => settled_ended hPlay hEnded h.owner h.kind
  refine ⟨fun h => (hSettled h).1, fun h hOwned => ?_, fun h hOther => ?_, hSub⟩
  · have hCount := (Winner.count_holdings hSub h).mpr hOwned
    have hBoth := hSettled h
    omega
  · have hCount : (Winner.holdings winner h.owner).count h.kind ≠ 1 :=
      fun hOne => hOther ((Winner.count_holdings hSub h).mp hOne)
    have hLe := (Winner.holdings winner h.owner).count_le h.kind
    have hBoth := hSettled h
    omega

/-- A round with a winner whose other worker is ended by force in the handshake:
its socket is closed once, and the winner's sub-server is left alone. -/
theorem closed_by_force_and_handed_over :
    ∃ t w,
      (RoundTrace.start Sample.coordinator).play {}
          (Sample.schedule (Sample.probing ++ Sample.coveredResponds ++ Sample.waits ++
            [(1150, .expire)])) = some t ∧
        t.round.phase = .ended (some w) ∧
        (opens t.acts ⟨.subServer, w.index⟩ = 1 ∧ closes t.acts ⟨.subServer, w.index⟩ = 0) ∧
        opens t.acts ⟨.socket, 0⟩ = 1 ∧ closes t.acts ⟨.socket, 0⟩ = opens t.acts ⟨.socket, 0⟩ := by
  have hRun : ((RoundTrace.start Sample.coordinator).play {}
      (Sample.schedule (Sample.probing ++ Sample.coveredResponds ++ Sample.waits ++
        [(1150, .expire)]))).map (fun t => (t.round.phase, opens t.acts ⟨.socket, 0⟩)) =
      some (.ended (some ⟨1, Sample.covered.wroteBack .unfrontedMeekOssh, .unfrontedMeekOssh, false,
        .ofMillis 40, true⟩), 1) := by decide +kernel
  obtain ⟨t, hPlay, hEnd⟩ := Option.map_eq_some_iff.mp hRun
  obtain ⟨hEnded, hOpened⟩ := Prod.mk.inj hEnd
  obtain ⟨-, hOwned, hOther, -⟩ := closed_once_or_handed_over hPlay hEnded
  refine ⟨t, _, hPlay, hEnded, hOwned _ ⟨_, rfl, rfl, fun _ => rfl⟩, hOpened, hOther _ ?_⟩
  rintro ⟨w, hWinner, hOwner, -⟩
  cases hWinner
  cases hOwner

end RoundTrace

end RelayRace
