import RelayRace.Proofs.Selection.Conclusion
import RelayRace.Proofs.Selection.RaceLedger
import RelayRace.Proofs.Selection.RoundStep

/-!
# What a round aims at and what it counts

The targets that are current when a round sends its probes out decide twice by
which protocol a relay is reached: the filter asks whether there is one, and
each worker chooses it again from the same set.  What a worker writes back does
not change the choice, so the protocol of a winner is the first of the round's
targets that the winner supports (`Round.Aims.step`).

A round leaves the targets alone and is recorded once, when it is over, as one
with or without a winner.
-/

namespace RelayRace

/-! ## The choice of a protocol -/

namespace Candidate

/-- What a probe writes back does not change what the candidate supports. -/
theorem supports_wroteBack (candidate : Candidate) (written protocol : Protocol) :
    (candidate.wroteBack written).supports protocol = candidate.supports protocol := by
  cases written <;> rfl

end Candidate

theorem TargetSequence.choose_wroteBack (targets : List Protocol) (candidate : Candidate)
    (written : Protocol) :
    choose targets (candidate.wroteBack written) = choose targets candidate := by
  unfold choose
  congr 1
  funext protocol
  exact candidate.supports_wroteBack written protocol

/-- The protocol of a winner is the first of the targets that it supports. -/
theorem Outcome.Sound.choose_winner {ctx : RoundContext} {job : Job} {o : Outcome} {w : Winner}
    (hSound : o.Sound ctx job) (hSelect : o.select.1 = some w) :
    TargetSequence.choose ctx.targets w.candidate = some w.protocol := by
  have hResponded : o.responded = true := by
    cases hResponded : o.responded with
    | true => rfl
    | false =>
        unfold Outcome.select at hSelect
        split at hSelect
        · simp [hResponded] at hSelect
        · cases hSelect
  obtain ⟨protocol, hChosen, hProtocol, hCandidate, hHeld, -, -⟩ := hSound.responder hResponded
  simp only [Outcome.select, hProtocol, hResponded, hHeld, Bool.and_self, if_true,
    Option.some.injEq] at hSelect
  subst hSelect
  rw [hCandidate, TargetSequence.choose_wroteBack]
  exact hChosen

/-- A winner is made of one of the outcomes. -/
theorem Conclusion.select_of_winner {list : ServerList} {g : Generator}
    {first : Option Candidate} {abort : Bool} {outcomes : List Outcome} {w : Winner}
    (hWinner : (Conclusion.of list g first abort outcomes).winner = some w) :
    ∃ o ∈ outcomes, o.select.1 = some w := by
  cases abort with
  | true => cases hWinner
  | false =>
      have hPerm := perm_orderResponders g first (outcomes.filter Outcome.responded)
      rw [of_eq_award] at hWinner
      generalize orderResponders g first (outcomes.filter Outcome.responded) = order
        at hPerm hWinner
      obtain ⟨ordered, generator⟩ := order
      cases ordered with
      | nil => cases hWinner
      | cons best losers =>
          have hMem : best ∈ outcomes.filter Outcome.responded :=
            hPerm.mem_iff.mp List.mem_cons_self
          exact ⟨best, (List.mem_filter.mp hMem).1, hWinner⟩

/-! ## What a round aims at -/

/-- A round probes with these targets, and every outcome that its race has
received is one of its probes'. -/
def Round.Aims (targets : List Protocol) (round : Round) : Prop :=
  ∀ ctx race, round.phase = .racing ctx race → ctx.targets = targets ∧
    ∃ (size : Nat) (jobs : List Job) (l : PoolLedger), l.Reached ctx size jobs ∧ l.Tracks race

namespace Round

variable {c next : Coordinator} {request : SelectionRequest} {amb : Ambient}
  {round later : Round} {event : RoundEvent} {acts : List Act}

theorem Searches.aims (hSearches : round.Searches) (targets : List Protocol) :
    round.Aims targets := by
  intro ctx race hRacing
  rcases hSearches with hAsking | ⟨sleep, hSleeping⟩
  · cases hAsking.symm.trans hRacing
  · cases hSleeping.symm.trans hRacing

/-- The winner of a conclusion is one of those that the round aimed at. -/
theorem choose_of_conclude {ctx : RoundContext} {dispatched : Nat} {outcomes : List Outcome}
    {w : Winner} (hSound : ∀ o ∈ outcomes, ∃ job, o.Sound ctx job)
    (hWinner : (conclude c round amb dispatched outcomes).2.1.phase = .ended (some w)) :
    TargetSequence.choose ctx.targets w.candidate = some w.protocol := by
  rw [phase_conclude] at hWinner
  obtain ⟨o, hMem, hSelect⟩ := Conclusion.select_of_winner (RoundPhase.ended.inj hWinner)
  obtain ⟨job, hOutcome⟩ := hSound o hMem
  exact hOutcome.choose_winner hSelect

theorem aims_of_ended {winner : Option Winner} (hEnded : round.phase = .ended winner)
    (targets : List Protocol) : round.Aims targets := by
  intro ctx race hRacing
  cases hEnded.symm.trans hRacing

/-- What a race has received are outcomes of its jobs, also after its next
step. -/
theorem sound_of_race {settings : Settings} {ctx : RoundContext} {race after : Race}
    {event : Race.Event} {size : Nat} {jobs : List Job} {l : PoolLedger}
    (hReached : l.Reached ctx size jobs) (hTracks : l.Tracks race)
    (hRace : race.step settings ctx amb event = some (after, acts)) :
    ∀ o ∈ after.received, ∃ job, o.Sound ctx job := by
  have hKeepsUp := hTracks.step hReached hRace
  have hBalanced := hKeepsUp.reached.balanced
  intro o hMem
  rw [← hKeepsUp.tracks.received] at hMem
  obtain ⟨job, -, hSound⟩ := hBalanced.outcomes o (by
    rw [← hBalanced.received]
    exact List.mem_append_left _ hMem)
  exact ⟨job, hSound⟩

/-- A round goes on with the targets with which it began, and whoever wins it is
reached by the first of them that it supports. -/
theorem Aims.step (hAims : round.Aims c.targets.current)
    (hStep : round.step c request amb event = some (next, later, acts)) :
    later.Aims c.targets.current ∧ ∀ w, later.phase = .ended (some w) →
      TargetSequence.choose c.targets.current w.candidate = some w.protocol := by
  cases stepsTo_of_step hStep with
  | gaveUp hSearches hAbort =>
      refine ⟨aims_of_ended (phase_giveUp _ _ _) _, fun w hEnded => ?_⟩
      rw [phase_giveUp] at hEnded
      cases hEnded
  | searched hSearches hAbort hLater =>
      refine ⟨hLater.aims _, fun w hEnded => ?_⟩
      rcases hLater with hAsking | ⟨sleep, hSleeping⟩
      · cases hAsking.symm.trans hEnded
      · cases hSleeping.symm.trans hEnded
  | crashed hAsking hAbort hCrashed =>
      refine ⟨fun ctx race hRacing => ?_, fun w hEnded => ?_⟩
      · cases hCrashed.symm.trans hRacing
      · cases hCrashed.symm.trans hEnded
  | deserted hAsking hAbort =>
      refine ⟨aims_of_ended (phase_conclude _ _ _ _ _) _, fun w hEnded => ?_⟩
      rw [phase_conclude] at hEnded
      obtain ⟨o, hMem, -⟩ := Conclusion.select_of_winner (RoundPhase.ended.inj hEnded)
      cases hMem
  | @dispatched scene generator _ jobs hAsking hAbort hRacing =>
      refine ⟨fun ctx race hPhase => ?_, fun w hEnded => ?_⟩
      · cases hRacing.symm.trans hPhase
        exact ⟨rfl, c.settings.poolSize, jobs, _, PoolLedger.reached_start _ _ _,
          PoolLedger.tracks_start _ _ _⟩
      · cases hRacing.symm.trans hEnded
  | raced hRacing hRace hUnder hLater =>
      obtain ⟨hTargets, size, jobs, l, hReached, hTracks⟩ := hAims _ _ hRacing
      have hKeepsUp := hTracks.step hReached hRace
      refine ⟨fun ctx race hPhase => ?_, fun w hEnded => ?_⟩
      · cases hLater.symm.trans hPhase
        exact ⟨hTargets, size, jobs, _, hKeepsUp.reached, hKeepsUp.tracks⟩
      · cases hLater.symm.trans hEnded
  | collapsed hRacing hRace hOver hFailed hCrashed =>
      refine ⟨fun ctx race hPhase => ?_, fun w hEnded => ?_⟩
      · cases hCrashed.symm.trans hPhase
      · cases hCrashed.symm.trans hEnded
  | concluded hRacing hRace hOver =>
      obtain ⟨hTargets, size, jobs, l, hReached, hTracks⟩ := hAims _ _ hRacing
      refine ⟨aims_of_ended (phase_conclude _ _ _ _ _) _, fun w hEnded => ?_⟩
      rw [← hTargets]
      exact choose_of_conclude (sound_of_race hReached hTracks hRace) hEnded

end Round

/-! ## What is counted -/

/-- The statistics after so many more rounds with a winner and without one. -/
structure Statistics.Counts (before after : Statistics) (won lost : Nat) : Prop where
  total : after.total = before.total + (won + lost)
  successful : after.successful = before.successful + won
  failed : after.failed = before.failed + lost

theorem Statistics.Counts.trans {before middle after : Statistics} {won lost more fewer : Nat}
    (hFirst : before.Counts middle won lost) (hSecond : middle.Counts after more fewer) :
    before.Counts after (won + more) (lost + fewer) := by
  obtain ⟨hTotal, hWon, hLost⟩ := hFirst
  obtain ⟨hTotal', hWon', hLost'⟩ := hSecond
  constructor <;> omega

namespace Round

variable {c next : Coordinator} {request : SelectionRequest} {amb : Ambient}
  {round later : Round} {event : RoundEvent} {acts : List Act}

/-- What a step of a round does to what lasts, but for the list and the
generator. -/
structure Keeps (c next : Coordinator) (later : Round) : Prop where
  targets : next.targets = c.targets
  /-- Nothing is recorded before the round is over. -/
  under : (∀ winner, later.phase ≠ .ended winner) → next.statistics = c.statistics
  /-- A round that is over is recorded as one with or without a winner. -/
  ended : ∀ winner, later.phase = .ended winner →
    c.statistics.Counts next.statistics (if winner.isSome then 1 else 0)
      (if winner.isSome then 0 else 1)

/-- A round without a summary of its own is recorded once. -/
theorem keeps_finish (c : Coordinator) (round : Round) (summary : Summary)
    (winner : Option Winner) (hSummary : summary.winner = none) :
    Keeps c (finish c round summary winner).1 (finish c round summary winner).2 where
  targets := rfl
  under hUnder := absurd rfl (hUnder winner)
  ended other hEnded := by
    cases hEnded
    cases winner with
    | none =>
        have hFailed : summary.succeeded = false := by rw [Summary.succeeded, hSummary]; rfl
        constructor <;> simp [finish, Statistics.record, hFailed]
    | some w =>
        constructor <;>
          simp [finish, Statistics.record, Statistics.recordWin, Summary.succeeded]

theorem keeps_conclude (c : Coordinator) (round : Round) (amb : Ambient) (dispatched : Nat)
    (outcomes : List Outcome) :
    Keeps c (conclude c round amb dispatched outcomes).1
      (conclude c round amb dispatched outcomes).2.1 := by
  have hKeeps := keeps_finish
    { c with
      list := (Conclusion.of c.list c.generator round.first amb.abort outcomes).list
      generator := (Conclusion.of c.list c.generator round.first amb.abort outcomes).generator }
    round
    { dispatched
      completed := outcomes.length
      responded := (outcomes.filter Outcome.responded).length
      aborted := amb.abort }
    (Conclusion.of c.list c.generator round.first amb.abort outcomes).winner rfl
  simp only [conclude]
  generalize finish _ round _ _ = ended at hKeeps ⊢
  exact ⟨hKeeps.targets, hKeeps.under, hKeeps.ended⟩

theorem keeps_of_step (hStep : round.step c request amb event = some (next, later, acts)) :
    Keeps c next later := by
  cases stepsTo_of_step hStep with
  | @gaveUp event told => exact keeps_finish c told { aborted := amb.abort } none rfl
  | searched hSearches hAbort hLater =>
      refine ⟨rfl, fun _ => rfl, fun winner hEnded => ?_⟩
      rcases hLater with hAsking | ⟨sleep, hSleeping⟩
      · cases hAsking.symm.trans hEnded
      · cases hSleeping.symm.trans hEnded
  | crashed hAsking hAbort hCrashed =>
      refine ⟨rfl, fun _ => rfl, fun winner hEnded => ?_⟩
      cases hCrashed.symm.trans hEnded
  | @deserted scene generator told =>
      have hKeeps := keeps_conclude { c with generator } told amb 0 []
      exact ⟨hKeeps.targets, hKeeps.under, hKeeps.ended⟩
  | dispatched hAsking hAbort hRacing =>
      refine ⟨rfl, fun _ => rfl, fun winner hEnded => ?_⟩
      cases hRacing.symm.trans hEnded
  | raced hRacing hRace hUnder hLater =>
      refine ⟨rfl, fun _ => rfl, fun winner hEnded => ?_⟩
      cases hLater.symm.trans hEnded
  | collapsed hRacing hRace hOver hFailed hCrashed =>
      refine ⟨rfl, fun _ => rfl, fun winner hEnded => ?_⟩
      cases hCrashed.symm.trans hEnded
  | concluded => exact keeps_conclude c round amb _ _

end Round

end RelayRace
