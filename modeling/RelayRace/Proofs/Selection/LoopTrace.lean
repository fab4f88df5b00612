import RelayRace.Proofs.Schedule
import RelayRace.Proofs.Selection.Aim
import RelayRace.Proofs.Selection.LoopStep
import RelayRace.Proofs.Selection.RoundTrace
import RelayRace.Proofs.TargetSequence

/-!
# What a run loop did on its way

A trace keeps a run loop together with the milestones that it has passed.  The
stored list may be changed by others at any time; the targets are the loop's
own.

Everything that is counted follows from the number of rounds that had no winner
(`LoopTrace.Stands`): each of them was followed by one advance, one refresh and
one rest, so the number gives the targets of the next round, the milestones up
to it, and what was recorded.
-/

namespace RelayRace

/-! ## Milestones -/

namespace Milestone

/-- The milestone of the round that comes after so many rounds without a
winner. -/
def roundAfter (targets : TargetSequence) (lost : Nat) : Milestone :=
  .round (targets.later lost).index

/-- All milestones up to the round that comes after so many rounds without a
winner. -/
def before (targets : TargetSequence) (lost : Nat) : List Milestone :=
  (List.range lost).flatMap fun earlier => [roundAfter targets earlier, .advance, .refresh, .rest]

theorem before_succ (targets : TargetSequence) (lost : Nat) :
    before targets (lost + 1) =
      before targets lost ++ [roundAfter targets lost, .advance, .refresh, .rest] := by
  simp [before, List.range_succ]

/-- The same with that round. -/
def withRound (targets : TargetSequence) (lost : Nat) : List Milestone :=
  before targets lost ++ [roundAfter targets lost]

/-- Whether a round is started. -/
def isRound : Milestone → Bool
  | .round _ => true
  | .advance | .refresh | .rest => false

theorem count_before (targets : TargetSequence) (lost : Nat) :
    (before targets lost).countP isRound = lost ∧ (before targets lost).count .advance = lost ∧
      (before targets lost).count .refresh = lost := by
  induction lost with
  | zero => exact ⟨rfl, rfl, rfl⟩
  | succ lost ih =>
      obtain ⟨hRounds, hAdvances, hRefreshes⟩ := ih
      rw [before_succ]
      simp only [List.countP_append, List.count_append, hRounds, hAdvances, hRefreshes]
      exact ⟨rfl, rfl, rfl⟩

theorem count_withRound (targets : TargetSequence) (lost : Nat) :
    (withRound targets lost).countP isRound = lost + 1 ∧
      (withRound targets lost).count .advance = lost ∧
      (withRound targets lost).count .refresh = lost := by
  obtain ⟨hRounds, hAdvances, hRefreshes⟩ := count_before targets lost
  simp only [withRound, List.countP_append, List.count_append, hRounds, hAdvances, hRefreshes]
  exact ⟨rfl, rfl, rfl⟩

end Milestone

/-! ## Traces -/

/-- A run loop with the milestones that it has passed. -/
structure LoopTrace where
  coordinator : Coordinator
  phase : LoopPhase := .deciding
  milestones : List Milestone := []

/-- What can happen while a loop runs. -/
inductive LoopTrace.Event where
  /-- Something happens in the loop. -/
  | loop (amb : Ambient) (event : LoopEvent)
  /-- Somebody else changes the stored list. -/
  | store (list : ServerList)

namespace LoopTrace

/-- The trace of a loop that has not done anything yet. -/
def start (c : Coordinator) : LoopTrace := { coordinator := c }

/-- One event; none when it cannot happen now. -/
def step (request : SelectionRequest) (t : LoopTrace) : Event → Option LoopTrace
  | .loop amb event =>
      match RunLoop.step t.coordinator request amb t.phase event with
      | some (coordinator, phase, _) =>
          some
            { coordinator, phase
              milestones := t.milestones ++ Milestone.passed t.coordinator t.phase phase }
      | none => none
  | .store list => some { t with coordinator := { t.coordinator with list } }

/-- The trace after a schedule. -/
def play (request : SelectionRequest) (t : LoopTrace) (schedule : List Event) :
    Option LoopTrace :=
  playSchedule (step request) t schedule

/-- What lasts after so many advances and recorded rounds. -/
structure Counted (start : Coordinator) (t : LoopTrace) (advances won lost : Nat)
    (milestones : List Milestone) : Prop where
  targets : t.coordinator.targets = start.targets.later advances
  statistics : start.statistics.Counts t.coordinator.statistics won lost
  milestones : t.milestones = milestones

/-- What a loop can have come to after some rounds without a winner. -/
inductive Stands (start : Coordinator) (t : LoopTrace) : Prop where
  /-- It is between two rounds. -/
  | between {lost : Nat} :
      t.phase = .deciding ∨ (∃ sleep, t.phase = .resting sleep) ∨ t.phase = .ended none →
      Counted start t lost 0 lost (Milestone.before start.targets lost) → Stands start t
  /-- A round is under way, or crashed. -/
  | selecting {lost : Nat} :
      (∃ round, t.phase = .selecting round ∧ round.Aims (start.targets.later lost).current) ∨
        t.phase = .crashed →
      Counted start t lost 0 lost
        (Milestone.withRound start.targets lost) →
      Stands start t
  /-- A round without a winner was aborted. -/
  | stopped {lost : Nat} :
      t.phase = .ended none →
      Counted start t lost 0 (lost + 1)
        (Milestone.withRound start.targets lost) →
      Stands start t
  /-- The next targets are set, and the list is being refreshed. -/
  | refreshing {lost : Nat} :
      t.phase = .refreshing →
      Counted start t (lost + 1) 0 (lost + 1)
        (Milestone.before start.targets lost ++
          [.roundAfter start.targets lost, .advance, .refresh]) →
      Stands start t
  /-- A round has a winner. -/
  | won {lost : Nat} {w : Winner} :
      t.phase = .ended (some w) →
      TargetSequence.choose (start.targets.later lost).current w.candidate = some w.protocol →
      Counted start t lost 1 lost
        (Milestone.withRound start.targets lost) →
      Stands start t

variable {start : Coordinator} {request : SelectionRequest} {t : LoopTrace}

/-- A loop that has not done anything yet stands before its first round. -/
theorem stands_start (start : Coordinator) : Stands start (LoopTrace.start start) := by
  have hCounted : Counted start (LoopTrace.start start) 0 0 0 (Milestone.before start.targets 0) :=
    { targets := (start.targets.later_zero).symm
      statistics := ⟨rfl, rfl, rfl⟩
      milestones := rfl }
  exact .between (.inl rfl) hCounted

/-! ## One event -/

section Steps

variable {amb : Ambient} {event : LoopEvent} {c : Coordinator} {phase : LoopPhase}
  {acts : List Act} {lost : Nat} {milestones : List Milestone}

/-- The trace after a step of the loop. -/
def after (t : LoopTrace) (c : Coordinator) (phase : LoopPhase) : LoopTrace where
  coordinator := c
  phase := phase
  milestones := t.milestones ++ Milestone.passed t.coordinator t.phase phase

/-- A loop that is called off, or looks at the signal in its rest, has counted
nothing new. -/
theorem stands_between
    (hCounted : Counted start t lost 0 lost (Milestone.before start.targets lost))
    (hPhase : t.phase = .deciding ∨ (∃ sleep, t.phase = .resting sleep) ∨ t.phase = .ended none)
    (hStep : RunLoop.StepsTo t.coordinator request amb t.phase event c phase acts) :
    Stands start (t.after c phase) := by
  obtain ⟨hTargets, hStatistics, hMilestones⟩ := hCounted
  rcases hPhase with hDeciding | ⟨sleep, hResting⟩ | hEnded
  · rw [hDeciding] at hStep
    cases hStep with
    | calledOff =>
        refine .between (.inr (.inr rfl)) ⟨hTargets, hStatistics, ?_⟩
        simp [after, Milestone.passed, hDeciding, hMilestones]
    | began =>
        have hAims : ({} : Round).Aims (start.targets.later lost).current :=
          Round.Searches.aims (.inl rfl) _
        refine .selecting (.inl ⟨{}, rfl, hAims⟩) ⟨hTargets, hStatistics, ?_⟩
        simp [after, Milestone.passed, hDeciding, hMilestones, hTargets, Milestone.withRound,
          Milestone.roundAfter]
  · rw [hResting] at hStep
    cases hStep with
    | looked =>
        refine .between ?_ ⟨hTargets, hStatistics, ?_⟩
        · show RunLoop.afterLook _ = _ ∨ (∃ sleep, RunLoop.afterLook _ = _) ∨
            RunLoop.afterLook _ = _
          cases sleep.resume amb.now amb.abort with
          | aborted => exact .inr (.inr rfl)
          | rested => exact .inl rfl
          | asleep sleep => exact .inr (.inl ⟨sleep, rfl⟩)
        · simp [after, Milestone.passed, hResting, hMilestones]
  · rw [hEnded] at hStep
    cases hStep

/-- A round that is over is counted, and one without a winner is followed by an
advance unless it is aborted. -/
theorem stands_selecting {round : Round} (hPhase : t.phase = .selecting round)
    (hAims : round.Aims (start.targets.later lost).current)
    (hCounted : Counted start t lost 0 lost
      (Milestone.withRound start.targets lost))
    (hStep : RunLoop.StepsTo t.coordinator request amb t.phase event c phase acts) :
    Stands start (t.after c phase) := by
  obtain ⟨hTargets, hStatistics, hMilestones⟩ := hCounted
  rw [← hTargets] at hAims
  rw [hPhase] at hStep
  cases hStep with
  | @went _ later _ _ _ hRound hUnder =>
      have hKeeps := Round.keeps_of_step hRound
      have hGoing : ∀ winner, later.phase ≠ .ended winner := by
        intro winner hEnded
        simp [Round.isUnderWay, hEnded] at hUnder
      refine .selecting (.inl ⟨later, rfl, hTargets ▸ (hAims.step hRound).1⟩)
        ⟨hKeeps.targets.trans hTargets, ?_, ?_⟩
      · exact (hKeeps.under hGoing).symm ▸ hStatistics
      · simp [after, Milestone.passed, hPhase, hMilestones]
  | won hRound hEnded =>
      have hKeeps := Round.keeps_of_step hRound
      refine .won rfl (hTargets ▸ (hAims.step hRound).2 _ hEnded)
        ⟨hKeeps.targets.trans hTargets, hStatistics.trans (hKeeps.ended _ hEnded), ?_⟩
      simp [after, Milestone.passed, hPhase, hMilestones]
  | stopped hRound hEnded =>
      have hKeeps := Round.keeps_of_step hRound
      refine .stopped rfl
        ⟨hKeeps.targets.trans hTargets, hStatistics.trans (hKeeps.ended _ hEnded), ?_⟩
      simp [after, Milestone.passed, hPhase, hMilestones]
  | rotated hRound hEnded =>
      have hKeeps := Round.keeps_of_step hRound
      refine .refreshing rfl ⟨?_, hStatistics.trans (hKeeps.ended _ hEnded), ?_⟩
      · show TargetSequence.advance _ = _
        rw [hKeeps.targets, hTargets, TargetSequence.advance_later]
      · simp [after, Milestone.passed, hPhase, hMilestones, Milestone.withRound]
  | crashed hRound hCrashed =>
      have hKeeps := Round.keeps_of_step hRound
      have hGoing := hKeeps.under fun winner hEnded => by cases hCrashed.symm.trans hEnded
      refine .selecting (.inr rfl) ⟨hKeeps.targets.trans hTargets, hGoing.symm ▸ hStatistics, ?_⟩
      simp [after, Milestone.passed, hPhase, hMilestones]

/-- After a refresh comes a rest, whatever the refresh came to. -/
theorem stands_refreshing (hPhase : t.phase = .refreshing)
    (hCounted : Counted start t (lost + 1) 0 (lost + 1)
      (Milestone.before start.targets lost ++
        [.roundAfter start.targets lost, .advance, .refresh]))
    (hStep : RunLoop.StepsTo t.coordinator request amb t.phase event c phase acts) :
    Stands start (t.after c phase) := by
  obtain ⟨hTargets, hStatistics, hMilestones⟩ := hCounted
  rw [hPhase] at hStep
  cases hStep with
  | refreshed =>
      generalize Sleep.start _ _ _ _ = look
      have hPassed : t.milestones ++
          Milestone.passed t.coordinator t.phase (RunLoop.afterLook look) =
            Milestone.before start.targets (lost + 1) := by
        simp [Milestone.passed, hPhase, hMilestones, Milestone.before_succ]
      refine .between ?_ ⟨hTargets, hStatistics, hPassed⟩
      cases look with
      | aborted => exact .inr (.inr rfl)
      | rested => exact .inl rfl
      | asleep sleep => exact .inr (.inl ⟨sleep, rfl⟩)

end Steps

/-- A change of the stored list changes nothing that is counted. -/
theorem Counted.store {advances won lost : Nat} {milestones : List Milestone}
    (hCounted : Counted start t advances won lost milestones) (list : ServerList) :
    Counted start { t with coordinator := { t.coordinator with list } } advances won lost
      milestones :=
  ⟨hCounted.targets, hCounted.statistics, hCounted.milestones⟩

theorem Stands.step {event : Event} {next : LoopTrace} (hStands : Stands start t)
    (hStep : t.step request event = some next) : Stands start next := by
  cases event with
  | store list =>
      cases hStep
      cases hStands with
      | between hPhase hCounted => exact .between hPhase (hCounted.store list)
      | selecting hPhase hCounted => exact .selecting hPhase (hCounted.store list)
      | stopped hPhase hCounted => exact .stopped hPhase (hCounted.store list)
      | refreshing hPhase hCounted => exact .refreshing hPhase (hCounted.store list)
      | won hPhase hChosen hCounted => exact .won hPhase hChosen (hCounted.store list)
  | loop amb event =>
      simp only [LoopTrace.step] at hStep
      split at hStep
      · rename_i c phase acts hLoop
        cases hStep
        have hSteps := RunLoop.stepsTo_of_step hLoop
        cases hStands with
        | between hPhase hCounted => exact stands_between hCounted hPhase hSteps
        | selecting hPhase hCounted =>
            rcases hPhase with ⟨round, hSelecting, hAims⟩ | hCrashed
            · exact stands_selecting hSelecting hAims hCounted hSteps
            · rw [hCrashed] at hSteps
              cases hSteps
        | stopped hPhase =>
            rw [hPhase] at hSteps
            cases hSteps
        | refreshing hPhase hCounted => exact stands_refreshing hPhase hCounted hSteps
        | won hPhase =>
            rw [hPhase] at hSteps
            cases hSteps
      · cases hStep

/-- Whatever happens to a loop, and whenever, it stands in one of these ways. -/
theorem stands_play {schedule : List Event}
    (hPlay : (LoopTrace.start start).play request schedule = some t) : Stands start t :=
  playSchedule_keeps schedule (fun _ _ _ _ hBefore hStep => hBefore.step hStep)
    (stands_start start) hPlay

/-! ## Refreshes that fail -/

/-- What is accounted for at any moment of a run. -/
structure Accounted (start : Coordinator) (request : SelectionRequest) (t : LoopTrace) : Prop where
  /-- A winner comes after some rounds without one.  Each of these was followed by
  an advance, a refresh and a rest, and the winner's protocol is the first of the
  last round's targets that it supports. -/
  won : ∀ w, t.phase = .ended (some w) → ∃ lost,
    t.milestones = Milestone.withRound start.targets lost ∧
      start.statistics.Counts t.coordinator.statistics 1 lost ∧
      TargetSequence.choose (start.targets.later lost).current w.candidate = some w.protocol
  /-- When a run is aborted, there were as many refreshes as advances, one for
  each round but perhaps the last. -/
  aborted : t.phase = .ended none →
    t.milestones.count .advance = t.milestones.count .refresh ∧
      (t.milestones.countP Milestone.isRound = t.milestones.count .advance ∨
        t.milestones.countP Milestone.isRound = t.milestones.count .advance + 1) ∧
      start.statistics.Counts t.coordinator.statistics 0 (t.milestones.countP Milestone.isRound)
  /-- A round under way filters and probes with the targets of its turn. -/
  probing : ∀ round, t.phase = .selecting round → ∃ lost,
    t.milestones = Milestone.withRound start.targets lost ∧
      (∀ scene, (Round.filterOf t.coordinator scene).targets =
        (start.targets.later lost).current) ∧
      ∀ ctx race, round.phase = .racing ctx race →
        ctx.targets = (start.targets.later lost).current
  /-- A refresh that fails changes nothing and is told in one line. -/
  failing : t.phase = .refreshing → ∀ (amb : Ambient) (failure : Failure) (unasked : ServerList),
    t.coordinator.list.asksRemote amb.now = true → unasked.hasRemote = false →
      ∃ next phase line,
        RunLoop.step t.coordinator request amb t.phase (.refresh (.error failure)) =
            some (next, phase,
              [.fetched (t.coordinator.protectorFor request).isSome, .noted line]) ∧
          line.level = .warn ∧ next.list = t.coordinator.list ∧
          RunLoop.step { t.coordinator with list := unasked } request amb t.phase
              (.refresh (.error failure)) =
            some ({ next with list := unasked }, phase, [])

theorem Stands.aborted (hStands : Stands start t) (hEnded : t.phase = .ended none) :
    t.milestones.count .advance = t.milestones.count .refresh ∧
      (t.milestones.countP Milestone.isRound = t.milestones.count .advance ∨
        t.milestones.countP Milestone.isRound = t.milestones.count .advance + 1) ∧
      start.statistics.Counts t.coordinator.statistics 0
        (t.milestones.countP Milestone.isRound) := by
  cases hStands with
  | @between lost hPhase hCounted =>
      obtain ⟨hRounds, hAdvances, hRefreshes⟩ := Milestone.count_before start.targets lost
      rw [hCounted.milestones, hRounds, hAdvances, hRefreshes]
      exact ⟨rfl, .inl rfl, hCounted.statistics⟩
  | @stopped lost hPhase hCounted =>
      obtain ⟨hRounds, hAdvances, hRefreshes⟩ := Milestone.count_withRound start.targets lost
      rw [hCounted.milestones, hRounds, hAdvances, hRefreshes]
      exact ⟨rfl, .inr rfl, hCounted.statistics⟩
  | selecting hPhase =>
      rcases hPhase with ⟨round, hSelecting, -⟩ | hCrashed
      · cases hSelecting.symm.trans hEnded
      · cases hCrashed.symm.trans hEnded
  | refreshing hPhase => cases hPhase.symm.trans hEnded
  | won hPhase => cases hPhase.symm.trans hEnded

end LoopTrace

/-! ## A run of two rounds -/

namespace Sample

end Sample

end RelayRace
