import RelayRace.Selection.RunLoop

/-!
# What an event does to a run loop

A loop looks at the signal at three places only: before a round, after a round
without a winner, and in its rest.  `RunLoop.StepsTo` lists the steps between
them one by one.

What a loop sets out to do on its way is told by milestones: a round, an advance
of the targets, a refresh of the list, a rest.  Which of them a step passes
follows from the phases before and after it.
-/

namespace RelayRace

/-- Something that a run loop sets out to do. -/
inductive Milestone where
  /-- It starts a round with the targets at this index. -/
  | round (index : Nat)
  /-- It moves on to the next targets. -/
  | advance
  /-- It asks for a refresh of the stored list. -/
  | refresh
  /-- It lies down to rest. -/
  | rest
  deriving DecidableEq, Repr

/-- The milestones that a loop passes on its way from one phase to another. -/
def Milestone.passed (c : Coordinator) : LoopPhase → LoopPhase → List Milestone
  | .deciding, .selecting _ => [.round c.targets.index]
  | .selecting _, .refreshing => [.advance, .refresh]
  | .refreshing, _ => [.rest]
  | _, _ => []

/-- Whether a round is neither over nor crashed. -/
def Round.isUnderWay (round : Round) : Bool :=
  match round.phase with
  | .asking | .sleeping _ | .racing .. => true
  | .ended _ | .crashed => false

/-- Whether a loop is over. -/
def LoopPhase.isOver : LoopPhase → Bool
  | .ended _ | .crashed => true
  | .deciding | .selecting _ | .refreshing | .resting _ => false

namespace RunLoop

/-- Everything that one event can make of a run loop. -/
inductive StepsTo (c : Coordinator) (request : SelectionRequest) (amb : Ambient) :
    LoopPhase → LoopEvent → Coordinator → LoopPhase → List Act → Prop where
  /-- The signal is raised before a round. -/
  | calledOff : amb.abort = true → StepsTo c request amb .deciding .decide c (.ended none) []
  /-- A round is started. -/
  | began : amb.abort = false →
      StepsTo c request amb .deciding .decide c (.selecting {})
        [.noted (.selecting c.targets.label)]
  /-- Something happens in the round, which goes on. -/
  | went {round later : Round} {event : RoundEvent} {next : Coordinator} {acts : List Act} :
      round.step c request amb event = some (next, later, acts) → later.isUnderWay = true →
      StepsTo c request amb (.selecting round) (.round event) next (.selecting later) acts
  /-- The round has a winner. -/
  | won {round later : Round} {event : RoundEvent} {next : Coordinator} {acts : List Act}
      {winner : Winner} :
      round.step c request amb event = some (next, later, acts) →
      later.phase = .ended (some winner) →
      StepsTo c request amb (.selecting round) (.round event) next (.ended (some winner)) acts
  /-- The round has no winner, and the signal is raised. -/
  | stopped {round later : Round} {event : RoundEvent} {next : Coordinator} {acts : List Act} :
      round.step c request amb event = some (next, later, acts) → later.phase = .ended none →
      amb.abort = true →
      StepsTo c request amb (.selecting round) (.round event) next (.ended none) acts
  /-- The round has no winner, and the next targets are set. -/
  | rotated {round later : Round} {event : RoundEvent} {next : Coordinator} {acts : List Act} :
      round.step c request amb event = some (next, later, acts) → later.phase = .ended none →
      amb.abort = false →
      StepsTo c request amb (.selecting round) (.round event) (rotate next).1 .refreshing
        (acts ++ (rotate next).2)
  /-- The round crashed. -/
  | crashed {round later : Round} {event : RoundEvent} {next : Coordinator} {acts : List Act} :
      round.step c request amb event = some (next, later, acts) → later.phase = .crashed →
      StepsTo c request amb (.selecting round) (.round event) next .crashed acts
  /-- The refresh is over, and the loop lies down to rest. -/
  | refreshed {answer : Except Failure (List Candidate)} :
      StepsTo c request amb .refreshing (.refresh answer) (refresh c request amb answer).1
        (afterLook (Sleep.start amb.now (c.settings.backoff c.generator).1 c.settings.connectPoll
          amb.abort)) (refresh c request amb answer).2.2
  /-- The signal is looked at in the rest, or the rest is over. -/
  | looked {sleep : Sleep} :
      sleep.wake ≤ amb.now →
      StepsTo c request amb (.resting sleep) .wake c
        (afterLook (sleep.resume amb.now amb.abort)) []

variable {c next : Coordinator} {request : SelectionRequest} {amb : Ambient}
  {phase after : LoopPhase} {event : LoopEvent} {acts : List Act}

theorem stepsTo_of_round {round : Round} {event : RoundEvent}
    (hStep : step c request amb (.selecting round) (.round event) = some (next, after, acts)) :
    StepsTo c request amb (.selecting round) (.round event) next after acts := by
  simp only [step] at hStep
  split at hStep
  · rename_i coordinator later roundActs hRound
    cases hPhase : later.phase with
    | asking | sleeping _ | racing _ _ =>
        simp only [afterRound, hPhase, Option.some.injEq, List.append_nil] at hStep
        cases hStep
        exact .went hRound (by simp only [Round.isUnderWay, hPhase])
    | crashed =>
        simp only [afterRound, hPhase, Option.some.injEq, List.append_nil] at hStep
        cases hStep
        exact .crashed hRound hPhase
    | ended winner =>
        cases winner with
        | some winner =>
            simp only [afterRound, hPhase, Option.some.injEq, List.append_nil] at hStep
            cases hStep
            exact .won hRound hPhase
        | none =>
            cases hAbort : amb.abort with
            | true =>
                simp only [afterRound, hPhase, hAbort, if_true, Option.some.injEq,
                  List.append_nil] at hStep
                cases hStep
                exact .stopped hRound hPhase hAbort
            | false =>
                simp only [afterRound, hPhase, hAbort, Bool.false_eq_true, if_false,
                  Option.some.injEq] at hStep
                cases hStep
                exact .rotated hRound hPhase hAbort
  · cases hStep

theorem stepsTo_of_step (hStep : step c request amb phase event = some (next, after, acts)) :
    StepsTo c request amb phase event next after acts := by
  cases phase with
  | deciding =>
      cases event with
      | decide =>
          cases hAbort : amb.abort with
          | true =>
              simp only [step, RunLoop.decide, hAbort, if_true, Option.some.injEq] at hStep
              cases hStep
              exact .calledOff hAbort
          | false =>
              simp only [step, RunLoop.decide, hAbort, Bool.false_eq_true, if_false,
                Option.some.injEq] at hStep
              cases hStep
              exact .began hAbort
      | round | refresh | wake => cases hStep
  | selecting round =>
      cases event with
      | round event => exact stepsTo_of_round hStep
      | decide | refresh | wake => cases hStep
  | refreshing =>
      cases event with
      | refresh answer =>
          cases hStep
          exact .refreshed
      | decide | round | wake => cases hStep
  | resting sleep =>
      cases event with
      | wake =>
          simp only [step] at hStep
          split at hStep
          · cases hStep
            exact .looked ‹_›
          · cases hStep
      | decide | round | refresh => cases hStep
  | ended winner => cases hStep
  | crashed => cases hStep

end RunLoop

end RelayRace
