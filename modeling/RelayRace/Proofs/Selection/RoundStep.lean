import RelayRace.Selection.Round

/-!
# What an event does to a round

A round looks for a network until it finds one or is called off, sends its
probes out, and concludes when their race is over.  `Round.StepsTo` lists these
cases with all that is known in each.  Whether the round has told that it waits
is left open in it, for nothing but that line depends on it.
-/

namespace RelayRace

/-- Whether a round looks for a network. -/
def Round.Searches (round : Round) : Prop :=
  round.phase = .asking ∨ ∃ sleep, round.phase = .sleeping sleep

namespace Round

/-- Everything that one event can make of a round. -/
inductive StepsTo (c : Coordinator) (request : SelectionRequest) (amb : Ambient) (round : Round) :
    RoundEvent → Coordinator → Round → Prop where
  /-- The round is called off before it has found a network. -/
  | gaveUp {event : RoundEvent} {told : Round} :
      round.Searches → amb.abort = true →
      StepsTo c request amb round event (giveUp c told amb).1 (giveUp c told amb).2
  /-- The search goes on. -/
  | searched {event : RoundEvent} {later : Round} :
      round.Searches → amb.abort = false → later.Searches →
      StepsTo c request amb round event c later
  /-- Asking for the region crashes. -/
  | crashed {scene : Scene} {generator : Generator} {later : Round} :
      round.phase = .asking → amb.abort = false → later.phase = .crashed →
      StepsTo c request amb round (.look scene) { c with generator } later
  /-- There is nobody to probe. -/
  | deserted {scene : Scene} {generator : Generator} {later : Round} :
      round.phase = .asking → amb.abort = false →
      StepsTo c request amb round (.look scene) (conclude { c with generator } later amb 0 []).1
        (conclude { c with generator } later amb 0 []).2.1
  /-- The probes are sent out. -/
  | dispatched {scene : Scene} {generator : Generator} {later : Round} {jobs : List Job} :
      round.phase = .asking → amb.abort = false →
      later.phase = .racing (contextOf { c with generator } request scene)
        (Race.start c.settings amb.now jobs) →
      StepsTo c request amb round (.look scene) { c with generator } later
  /-- The race goes on. -/
  | raced {ctx : RoundContext} {race next : Race} {event : Race.Event} {acts : List Act}
      {later : Round} :
      round.phase = .racing ctx race → race.step c.settings ctx amb event = some (next, acts) →
      next.phase ≠ .over → later.phase = .racing ctx next →
      StepsTo c request amb round (.race event) c later
  /-- The race crashed, and the round with it. -/
  | collapsed {ctx : RoundContext} {race next : Race} {event : Race.Event} {acts : List Act}
      {later : Round} :
      round.phase = .racing ctx race → race.step c.settings ctx amb event = some (next, acts) →
      next.phase = .over → next.crashed = true → later.phase = .crashed →
      StepsTo c request amb round (.race event) c later
  /-- The race is over, and the round concludes. -/
  | concluded {ctx : RoundContext} {race next : Race} {event : Race.Event} {acts : List Act} :
      round.phase = .racing ctx race → race.step c.settings ctx amb event = some (next, acts) →
      next.phase = .over → next.crashed = false →
      StepsTo c request amb round (.race event)
        (conclude c round amb next.dispatched next.received).1
        (conclude c round amb next.dispatched next.received).2.1

variable {c next : Coordinator} {request : SelectionRequest} {amb : Ambient}
  {round later : Round} {event : RoundEvent} {acts : List Act}

theorem phase_giveUp (c : Coordinator) (round : Round) (amb : Ambient) :
    (giveUp c round amb).2.phase = .ended none := rfl

theorem phase_conclude (c : Coordinator) (round : Round) (amb : Ambient) (dispatched : Nat)
    (outcomes : List Outcome) :
    (conclude c round amb dispatched outcomes).2.1.phase =
      .ended (Conclusion.of c.list c.generator round.first amb.abort outcomes).winner := rfl

/-- A sleep is called off exactly when the signal is raised. -/
theorem look_eq_aborted {deadline now : Instant} {poll : Duration} {aborted : Bool} :
    Sleep.look deadline poll now aborted = .aborted ↔ aborted = true := by
  unfold Sleep.look
  cases aborted with
  | true => simp
  | false =>
      simp only [Bool.false_eq_true, if_false, iff_false]
      split <;> nofun

/-- A look at the signal in a sleep gives up or leaves the round searching. -/
theorem stepsTo_of_afterLook {told : Round} {look : Sleep.Look} (hSearches : round.Searches)
    (hLook : look = .aborted ↔ amb.abort = true) :
    StepsTo c request amb round event (afterLook c told amb look).1
      (afterLook c told amb look).2 := by
  cases hAbort : amb.abort with
  | true =>
      rw [hLook.mpr hAbort]
      exact .gaveUp hSearches hAbort
  | false =>
      cases look with
      | aborted => cases hAbort.symm.trans (hLook.mp rfl)
      | rested => exact .searched hSearches hAbort (.inl rfl)
      | asleep sleep => exact .searched hSearches hAbort (.inr ⟨sleep, rfl⟩)

/-- Sending the probes out crashes, concludes at once, or leads to a race. -/
theorem stepsTo_of_dispatch (hAsking : round.phase = .asking) (hAbort : amb.abort = false)
    (scene : Scene) :
    StepsTo c request amb round (.look scene) (dispatch c request amb round scene).1
      (dispatch c request amb round scene).2.1 := by
  unfold dispatch
  generalize probeOrder c.generator c.settings.poolSize c.list.entries = order
  obtain ⟨ordered, generator⟩ := order
  cases hCrashes : scene.regionCrashes with
  | true => exact @StepsTo.crashed c request amb round scene generator _ hAsking hAbort rfl
  | false =>
      simp only [Bool.false_eq_true, if_false]
      split
      · exact .deserted hAsking hAbort
      · exact .dispatched hAsking hAbort rfl

theorem stepsTo_of_look (c : Coordinator) (request : SelectionRequest) (amb : Ambient)
    (hAsking : round.phase = .asking) (scene : Scene) :
    StepsTo c request amb round (.look scene) (look c request amb round scene).1
      (look c request amb round scene).2.1 := by
  unfold look
  split
  · cases hAbort : amb.abort with
    | true => exact .gaveUp (.inl hAsking) hAbort
    | false => exact stepsTo_of_dispatch hAsking hAbort scene
  · exact stepsTo_of_afterLook (.inl hAsking) look_eq_aborted

theorem stepsTo_of_step (hStep : round.step c request amb event = some (next, later, acts)) :
    StepsTo c request amb round event next later := by
  cases hPhase : round.phase with
  | asking =>
      cases event with
      | look scene =>
          simp only [step, hPhase, Option.some.injEq] at hStep
          have hLook := stepsTo_of_look c request amb hPhase scene
          rwa [hStep] at hLook
      | wake | race => simp [step, hPhase] at hStep
  | sleeping sleep =>
      cases event with
      | wake =>
          simp only [step, hPhase] at hStep
          split at hStep
          · cases hStep
            exact stepsTo_of_afterLook (.inr ⟨sleep, hPhase⟩) look_eq_aborted
          · cases hStep
      | look | race => simp [step, hPhase] at hStep
  | racing ctx race =>
      cases event with
      | race event =>
          simp only [step, hPhase] at hStep
          split at hStep
          · rename_i after raceActs hRace
            match hOver : after.phase with
            | .over =>
                cases hCrashed : after.crashed with
                | true =>
                    simp only [afterRace, hOver, hCrashed, if_true, Option.some.injEq] at hStep
                    cases hStep
                    exact .collapsed hPhase hRace hOver hCrashed rfl
                | false =>
                    simp only [afterRace, hOver, hCrashed, Bool.false_eq_true, if_false,
                      Option.some.injEq] at hStep
                    cases hStep
                    exact .concluded hPhase hRace hOver hCrashed
            | .waiting | .winding _ =>
                simp only [afterRace, hOver, Option.some.injEq] at hStep
                cases hStep
                exact .raced hPhase hRace (by rw [hOver]; nofun) rfl
          · cases hStep
      | look | wake => simp [step, hPhase] at hStep
  | ended winner => simp [step, hPhase] at hStep
  | crashed => simp [step, hPhase] at hStep

/-- A round that searches after an event searched before it. -/
theorem searches_before (hStep : round.step c request amb event = some (next, later, acts))
    (hLater : later.Searches) : round.Searches := by
  cases stepsTo_of_step hStep with
  | gaveUp hSearches | searched hSearches => exact hSearches
  | crashed hAsking | deserted hAsking | dispatched hAsking => exact .inl hAsking
  | raced _ _ _ hPhase =>
      rcases hLater with hOther | ⟨sleep, hOther⟩ <;> cases hPhase.symm.trans hOther
  | collapsed _ _ _ _ hPhase =>
      rcases hLater with hOther | ⟨sleep, hOther⟩ <;> cases hPhase.symm.trans hOther
  | concluded =>
      rcases hLater with hOther | ⟨sleep, hOther⟩ <;> cases hOther

end Round

end RelayRace
