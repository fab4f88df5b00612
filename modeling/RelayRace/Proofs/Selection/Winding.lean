import RelayRace.Proofs.Selection.LoopStep
import RelayRace.Proofs.Selection.RaceStep
import RelayRace.Proofs.Selection.RoundStep

/-!
# A run loop whose signal is raised

Some events are a loop's own: it looks at its signal, at the clock, or at what
the store answers.  The others are its workers', of which there may be any
number.  While the signal is raised, every event of its own brings a loop nearer
to its end, and no event of its workers takes it back (`RunLoop.step_raised`).
`LoopPhase.toGo` says how many events of its own a loop takes at most: two while
its race waits for results, and one anywhere else.

A loop that is not over always has an event of its own to take, once it is due
(`RunLoop.exists_own`).
-/

namespace RelayRace

/-! ## Events of a loop's own -/

/-- Whether an event is the race's own. -/
def Race.Event.isOwn : Race.Event → Bool
  | .tick | .settle | .expire => true
  | .pool _ | .receive => false

/-- Whether an event is the round's own. -/
def RoundEvent.isOwn : RoundEvent → Bool
  | .look _ | .wake => true
  | .race event => event.isOwn

/-- Whether an event is the loop's own. -/
def LoopEvent.isOwn : LoopEvent → Bool
  | .decide | .refresh _ | .wake => true
  | .round event => event.isOwn

/-- How many events of its own a race takes at most when the signal is raised. -/
def Race.toGo (race : Race) : Nat :=
  match race.phase with
  | .waiting => 2
  | .winding _ => 1
  | .over => 0

/-- How many events of its own a round takes at most when the signal is raised. -/
def Round.toGo (round : Round) : Nat :=
  match round.phase with
  | .asking | .sleeping _ => 1
  | .racing _ race => race.toGo
  | .ended _ | .crashed => 0

/-- How many events of its own a loop takes at most when the signal is raised. -/
def LoopPhase.toGo : LoopPhase → Nat
  | .deciding | .refreshing | .resting _ => 1
  | .selecting round => round.toGo
  | .ended _ | .crashed => 0

theorem Race.toGo_pos {race : Race} (hUnder : race.phase ≠ .over) : 0 < race.toGo := by
  unfold toGo
  match hPhase : race.phase with
  | .waiting | .winding _ => simp
  | .over => exact absurd hPhase hUnder

namespace Race

variable {settings : Settings} {ctx : RoundContext} {amb : Ambient} {race next : Race}
  {event : Event} {acts : List Act}

/-- A race whose signal is raised winds up at its next tick. -/
theorem toGo_of_step (hAbort : amb.abort = true)
    (hStep : race.step settings ctx amb event = some (next, acts)) (hUnder : next.phase ≠ .over) :
    next.toGo + (if event.isOwn then 1 else 0) ≤ race.toGo := by
  cases stepsTo_of_step hStep with
  | pool => exact Nat.le_refl _
  | receive => exact Nat.le_refl _
  | winds hWaiting => simp [toGo, wind, hWaiting, Event.isOwn]
  | waits hWaiting hGoes => simp [stopsAt, hAbort] at hGoes
  | crashes => exact absurd rfl hUnder
  | settles => exact absurd rfl hUnder
  | expires => exact absurd rfl hUnder

/-- A race that is over after an event was not over before it. -/
theorem toGo_pos_of_step (hStep : race.step settings ctx amb event = some (next, acts)) :
    0 < race.toGo := by
  refine toGo_pos fun hOver => ?_
  cases event <;> simp [step, receive, tick, settle, expire, hOver] at hStep

/-- A race under way has an event of its own to take when the time has come. -/
theorem exists_own (settings : Settings) (ctx : RoundContext) (hUnder : race.phase ≠ .over) :
    ∃ due : Instant, ∀ amb : Ambient, due ≤ amb.now →
      ∃ event : Event, event.isOwn = true ∧ (race.step settings ctx amb event).isSome = true := by
  match hPhase : race.phase with
  | .waiting =>
      refine ⟨race.nextTick, fun amb hDue => ⟨.tick, rfl, ?_⟩⟩
      have hNotEarly : ¬ amb.now < race.nextTick := Nat.not_lt.mpr hDue
      simp only [step, tick, hPhase, hNotEarly, if_false]
      split
      · rfl
      · split <;> rfl
  | .winding limit =>
      refine ⟨limit, fun amb hDue => ⟨.expire, rfl, ?_⟩⟩
      simp only [step, expire, hPhase, hDue, if_true, Option.isSome_some]
  | .over => exact absurd hPhase hUnder

end Race

/-! ## Rounds -/

namespace Round

variable {c next : Coordinator} {request : SelectionRequest} {amb : Ambient}
  {round later : Round} {event : RoundEvent} {acts : List Act}

theorem Searches.toGo (hSearches : round.Searches) : round.toGo = 1 := by
  unfold Round.toGo
  rcases hSearches with hAsking | ⟨sleep, hSleeping⟩
  · rw [hAsking]
  · rw [hSleeping]

theorem toGo_racing {ctx : RoundContext} {race : Race} (hRacing : round.phase = .racing ctx race) :
    round.toGo = race.toGo := by
  unfold toGo
  rw [hRacing]

/-- A round that goes on still has something to do. -/
theorem toGo_pos_of_step (hStep : round.step c request amb event = some (next, later, acts))
    (hUnder : later.isUnderWay = true) : 0 < later.toGo := by
  cases stepsTo_of_step hStep with
  | gaveUp => simp [isUnderWay, phase_giveUp] at hUnder
  | searched _ _ hLater => simp [hLater.toGo]
  | crashed _ _ hCrashed => simp [isUnderWay, hCrashed] at hUnder
  | deserted => simp [isUnderWay, phase_conclude] at hUnder
  | dispatched _ _ hRacing =>
      rw [toGo_racing hRacing]
      exact Race.toGo_pos RacePhase.noConfusion
  | raced _ _ hOn hRacing =>
      rw [toGo_racing hRacing]
      exact Race.toGo_pos hOn
  | collapsed _ _ _ _ hCrashed => simp [isUnderWay, hCrashed] at hUnder
  | concluded => simp [isUnderWay, phase_conclude] at hUnder

/-- A conclusion under a raised signal has no winner. -/
theorem phase_conclude_raised (hAbort : amb.abort = true) (dispatched : Nat)
    (outcomes : List Outcome) :
    (conclude c round amb dispatched outcomes).2.1.phase = .ended none := by
  rw [phase_conclude, hAbort]
  rfl

/-- A round whose signal is raised ends without a winner, or goes on with its
race and has less to do after each event of its own. -/
theorem step_raised (hAbort : amb.abort = true)
    (hStep : round.step c request amb event = some (next, later, acts)) :
    0 < round.toGo ∧ (later.phase = .ended none ∨
      (later.isUnderWay = true ∧ 0 < later.toGo ∧
        later.toGo + (if event.isOwn then 1 else 0) ≤ round.toGo)) := by
  cases stepsTo_of_step hStep with
  | gaveUp hSearches => exact ⟨by simp [hSearches.toGo], .inl (phase_giveUp _ _ _)⟩
  | searched _ hQuiet => cases hQuiet.symm.trans hAbort
  | crashed _ hQuiet => cases hQuiet.symm.trans hAbort
  | deserted _ hQuiet => cases hQuiet.symm.trans hAbort
  | dispatched _ hQuiet => cases hQuiet.symm.trans hAbort
  | raced hRacing hRace hUnder hLater =>
      rw [toGo_racing hRacing, toGo_racing hLater]
      refine ⟨Race.toGo_pos_of_step hRace, .inr ⟨?_, Race.toGo_pos hUnder, ?_⟩⟩
      · simp [isUnderWay, hLater]
      · exact Race.toGo_of_step hAbort hRace hUnder
  | collapsed hRacing hRace hOver hCrashed =>
      have hQuiet := (Race.crashesAt_of_crashed hRace hOver hCrashed).2
      simp [Race.crashesAt, hAbort] at hQuiet
  | concluded hRacing hRace =>
      rw [toGo_racing hRacing]
      exact ⟨Race.toGo_pos_of_step hRace, .inl (phase_conclude_raised hAbort _ _)⟩

/-- A round that still has something to do has an event of its own to take when
the time has come. -/
theorem exists_own (c : Coordinator) (request : SelectionRequest) (hToGo : 0 < round.toGo) :
    ∃ due : Instant, ∀ amb : Ambient, due ≤ amb.now →
      ∃ event : RoundEvent, event.isOwn = true ∧
        (round.step c request amb event).isSome = true := by
  cases hPhase : round.phase with
  | asking =>
      refine ⟨0, fun amb _ => ⟨.look {}, rfl, ?_⟩⟩
      simp only [step, hPhase, Option.isSome_some]
  | sleeping sleep =>
      refine ⟨sleep.wake, fun amb hDue => ⟨.wake, rfl, ?_⟩⟩
      simp only [step, hPhase, hDue, if_true, Option.isSome_some]
  | racing ctx race =>
      have hUnder : race.phase ≠ .over := by
        intro hOver
        simp [toGo, hPhase, Race.toGo, hOver] at hToGo
      obtain ⟨due, hOwn⟩ := Race.exists_own c.settings ctx hUnder
      refine ⟨due, fun amb hDue => ?_⟩
      obtain ⟨event, hEvent, hSome⟩ := hOwn amb hDue
      obtain ⟨⟨after, acts⟩, hRace⟩ := Option.isSome_iff_exists.mp hSome
      refine ⟨.race event, hEvent, ?_⟩
      simp only [step, hPhase, hRace, Option.isSome_some]
  | ended winner | crashed => simp [toGo, hPhase] at hToGo

end Round

/-! ## Run loops -/

/-- A loop that is not over has something to do. -/
def LoopPhase.Goes (phase : LoopPhase) : Prop := phase.isOver = true ∨ 0 < phase.toGo

theorem LoopPhase.isOver_of_toGo {phase : LoopPhase} (hToGo : 0 < phase.toGo) :
    phase.isOver = false := by
  cases phase with
  | deciding | selecting _ | refreshing | resting _ => rfl
  | ended _ | crashed => cases hToGo

namespace RunLoop

variable {c next : Coordinator} {request : SelectionRequest} {amb : Ambient}
  {phase after : LoopPhase} {event : LoopEvent} {acts : List Act}

theorem goes_afterLook (look : Sleep.Look) : (afterLook look).Goes := by
  cases look with
  | aborted => exact .inl rfl
  | rested | asleep sleep => exact .inr Nat.one_pos

/-- Whatever happens in a loop, it is over or goes on. -/
theorem goes_of_step (hStep : step c request amb phase event = some (next, after, acts)) :
    after.Goes := by
  cases stepsTo_of_step hStep with
  | calledOff | won | stopped | crashed => exact .inl rfl
  | began | rotated => exact .inr Nat.one_pos
  | went hRound hUnder => exact .inr (Round.toGo_pos_of_step hRound hUnder)
  | refreshed | looked => exact goes_afterLook _

/-- What an event makes of a loop whose signal is raised. -/
structure WindsUp (c : Coordinator) (phase : LoopPhase) (event : LoopEvent) (after : LoopPhase) :
    Prop where
  /-- The loop was not over, and is over without a winner or goes on. -/
  phases : 0 < phase.toGo ∧ (after = .ended none ∨ 0 < after.toGo)
  /-- Every event of its own brings it nearer to its end. -/
  nearer : after.toGo + (if event.isOwn then 1 else 0) ≤ phase.toGo
  /-- It starts no round, does not move on, and asks for no refresh. -/
  milestones : ∀ milestone ∈ Milestone.passed c phase after, milestone = .rest

/-- A loop that finds its signal raised is over with its next event of its own. -/
theorem windsUp_ended (hToGo : 0 < phase.toGo)
    (hRest : ∀ milestone ∈ Milestone.passed c phase (.ended none), milestone = .rest) :
    WindsUp c phase event (.ended none) := by
  refine ⟨⟨hToGo, .inl rfl⟩, ?_, hRest⟩
  show 0 + _ ≤ phase.toGo
  split <;> omega

theorem step_raised (hAbort : amb.abort = true)
    (hStep : step c request amb phase event = some (next, after, acts)) :
    WindsUp c phase event after := by
  cases stepsTo_of_step hStep with
  | calledOff => exact windsUp_ended Nat.one_pos (List.forall_mem_nil _)
  | began hQuiet => cases hQuiet.symm.trans hAbort
  | @went round later _ _ _ hRound hUnder =>
      obtain ⟨hToGo, hEnded | ⟨-, hLater, hNearer⟩⟩ := Round.step_raised hAbort hRound
      · simp [Round.isUnderWay, hEnded] at hUnder
      · exact ⟨⟨hToGo, .inr hLater⟩, hNearer, List.forall_mem_nil _⟩
  | won hRound hWon =>
      obtain ⟨-, hEnded | ⟨hUnder, -⟩⟩ := Round.step_raised hAbort hRound
      · cases hWon.symm.trans hEnded
      · simp [Round.isUnderWay, hWon] at hUnder
  | stopped hRound =>
      exact windsUp_ended (Round.step_raised hAbort hRound).1 (List.forall_mem_nil _)
  | rotated _ _ hQuiet => cases hQuiet.symm.trans hAbort
  | crashed hRound hCrashed =>
      obtain ⟨-, hEnded | ⟨hUnder, -⟩⟩ := Round.step_raised hAbort hRound
      · cases hCrashed.symm.trans hEnded
      · simp [Round.isUnderWay, hCrashed] at hUnder
  | refreshed =>
      rw [Sleep.start, Round.look_eq_aborted.mpr hAbort]
      exact windsUp_ended Nat.one_pos fun _ hRest => List.mem_singleton.mp hRest
  | looked =>
      rw [Sleep.resume, Round.look_eq_aborted.mpr hAbort]
      exact windsUp_ended Nat.one_pos (List.forall_mem_nil _)

/-- A loop that still has something to do has an event of its own to take when
the time has come. -/
theorem exists_own (c : Coordinator) (request : SelectionRequest) (hToGo : 0 < phase.toGo) :
    ∃ due : Instant, ∀ amb : Ambient, due ≤ amb.now →
      ∃ event : LoopEvent, event.isOwn = true ∧
        (step c request amb phase event).isSome = true := by
  cases phase with
  | deciding => exact ⟨0, fun amb _ => ⟨.decide, rfl, rfl⟩⟩
  | selecting round =>
      obtain ⟨due, hOwn⟩ := Round.exists_own c request hToGo
      refine ⟨due, fun amb hDue => ?_⟩
      obtain ⟨event, hEvent, hSome⟩ := hOwn amb hDue
      obtain ⟨⟨after, later, acts⟩, hRound⟩ := Option.isSome_iff_exists.mp hSome
      refine ⟨.round event, hEvent, ?_⟩
      simp only [step, hRound, Option.isSome_some]
  | refreshing => exact ⟨0, fun amb _ => ⟨.refresh (.ok []), rfl, rfl⟩⟩
  | resting sleep =>
      refine ⟨sleep.wake, fun amb hDue => ⟨.wake, rfl, ?_⟩⟩
      simp only [step, hDue, if_true, Option.isSome_some]
  | ended winner | crashed => cases hToGo

end RunLoop

end RelayRace
