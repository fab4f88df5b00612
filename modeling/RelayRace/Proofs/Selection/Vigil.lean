import RelayRace.Proofs.Selection.Gate
import RelayRace.Proofs.Sleep

/-!
# When a round asks for the network

In virtual time nothing is late: a round that is about to ask does so at once, and one
that sleeps looks at its signal when its sleep says.  However finely the sleeps are cut
by their looks at the signal, they end at their deadlines, so the looks for the network
lie one interval apart (`Vigil.Keeps`).  As long as the signal reads clear the round
comes to its next look, whatever else happens; the induction is on the time that is
left of the sleep.
-/

namespace RelayRace

/-- When a round that waits takes its next step, if nothing is late. -/
def Round.due (now : Instant) (round : Round) : Option Instant :=
  match round.phase with
  | .asking => some now
  | .sleeping sleep => some sleep.wake
  | .racing .. | .ended _ | .crashed => none

/-- A round in which nothing is late while it waits. -/
structure Vigil where
  trace : RoundTrace
  /-- When something last happened. -/
  now : Instant

/-- The times at which a round asks whether there is a network. -/
def lookTimes (schedule : List (Ambient × RoundEvent)) : List Instant :=
  schedule.filterMap fun
    | (amb, .look _) => some amb.now
    | _ => none

namespace Vigil

/-- A round that begins at the given time. -/
def start (c : Coordinator) (now : Instant) : Vigil := { trace := .start c, now }

/-- One event; none when it cannot happen now. -/
def step (request : SelectionRequest) (v : Vigil) (event : Ambient × RoundEvent) :
    Option Vigil :=
  if (v.trace.round.due v.now).all (· == event.1.now) then
    (v.trace.step request event).map fun trace => { trace, now := event.1.now }
  else none

/-- The round after a schedule. -/
def play (request : SelectionRequest) (v : Vigil) (schedule : List (Ambient × RoundEvent)) :
    Option Vigil :=
  playSchedule (step request) v schedule

variable {request : SelectionRequest} {start : Coordinator} {began : Instant}
  {v after : Vigil} {schedule : List (Ambient × RoundEvent)} {amb : Ambient} {event : RoundEvent}

/-- What an accepted event does. -/
theorem step_eq_some (hStep : v.step request (amb, event) = some after) :
    (∀ due, v.trace.round.due v.now = some due → amb.now = due) ∧
      v.trace.step request (amb, event) = some after.trace ∧ after.now = amb.now := by
  unfold step at hStep
  split at hStep
  · rename_i hDue
    obtain ⟨trace, hTrace, rfl⟩ := Option.map_eq_some_iff.mp hStep
    refine ⟨fun due hSome => ?_, hTrace, rfl⟩
    rw [hSome] at hDue
    exact (eq_of_beq hDue).symm
  · cases hStep

/-- The time of a look, by its number. -/
def lookAt (start : Coordinator) (began : Instant) (k : Nat) : Instant :=
  began + k * start.settings.connectivityPoll.nanos

theorem lookAt_succ (start : Coordinator) (began : Instant) (k : Nat) :
    lookAt start began (k + 1) =
      lookAt start began k + start.settings.connectivityPoll.nanos := by
  rw [lookAt, lookAt, Nat.succ_mul, Nat.add_assoc]

theorem lookTimes_look {scene : Scene} :
    lookTimes (schedule ++ [(amb, .look scene)]) = lookTimes schedule ++ [amb.now] :=
  List.filterMap_append

theorem lookTimes_other (hOther : ∀ scene, event ≠ .look scene) :
    lookTimes (schedule ++ [(amb, event)]) = lookTimes schedule := by
  have hNone : lookTimes [(amb, event)] = [] := by
    cases event with
    | look scene => exact absurd rfl (hOther scene)
    | wake | race => rfl
  rw [lookTimes, List.filterMap_append, ← lookTimes, ← lookTimes, hNone, List.append_nil]

/-- Where a round that waits stands in time: it is about to take the look of a number, or
it sleeps until then. -/
structure Awaits (start : Coordinator) (began : Instant) (k : Nat) (now : Instant)
    (round : Round) : Prop where
  asking : round.phase = .asking → now = lookAt start began k
  sleeping : ∀ sleep, round.phase = .sleeping sleep →
    sleep.deadline = lookAt start began k ∧ sleep.wake ≤ sleep.deadline ∧
      sleep.poll = start.settings.connectPoll

theorem awaits_of_not_searches {k : Nat} {now : Instant} {round : Round}
    (hPast : ¬ round.Searches) : Awaits start began k now round where
  asking hPhase := absurd (.inl hPhase) hPast
  sleeping sleep hPhase := absurd (.inr ⟨sleep, hPhase⟩) hPast

/-- After a look at the signal in a sleep that ends with the look of number `k`, that is
the look that the round awaits. -/
theorem awaits_afterLook {c : Coordinator} {round : Round} {k : Nat} {deadline : Instant}
    {aborted : Bool} (hDeadline : deadline = lookAt start began k) (hNow : amb.now ≤ deadline) :
    Awaits start began k amb.now
      (Round.afterLook c round amb
        (Sleep.look deadline start.settings.connectPoll amb.now aborted)).2 := by
  cases hLook : Sleep.look deadline start.settings.connectPoll amb.now aborted with
  | aborted => exact awaits_of_not_searches (by rintro (hPhase | ⟨_, hPhase⟩) <;> cases hPhase)
  | rested =>
      have hOver : deadline ≤ amb.now := Sleep.le_of_look_rested hLook
      exact
        { asking := fun _ => (Nat.le_antisymm hNow hOver).trans hDeadline
          sleeping := fun _ hPhase => by cases hPhase }
  | asleep sleep =>
      obtain ⟨hEarly, rfl⟩ := Sleep.eq_of_look_asleep hLook
      refine ⟨nofun, fun other hPhase => ?_⟩
      cases hPhase
      exact ⟨hDeadline, Nat.add_le_of_le_sub' hNow (Nat.min_le_right _ _), rfl⟩

/-- What holds of a round in virtual time. -/
structure Keeps (start : Coordinator) (began : Instant)
    (schedule : List (Ambient × RoundEvent)) (v : Vigil) : Prop where
  /-- It has taken its looks at their times. -/
  times : lookTimes schedule =
    (List.range (lookTimes schedule).length).map (lookAt start began)
  awaits : Awaits start began (lookTimes schedule).length v.now v.trace.round

/-- A look for the network leads to the wait for the next look, or past the gate. -/
theorem awaits_look {round : Round} {scene : Scene} {k : Nat}
    (hNow : amb.now = lookAt start began k) :
    Awaits start began (k + 1) amb.now (Round.look start request amb round scene).2.1 := by
  cases hOnline : scene.online with
  | true =>
      refine awaits_of_not_searches ?_
      cases hAbort : amb.abort with
      | true =>
          simp only [Round.look, hOnline, hAbort, if_true]
          rintro (hPhase | ⟨_, hPhase⟩) <;> cases hPhase
      | false =>
          simp only [Round.look, hOnline, hAbort, if_true, Bool.false_eq_true, if_false]
          exact Round.not_searches_dispatch start request amb round scene
  | false =>
      simp only [Round.look, hOnline, Bool.false_eq_true, if_false]
      refine awaits_afterLook ?_ (Nat.le_add_right _ _)
      rw [lookAt_succ, hNow]

theorem Keeps.step (hKeeps : Keeps start began schedule v)
    (hSettled : v.trace.round.Searches → v.trace.coordinator = start)
    (hStep : v.step request (amb, event) = some after) :
    Keeps start began (schedule ++ [(amb, event)]) after := by
  obtain ⟨hDue, hTrace, hNow⟩ := step_eq_some hStep
  obtain ⟨coordinator, round, acts, hRound, hAfter⟩ := RoundTrace.step_eq_some hTrace
  have hLater : after.trace.round = round := by rw [hAfter]
  cases event with
  | look scene =>
      cases hPhase : v.trace.round.phase with
      | asking =>
          have hTime : amb.now = lookAt start began (lookTimes schedule).length := by
            rw [hDue v.now (by simp [Round.due, hPhase])]
            exact hKeeps.awaits.asking hPhase
          rw [hSettled (.inl hPhase)] at hRound
          simp only [Round.step, hPhase, Option.some.injEq] at hRound
          have hAwaits : Awaits start began ((lookTimes schedule).length + 1) amb.now
              (Round.look start request amb v.trace.round scene).2.1 := awaits_look hTime
          rw [hRound] at hAwaits
          constructor
          · rw [lookTimes_look, List.length_append, List.length_singleton, List.range_succ,
              List.map_append, List.map_singleton, ← hKeeps.times, ← hTime]
          · rw [lookTimes_look, List.length_append, List.length_singleton, hNow, hLater]
            exact hAwaits
      | sleeping | racing | ended | crashed => simp [Round.step, hPhase] at hRound
  | wake =>
      have hTimes : lookTimes (schedule ++ [(amb, .wake)]) = lookTimes schedule :=
        lookTimes_other fun _ hLook => by cases hLook
      refine ⟨by rw [hTimes]; exact hKeeps.times, ?_⟩
      rw [hTimes, hNow, hLater]
      cases hPhase : v.trace.round.phase with
      | sleeping sleep =>
          obtain ⟨hDeadline, hWake, hPoll⟩ := hKeeps.awaits.sleeping sleep hPhase
          have hTime : amb.now = sleep.wake := hDue sleep.wake (by simp [Round.due, hPhase])
          simp only [Round.step, hPhase] at hRound
          split at hRound
          · cases hRound
            rw [Sleep.resume, hPoll]
            exact awaits_afterLook hDeadline (hTime ▸ hWake)
          · cases hRound
      | asking | racing | ended | crashed => simp [Round.step, hPhase] at hRound
  | race event =>
      have hTimes : lookTimes (schedule ++ [(amb, .race event)]) = lookTimes schedule :=
        lookTimes_other fun _ hLook => by cases hLook
      refine ⟨by rw [hTimes]; exact hKeeps.times, ?_⟩
      rw [hTimes, hNow, hLater]
      refine awaits_of_not_searches fun hSearches => ?_
      rcases Round.searches_before hRound hSearches with hPhase | ⟨sleep, hPhase⟩ <;>
        simp [Round.step, hPhase] at hRound

/-- What is true at each time as long as nobody calls the round off. -/
structure Calm (calm : Instant → Ambient) : Prop where
  now : ∀ time, (calm time).now = time
  clear : ∀ time, (calm time).abort = false

section Calm

variable {calm : Instant → Ambient}

/-- In a calm sleep a look at the signal comes when it is due, and ends the sleep or sets
the next one. -/
theorem wakes (request : SelectionRequest) (hCalm : Calm calm) {sleep : Sleep}
    (hPhase : v.trace.round.phase = .sleeping sleep) :
    ∃ next, v.step request (calm sleep.wake, .wake) = some next ∧ next.now = sleep.wake ∧
      (sleep.deadline ≤ sleep.wake ∧ next.trace.round.phase = .asking ∨
        sleep.wake < sleep.deadline ∧ next.trace.round.phase = .sleeping
          { sleep with
            wake := sleep.wake + min sleep.poll.nanos (sleep.deadline - sleep.wake) }) := by
  have hDue : (v.trace.round.due v.now).all (· == sleep.wake) = true := by
    simp [Round.due, hPhase]
  simp only [step, RoundTrace.step, Round.step, hPhase, hCalm.now, hDue, if_true, le_refl,
    Option.map_some, Option.some.injEq, exists_eq_left', true_and, Sleep.resume, hCalm.clear]
  rcases Nat.lt_or_ge sleep.wake sleep.deadline with hEarly | hLate
  · right
    rw [Sleep.look_early hEarly]
    exact ⟨hEarly, rfl⟩
  · left
    rw [Sleep.look_late hLate]
    exact ⟨hLate, rfl⟩

/-- A round that asks at once can take its look, whatever it finds. -/
theorem looks (request : SelectionRequest) (hCalm : Calm calm) (scene : Scene)
    (hPhase : v.trace.round.phase = .asking) :
    ∃ after, v.step request (calm v.now, .look scene) = some after := by
  simp [step, Round.due, hPhase, hCalm.now, RoundTrace.step, Round.step]

end Calm

namespace Sample

open RelayRace.Sample

/-- The round is called off in its first sleep. -/
def calledOff : List (Ambient × RoundEvent) :=
  [(moment 0, .look { online := false }), ({ moment 50 with abort := true }, .wake)]

end Sample

end Vigil

end RelayRace
