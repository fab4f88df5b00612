import RelayRace.Proofs.Selection.SoleRun
import RelayRace.Proofs.Selection.Winding

/-!
# A selector with its callers and its loops

Callers and loops meet in two places.  A loop reads the flag that the callers
raise and lower, and it exits when it is over.  What lasts from one round to the
next may be changed from outside at any moment, and a loop may be told any time
and any reading of its caller's stop signal.  So every interleaving of calls,
loops and whatever goes on around them is a schedule of `Selector.step`.

A selector with a single run under way keeps `Selector.Attends`: what
`Calls.Sole` says of its callers, and that the loop of the run is over when it
has exited, unless the run was dropped.
-/

namespace RelayRace

/-- A selector with its callers and its loops. -/
structure Selector where
  calls : Calls := {}
  coordinator : Coordinator
  /-- The phases of the loops in the order in which the loops were started. -/
  phases : List LoopPhase := []
  /-- What the loops have set out to do. -/
  milestones : List Milestone := []

/-- What can happen to a selector. -/
inductive SelectorEvent where
  /-- Something happens to the callers. -/
  | call (event : CallEvent)
  /-- Something happens in a loop, at this time and with this reading of the stop
  signal. -/
  | loop (number : Nat) (now : Instant) (stop : Bool) (event : LoopEvent)
  /-- Somebody else changes what lasts. -/
  | outside (coordinator : Coordinator)

/-- Whether an event is one of a loop's own. -/
def SelectorEvent.isOwn : SelectorEvent → Bool
  | .loop _ _ _ event => event.isOwn
  | .call _ | .outside _ => false

instance (event : SelectorEvent) : Decidable (event = .call (.call .run)) :=
  match event with
  | .call event => decidable_of_iff (event = .call .run) (by simp)
  | .loop .. | .outside _ => .isFalse nofun

namespace Selector

/-- Whether the loops allow an event of the callers: none exits before it is
over. -/
def allows (s : Selector) : CallEvent → Bool
  | .exit loop => (s.phases[loop]?).any LoopPhase.isOver
  | .call _ | .advance _ | .drop _ => true

/-- The selector after an event of the callers.  A loop that was started is
added. -/
def notified (s : Selector) (calls : Calls) : Selector :=
  { s with
    calls
    phases := if s.phases.length < calls.loops.length then s.phases ++ [.deciding] else s.phases }

/-- The selector after an event of a loop. -/
def reached (s : Selector) (number : Nat) (phase after : LoopPhase) (c : Coordinator) :
    Selector :=
  { s with
    coordinator := c
    phases := s.phases.set number after
    milestones := s.milestones ++ Milestone.passed s.coordinator phase after }

/-- An event of a loop; none when it cannot happen now. -/
def loopStep (requests : Nat → SelectionRequest) (s : Selector) (number : Nat) (now : Instant)
    (stop : Bool) (event : LoopEvent) : Option Selector :=
  if s.calls.loops.getD number false then
    match s.phases[number]? with
    | some phase =>
        match RunLoop.step s.coordinator (requests number) ⟨now, s.calls.abort, stop⟩ phase
            event with
        | some (c, after, _) => some (s.reached number phase after c)
        | none => none
    | none => none
  else none

/-- One event; none when it cannot happen now.  The requests are those that the
loops were started with. -/
def step (requests : Nat → SelectionRequest) (s : Selector) : SelectorEvent → Option Selector
  | .call event => if s.allows event then (s.calls.step event).map s.notified else none
  | .loop number now stop event => s.loopStep requests number now stop event
  | .outside coordinator => some { s with coordinator }

/-- The selector after a schedule. -/
def play (requests : Nat → SelectionRequest) (s : Selector) (schedule : List SelectorEvent) :
    Option Selector :=
  playSchedule (step requests) s schedule

variable {requests : Nat → SelectionRequest} {s after : Selector} {event : SelectorEvent}
  {run loop : Nat}

/-- Everything that one event can make of a selector. -/
inductive StepsTo (requests : Nat → SelectionRequest) (s : Selector) :
    SelectorEvent → Selector → Prop where
  /-- Something happens to the callers. -/
  | called {event : CallEvent} {calls : Calls} :
      s.allows event = true → s.calls.step event = some calls →
      StepsTo requests s (.call event) (s.notified calls)
  /-- Something happens in a loop that goes. -/
  | went {number : Nat} {now : Instant} {stop : Bool} {event : LoopEvent} {phase next : LoopPhase}
      {c : Coordinator} {acts : List Act} :
      s.calls.loops[number]? = some true → s.phases[number]? = some phase →
      RunLoop.step s.coordinator (requests number) ⟨now, s.calls.abort, stop⟩ phase event =
        some (c, next, acts) →
      StepsTo requests s (.loop number now stop event) (s.reached number phase next c)
  /-- Somebody else changes what lasts. -/
  | changed (coordinator : Coordinator) :
      StepsTo requests s (.outside coordinator) { s with coordinator }

theorem stepsTo_of_step (hStep : s.step requests event = some after) :
    StepsTo requests s event after := by
  cases event with
  | call event =>
      simp only [step] at hStep
      split at hStep
      · obtain ⟨calls, hCalls, rfl⟩ := Option.map_eq_some_iff.mp hStep
        exact .called ‹_› hCalls
      · cases hStep
  | loop number now stop event =>
      simp only [step, loopStep] at hStep
      split at hStep
      · rename_i hLive
        split at hStep
        · rename_i hPhase
          split at hStep
          · cases hStep
            exact .went (Calls.live_iff.mp hLive) hPhase ‹_›
          · cases hStep
        · cases hStep
      · cases hStep
  | outside coordinator =>
      cases hStep
      exact .changed coordinator

theorem step_loop {number : Nat} {now : Instant} {stop : Bool} {event : LoopEvent}
    {phase next : LoopPhase} {c : Coordinator} {acts : List Act}
    (hLive : s.calls.loops[number]? = some true) (hPhase : s.phases[number]? = some phase)
    (hLoop : RunLoop.step s.coordinator (requests number) ⟨now, s.calls.abort, stop⟩ phase event =
      some (c, next, acts)) :
    s.step requests (.loop number now stop event) = some (s.reached number phase next c) := by
  simp only [Selector.step, loopStep, Calls.live_iff.mpr hLive, if_true, hPhase, hLoop]

theorem step_call {event : CallEvent} {calls : Calls} (hAllows : s.allows event = true)
    (hCalls : s.calls.step event = some calls) :
    s.step requests (.call event) = some (s.notified calls) := by
  simp only [Selector.step, hAllows, if_true, hCalls, Option.map_some]

/-! ## The loops that callers have started -/

/-- The loops are those that callers have started, and each is over or has
something to do. -/
structure Tracks (s : Selector) : Prop where
  length : s.phases.length = s.calls.loops.length
  goes : ∀ phase ∈ s.phases, phase.Goes

/-- Callers leave the phases alone but for a loop that they start. -/
theorem Tracks.phases_notified {calls : Calls} {event : CallEvent} (hTracks : s.Tracks)
    (hCalls : s.calls.step event = some calls) :
    (s.notified calls).phases.length = calls.loops.length ∧
      ((s.notified calls).phases = s.phases ∨
        (s.notified calls).phases = s.phases ++ [.deciding]) := by
  have hLength := hTracks.length
  unfold notified
  rcases Calls.length_loops_of_step hCalls with hSame | hStarted
  · have hNone : ¬ s.phases.length < calls.loops.length := by omega
    simp only [hNone, if_false]
    exact ⟨by omega, .inl trivial⟩
  · have hOne : s.phases.length < calls.loops.length := by omega
    simp only [hOne, if_true, List.length_append, List.length_singleton]
    exact ⟨by omega, .inr trivial⟩

theorem Tracks.notified_of_loops {calls : Calls} (hTracks : s.Tracks)
    (hLoops : calls.loops = s.calls.loops) : s.notified calls = { s with calls } := by
  have hNone : ¬ s.phases.length < calls.loops.length := by
    rw [hTracks.length, hLoops]
    exact Nat.lt_irrefl _
  simp only [notified, hNone, if_false]

theorem Tracks.step (hTracks : s.Tracks) (hStep : s.step requests event = some after) :
    after.Tracks := by
  cases stepsTo_of_step hStep with
  | called hAllows hCalls =>
      obtain ⟨hLength, hSame | hStarted⟩ := hTracks.phases_notified hCalls
      · exact ⟨hLength, hSame ▸ hTracks.goes⟩
      · refine ⟨hLength, fun phase hMem => ?_⟩
        rw [hStarted] at hMem
        rcases List.mem_append.mp hMem with hOld | hNew
        · exact hTracks.goes phase hOld
        · exact List.mem_singleton.mp hNew ▸ .inr Nat.one_pos
  | went hLive hPhase hLoop =>
      refine ⟨by simpa [reached] using hTracks.length, fun phase hMem => ?_⟩
      rcases List.mem_or_eq_of_mem_set hMem with hOld | rfl
      · exact hTracks.goes phase hOld
      · exact RunLoop.goes_of_step hLoop
  | changed => exact ⟨hTracks.length, hTracks.goes⟩

/-- A step of a call that starts no loop. -/
theorem Tracks.step_advance {number : Nat} {call : Call} {calls : Calls} (hTracks : s.Tracks)
    (hCall : s.calls.calls[number]? = some call)
    (hAdvance : s.calls.advance number call = some calls)
    (hLoops : calls.loops = s.calls.loops) :
    s.step requests (.call (.advance number)) = some { s with calls } := by
  rw [step_call rfl ((Calls.step_advance hCall).trans hAdvance), hTracks.notified_of_loops hLoops]

/-- A phase of a loop stays known while its loop takes no event. -/
theorem phase_notified {calls : Calls} {phase : LoopPhase} (hPhase : s.phases[loop]? = some phase) :
    (s.notified calls).phases[loop]? = some phase := by
  have hBound := (List.getElem?_eq_some_iff.mp hPhase).1
  unfold notified
  dsimp only
  split
  · rw [List.getElem?_append_left hBound, hPhase]
  · exact hPhase

/-! ## One run at a time -/

/-- What every selector keeps, whatever its callers do. -/
structure Lawful (s : Selector) : Prop where
  orderly : s.calls.Orderly
  marked : s.calls.MarkedForLoop
  tracks : s.Tracks

theorem Lawful.step (hLawful : s.Lawful) (hStep : s.step requests event = some after) :
    after.Lawful := by
  have hTracks := hLawful.tracks.step hStep
  cases stepsTo_of_step hStep with
  | called _ hCalls => exact ⟨hLawful.orderly.step hCalls, hLawful.marked.step hCalls, hTracks⟩
  | went | changed => exact ⟨hLawful.orderly, hLawful.marked, hTracks⟩

/-- A run is the only one under way. -/
structure Attends (run loop : Nat) (s : Selector) : Prop where
  sole : Calls.Sole run loop s.calls
  tracks : s.Tracks
  /-- The loop of the run is over when it has exited, unless the run was
  dropped. -/
  exited : s.calls.loops[loop]? = some false →
    s.calls.calls[run]? = some ⟨.run, .dropped⟩ ∨
      ∃ phase, s.phases[loop]? = some phase ∧ phase.isOver = true

theorem Attends.step (hAttends : Attends run loop s) (hStep : s.step requests event = some after)
    (hOther : event ≠ .call (.call .run)) : Attends run loop after := by
  have hTracks := hAttends.tracks.step hStep
  cases stepsTo_of_step hStep with
  | @called event calls hAllows hCalls =>
      have hSole := hAttends.sole.step hCalls fun hRun => hOther (hRun ▸ rfl)
      refine ⟨hSole, hTracks, fun hGone => ?_⟩
      by_cases hBefore : s.calls.loops[loop]? = some false
      · rcases hAttends.exited hBefore with hDropped | ⟨phase, hPhase, hOver⟩
        · obtain ⟨stage, hRun, hStage⟩ := Calls.call_kept hCalls hDropped
          rcases hStage with rfl | hFollows
          · exact .inl hRun
          · cases hFollows
        · exact .inr ⟨phase, phase_notified hPhase, hOver⟩
      · rcases hAttends.sole.exited_or_dropped hCalls hBefore hGone with rfl | hDropped
        · obtain ⟨phase, hPhase, hOver⟩ := (Option.any_eq_true _ _).mp hAllows
          exact .inr ⟨phase, phase_notified hPhase, hOver⟩
        · exact .inl hDropped
  | @went number now stop event phase next c acts hLive hPhase hLoop =>
      refine ⟨hAttends.sole, hTracks, fun hGone => ?_⟩
      have hOther : number ≠ loop := by
        rintro rfl
        cases hLive.symm.trans hGone
      rcases hAttends.exited hGone with hDropped | ⟨phase, hPhase, hOver⟩
      · exact .inl hDropped
      · exact .inr ⟨phase, (List.getElem?_set_ne hOther).trans hPhase, hOver⟩
  | changed => exact ⟨hAttends.sole, hTracks, hAttends.exited⟩

end Selector

end RelayRace
