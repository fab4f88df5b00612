import RelayRace.Proofs.Selection.Accounting
import RelayRace.Proofs.Selection.TimedRound

/-!
# Workers wind up by themselves

The signal of a round's workers reads as raised when the round stops waiting, when
the selection is aborted or when it is told to stop.  From then on, as long as the
signal stays raised, nothing more is asked for, nobody joins those who are at work,
and each of them sends his outcome by his next look at the signal, whatever he
waits for and however long that takes (`TimedRound.Unwinds`).  That look is at most
one poll interval ahead.

So a grace period that is longer than a poll interval ends nobody by force, and
the summary of a round counts everybody who started.
-/

namespace RelayRace

/-! ## What is asked for -/

/-- What an act asks for, and for whom, if it asks for something. -/
def Act.inquiry : Act → Option (Nat × Inquiry)
  | .asked owner inquiry => some (owner, inquiry)
  | _ => none

/-- All that some acts ask for, in order. -/
def inquiries (acts : List Act) : List (Nat × Inquiry) := acts.filterMap Act.inquiry

@[simp] theorem inquiries_append (acts more : List Act) :
    inquiries (acts ++ more) = inquiries acts ++ inquiries more :=
  List.filterMap_append

/-- While their signal is raised probes ask for nothing. -/
theorem inquiries_of_probeActs {acts : List Act} (hActs : ProbeActs true acts) :
    inquiries acts = [] := by
  refine List.filterMap_eq_nil_iff.mpr fun act hMem => ?_
  have hAct := hActs act hMem
  cases act with
  | asked owner inquiry => cases hAct
  | _ => rfl

namespace Conclusion

theorem probeActs_releaseAll (raised : Bool) (outcomes : List Outcome) :
    ProbeActs raised (releaseAll outcomes) := by
  intro act hMem
  obtain ⟨o, -, hAct⟩ := List.mem_flatMap.mp hMem
  exact probeActs_closing o.held o.index act hAct

theorem inquiries_releaseAll (outcomes : List Outcome) : inquiries (releaseAll outcomes) = [] :=
  inquiries_of_probeActs (probeActs_releaseAll true outcomes)

theorem inquiries_opening (outcomes : List Outcome) : inquiries (opening outcomes) = [] := by
  have hLines : inquiries (outcomes.map fun o => .noted (.responseCheck o.check)) = [] := by
    simp [inquiries, List.filterMap_map, Act.inquiry]
  rw [opening, inquiries_append, hLines, inquiries_releaseAll]
  rfl

theorem inquiries_select (o : Outcome) : inquiries o.select.2 = [] := by
  have hClosing : inquiries (o.held.closing o.index) = [] :=
    inquiries_of_probeActs (probeActs_closing _ _)
  unfold Outcome.select
  split
  · split
    · rfl
    · exact hClosing
  · exact hClosing

theorem inquiries_award (list : ServerList) (g : Generator) (ordered : List Outcome) :
    inquiries (award list g ordered).acts = [] := by
  cases ordered with
  | nil => rfl
  | cons best losers =>
      have hAnnouncement : inquiries (announcement best.select.1) = [] := by
        cases best.select.1 with
        | none => rfl
        | some w => rfl
      simp only [award, inquiries_append, inquiries_select, inquiries_releaseAll, hAnnouncement]
      rfl

/-- A conclusion asks for nothing. -/
theorem inquiries_of (list : ServerList) (g : Generator) (first : Option Candidate) (abort : Bool)
    (outcomes : List Outcome) : inquiries (of list g first abort outcomes).acts = [] := by
  cases abort with
  | true =>
      show inquiries (opening outcomes ++ releaseAll _) = []
      rw [inquiries_append, inquiries_opening, inquiries_releaseAll]
      rfl
  | false =>
      rw [of_eq_award, inquiries_append, inquiries_opening, inquiries_award]
      rfl

end Conclusion

/-- While the signal of its workers is raised a round asks for nothing. -/
theorem Round.inquiries_step {c next : Coordinator} {request : SelectionRequest} {amb : Ambient}
    {round later : Round} {ctx : RoundContext} {race : Race} {event : Race.Event}
    {acts : List Act} (hRacing : round.phase = .racing ctx race)
    (hRaised : (race.moment amb).aborted = true)
    (hStep : round.step c request amb (.race event) = some (next, later, acts)) :
    inquiries acts = [] := by
  simp only [step, hRacing] at hStep
  split at hStep
  · rename_i after raceActs hRace
    have hActs : inquiries raceActs = [] := by
      have hProbe := Race.probeActs_step hRace
      rw [hRaised] at hProbe
      exact inquiries_of_probeActs hProbe
    unfold afterRace at hStep
    split at hStep
    · split at hStep
      · cases hStep
        rw [inquiries_append, hActs, Conclusion.inquiries_releaseAll]
        rfl
      · cases hStep
        rw [inquiries_append, hActs]
        exact Conclusion.inquiries_of _ _ _ _ _
    · cases hStep
      exact hActs
    · cases hStep
      exact hActs
  · cases hStep

/-! ## Who leaves the pool -/

namespace PoolLedger

variable {settings : Settings} {ctx : RoundContext} {amb : Ambient} {race next : Race}
  {event : Race.Event} {acts : List Act} {l after : PoolLedger}

/-- What becomes of those who are at work, at an event of a race whose signal is
raised. -/
structure Sheds (settings : Settings) (amb : Ambient) (race : Race) (l after : PoolLedger) :
    Prop where
  joined : ∀ a ∈ after.pool.running, a ∈ l.pool.running
  killed : ∀ a ∈ l.killed, a ∈ after.killed
  /-- Each is at work as before, has sent his outcome, or was ended by force, which
  takes a crash or the end of the grace period. -/
  left : ∀ a ∈ l.pool.running, a ∈ after.pool.running ∨
    (∃ o ∈ after.sent.drop l.sent.length, a.EndsWith o) ∨
      a ∈ after.killed ∧ (settings.pollRatio = 0 ∨
        ∃ limit, race.phase = .winding limit ∧ limit ≤ amb.now)

/-- An event that leaves everybody at work. -/
theorem sheds_same (hRunning : after.pool.running = l.pool.running)
    (hKilled : after.killed = l.killed) : Sheds settings amb race l after := by
  constructor
  · intro a hMem
    rwa [hRunning] at hMem
  · intro a hMem
    rwa [hKilled]
  · intro a hMem
    left
    rwa [hRunning]

/-- Closing the pool ends everybody at work, which nobody is without a reason. -/
theorem sheds_close
    (hWhy : ∀ a ∈ l.pool.running, settings.pollRatio = 0 ∨
      ∃ limit, race.phase = .winding limit ∧ limit ≤ amb.now) :
    Sheds settings amb race l l.close := by
  constructor
  · intro a hMem
    cases hMem
  · intro a hMem
    exact List.mem_append_left _ hMem
  · intro a hMem
    right
    right
    exact ⟨List.mem_append_right _ hMem, hWhy a hMem⟩

theorem Follows.sheds (hFollows : Follows settings ctx amb l race event next acts after)
    (hRaised : (race.moment amb).aborted = true)
    (hNodup : (l.pool.running.map Attempt.index).Nodup)
    (hSound : ∀ a ∈ l.pool.running, ∃ job, a.Sound ctx job) :
    Sheds settings amb race l after := by
  cases hFollows with
  | @task _ pool _ _ hTask =>
      refine ⟨(Pool.prompt_step hTask).running_subset hRaised, fun _ hMem => hMem, ?_⟩
      intro a hMem
      rcases Pool.mem_or_sent hTask hRaised hNodup hSound hMem with hStill | ⟨o, hSent, hEnds⟩
      · exact .inl hStill
      · refine .inr (.inl ⟨o, ?_, hEnds⟩)
        simp [afterTask, hSent]
  | receives _ hReceive =>
      unfold Pool.receive at hReceive
      split at hReceive
      · cases hReceive
      · cases hReceive
        exact sheds_same rfl rfl
  | winds | waits => exact sheds_same rfl rfl
  | crashes _ hCrashes => exact sheds_close fun _ _ => .inl (Race.ratio_of_crashesAt hCrashes)
  | settles hExhausted =>
      simp only [Pool.isExhausted, Bool.and_eq_true, List.isEmpty_iff] at hExhausted
      refine sheds_close fun a hMem => ?_
      rw [hExhausted.1.2] at hMem
      cases hMem
  | @expires limit hWinding hLimit => exact sheds_close fun _ _ => .inr ⟨limit, hWinding, hLimit⟩

end PoolLedger

/-! ## Rounds whose signal stays raised -/

namespace TimedRound

variable {request : SelectionRequest} {start : Coordinator} {t u after : TimedRound}
  {scene : Scene} {race : Race}

/-- How the signal of the workers reads; when there are none it does not matter. -/
def raised (t : TimedRound) (amb : Ambient) : Bool :=
  match t.trace.round.phase with
  | .racing _ race => (race.moment amb).aborted
  | .asking | .sleeping _ | .ended _ | .crashed => true

/-- What has become, in the round `t`, of those who were at work in the round `u`, if
the signal was raised in between. -/
structure Unwinds (start : Coordinator) (u t : TimedRound) : Prop where
  ahead : u.now ≤ t.now
  /-- Nothing more was asked for: no stage was entered. -/
  asked : inquiries t.trace.acts = inquiries u.trace.acts
  /-- Nobody joined those who were at work, and whoever is left is as he was. -/
  joined : ∀ a ∈ t.ledger.pool.running, a ∈ u.ledger.pool.running
  /-- Each is at work, has sent his outcome by his next look at the signal, with at
  most the stage that he was in done, or was ended by force, which takes a grace
  period that is no longer than a poll interval, or ticks that are counted out by
  zero. -/
  left : ∀ a ∈ u.ledger.pool.running, a ∈ t.ledger.pool.running ∨
    (∃ time o, (time, o) ∈ t.deliveries ∧ a.EndsWith o ∧ u.now ≤ time ∧ time ≤ a.due) ∨
      a ∈ t.ledger.killed ∧ (start.settings.pollRatio = 0 ∨
        start.settings.grace.nanos ≤ start.settings.connectPoll.nanos)

theorem Unwinds.refl (t : TimedRound) : Unwinds start t t where
  ahead := Nat.le_refl _
  asked := rfl
  joined _ hMem := hMem
  left _ hMem := .inl hMem

/-- Those who are at work in a round have different indices and are sound. -/
theorem Runs.runners (hRuns : Runs request start t scene race) :
    (t.ledger.pool.running.map Attempt.index).Nodup ∧
      ∀ a ∈ t.ledger.pool.running, ∃ job, a.Sound (Round.contextOf start request scene) job := by
  have hBalanced := hRuns.races.raced.reached.balanced
  refine ⟨(hBalanced.apart (start.nodup_jobsIn scene)).running, fun a hMem => ?_⟩
  obtain ⟨job, -, hSound⟩ := hBalanced.runners a hMem
  exact ⟨job, hSound⟩

theorem Runs.raised_eq (hRuns : Runs request start t scene race) (amb : Ambient) :
    t.raised amb = (race.moment amb).aborted := by
  simp only [raised, hRuns.races.phase]

theorem Unwinds.step {amb : Ambient} {event : RoundEvent} (hUnwinds : Unwinds start u t)
    (hRuns : Runs request start t scene race) (hRaised : t.raised amb = true)
    (hSteps : Steps request t amb event after) : Unwinds start u after := by
  obtain ⟨raceEvent, rfl⟩ := hRuns.races.event_eq hSteps.trace
  obtain ⟨next, acts, hRace, -⟩ := hRuns.races.race_step hSteps.trace
  rw [hRuns.raised_eq] at hRaised
  have hFollows := hRuns.races.tracks.follows hRace
  rw [← hRuns.ledgerAfter_eq after.trace, ← hSteps.ledger] at hFollows
  obtain ⟨hNodup, hSound⟩ := hRuns.runners
  have hSheds := hFollows.sheds hRaised hNodup hSound
  have hTimers := hSteps.timers
  rw [hRuns.timers_eq] at hTimers
  have hPool := hRuns.races.tracks.pool
  have hAhead : u.now ≤ amb.now := Nat.le_trans hUnwinds.ahead hSteps.ahead
  refine ⟨by rw [hSteps.now]; exact hAhead, ?_, fun a hMem => ?_, fun a hMem => ?_⟩
  · obtain ⟨_, _, more, hRound, hTrace⟩ := RoundTrace.step_eq_some hSteps.trace
    rw [hTrace, inquiries_append, Round.inquiries_step hRuns.races.phase hRaised hRound,
      List.append_nil]
    exact hUnwinds.asked
  · exact hUnwinds.joined a (hSheds.joined a hMem)
  · rcases hUnwinds.left a hMem with hStill | ⟨time, o, hSent, hWhen⟩ | ⟨hKilled, hWhy⟩
    · rcases hSheds.left a hStill with hOn | ⟨o, hSent, hEnds⟩ | ⟨hKilled, hWhy⟩
      · exact .inl hOn
      · -- His outcome is sent now, and no timer of his is late.
        refine .inr (.inl ⟨amb.now, o, ?_, hEnds, hAhead, ?_⟩)
        · rw [hSteps.deliveries]
          exact List.mem_append_right _ (List.mem_map_of_mem hSent)
        · rw [hPool] at hStill
          exact hTimers _ (Race.due_mem_timers hStill)
      · refine .inr (.inr ⟨hKilled, ?_⟩)
        rcases hWhy with hRatio | ⟨limit, hWinding, hLimit⟩
        · exact .inl hRatio
        · rw [hPool] at hStill
          exact .inr (hRuns.onTime.grace_le hTimers hWinding hLimit hStill)
    · refine .inr (.inl ⟨time, o, ?_, hWhen⟩)
      rw [hSteps.deliveries]
      exact List.mem_append_left _ hSent
    · exact .inr (.inr ⟨hSheds.killed a hKilled, hWhy⟩)

/-- A round that is over, with nobody left in its pool. -/
structure Over (t : TimedRound) : Prop where
  phase : (∃ winner, t.trace.round.phase = .ended winner) ∨ t.trace.round.phase = .crashed
  closed : t.ledger.Closed

/-- Nothing happens in a round that is over. -/
theorem Over.step_eq_none (hOver : t.Over) (event : Ambient × RoundEvent) :
    t.step request event = none := by
  obtain ⟨amb, event⟩ := event
  cases hStep : t.step request (amb, event) with
  | none => rfl
  | some after =>
      have hTrace := (steps_of_step hStep).trace
      obtain ⟨winner, hEnded⟩ | hCrashed := hOver.phase
      · cases (RoundTrace.step_ended hEnded _).symm.trans hTrace
      · cases (RoundTrace.step_crashed hCrashed _).symm.trans hTrace

/-- A race on time goes on, or its round is over. -/
theorem Runs.step_or_over {amb : Ambient} {event : RoundEvent}
    (hRuns : Runs request start t scene race) (hSteps : Steps request t amb event after) :
    (∃ next, Runs request start after scene next) ∨ after.Over := by
  obtain ⟨next, hNext⟩ | hConcludes | ⟨-, hCollapsed⟩ := hRuns.step hSteps
  · exact .inl ⟨next, hNext⟩
  · exact .inr ⟨.inl ⟨_, hConcludes.concluded.phase⟩, hConcludes.concluded.closed⟩
  · exact .inr ⟨.inr hCollapsed.phase, hCollapsed.closed⟩

/-- A round that does not wait for results any more. -/
def HasStopped (request : SelectionRequest) (start : Coordinator) (scene : Scene)
    (t : TimedRound) : Prop :=
  (∃ race, Runs request start t scene race ∧ race.isOver = true) ∨ t.Over

theorem HasStopped.raised (hStopped : HasStopped request start scene t) (amb : Ambient) :
    t.raised amb = true := by
  obtain ⟨race, hRuns, hOver⟩ | hOver := hStopped
  · rw [hRuns.raised_eq]
    simp [Race.moment, hOver]
  · obtain ⟨winner, hPhase⟩ | hPhase := hOver.phase
    · simp only [TimedRound.raised, hPhase]
    · simp only [TimedRound.raised, hPhase]

/-- A race that does not wait any more does not wait again. -/
theorem isOver_of_step {settings : Settings} {ctx : RoundContext} {amb : Ambient} {next : Race}
    {event : Race.Event} {acts : List Act} (hOver : race.isOver = true)
    (hStep : race.step settings ctx amb event = some (next, acts)) : next.isOver = true := by
  cases Race.stepsTo_of_step hStep with
  | pool | receive => exact hOver
  | winds | crashes | settles | expires => rfl
  | waits hWaiting => simp [Race.isOver, hWaiting] at hOver

theorem HasStopped.step {event : Ambient × RoundEvent}
    (hStopped : HasStopped request start scene t) (hStep : t.step request event = some after) :
    HasStopped request start scene after := by
  obtain ⟨race, hRuns, hOver⟩ | hOver := hStopped
  · obtain ⟨amb, event⟩ := event
    have hSteps := steps_of_step hStep
    obtain ⟨raceEvent, rfl⟩ := hRuns.races.event_eq hSteps.trace
    obtain ⟨next, acts, hRace, hNext⟩ := hRuns.races.race_step hSteps.trace
    obtain ⟨other, hOn⟩ | hDone := hRuns.step_or_over hSteps
    · rcases hNext with ⟨-, hLater⟩ | ⟨-, -, hLater⟩ | ⟨-, -, winner, hLater⟩
      · cases hOn.races.phase.symm.trans hLater
        exact .inl ⟨_, hOn, isOver_of_step hOver hRace⟩
      · cases hOn.races.phase.symm.trans hLater
      · cases hOn.races.phase.symm.trans hLater
    · exact .inr hDone
  · cases (hOver.step_eq_none _).symm.trans hStep

/-- An event of the race is one of the round when no timer is late. -/
theorem Runs.accepts {amb : Ambient} {event : Race.Event} {next : Race} {acts : List Act}
    (hRuns : Runs request start t scene race) (hNow : t.now ≤ amb.now)
    (hTimers : ∀ timer ∈ t.trace.round.timers, amb.now ≤ timer)
    (hRace : race.step start.settings (Round.contextOf start request scene) amb event =
      some (next, acts)) : ∃ after, t.step request (amb, .race event) = some after := by
  have hSettings : t.trace.coordinator.settings = start.settings := by
    rw [hRuns.races.coordinator]
    rfl
  have hRound : (t.trace.round.step t.trace.coordinator request amb (.race event)).isSome := by
    simp only [Round.step, hRuns.races.phase, hSettings, hRace, Option.isSome_some]
  obtain ⟨⟨coordinator, round, more⟩, hSome⟩ := Option.isSome_iff_exists.mp hRound
  unfold TimedRound.step
  rw [if_pos ⟨hNow, hTimers⟩]
  simp only [RoundTrace.step, hSome]
  exact ⟨_, rfl⟩

end TimedRound

namespace TimedRound

variable {request : SelectionRequest} {start : Coordinator} {t : TimedRound}

/-- A grace period longer than a poll interval ends nobody by force. -/
theorem Stands.spared (hStands : Stands request start t)
    (hGrace : start.settings.connectPoll.nanos < start.settings.grace.nanos)
    (hRatio : start.settings.pollRatio ≠ 0) : t.ledger.killed = [] := by
  cases hStands with
  | idle hLedger => rw [hLedger]
  | runs hRuns => exact hRuns.spared
  | concludes hConcludes => exact hConcludes.spared hGrace
  | collapsed hCut => exact absurd hCut hRatio

end TimedRound

namespace Sample

/-- A coordinator with one relay whose ticks are counted out by zero, under settings that
are accepted. -/
def cut : Coordinator :=
  { coordinator with
    settings :=
      { ({} : Settings).withPolls (.ofMillis 50) (.ofMillis (50 * UInt32.size)) with
        maxRound := .ofMillis (50 * UInt32.size) }
    list := { entries := [plain] } }

/-- The relay is dialed, so that the next look comes after the next tick. -/
def dialing : List (Ambient × RoundEvent) :=
  schedule [(0, .tick), (0, .pool .take), (10, .pool (.answer 0 (.resolved (some ⟨.loopback, 22⟩))))]

end Sample

namespace TimedRound

end TimedRound

end RelayRace
