import Mathlib.Data.List.Induction
import RelayRace.Proofs.Selection.Dispatch
import RelayRace.Proofs.Selection.PollRatio
import RelayRace.Proofs.Selection.Unmanned
import RelayRace.Proofs.Selection.Unwinding
import RelayRace.Proofs.Signal.Propagation

/-!
# A round that is told to stop before its probes begin

A round does not look at the stop signal of whoever asked for it.  Its probes do: their
signal is linked to it, so it reads as raised with it (`Race.isAborted_link`), and a
probe looks at its signal before it enters a stage.  If the stop signal is raised when
the probes are sent out and stays raised, nothing is asked for on behalf of the round,
whoever is given a turn fails at once, and the round goes on to the end that it has
when nobody responds (`RoundTrace.Halted`).

It takes no more than so many events to get there, and there is always one more to
take.  The one other way that is left to the round is the crash of a tick that is
counted out by zero.
-/

namespace RelayRace

/-! ## How the signals read -/

/-- How the two signals that a round listens to read, given the flags of the moment. -/
structure Ambient.Reads (amb : Ambient) (own stop : Signal) (flags : Flags) : Prop where
  abort : amb.abort = own.isAborted flags
  stop : amb.stop = stop.isAborted flags

/-- Whether the selector's own signal is clear, and the stop signal is raised by its own
flag or by that of an ancestor. -/
def Ambient.ToldToStop (amb : Ambient) (own stop : Signal) : Prop :=
  ∃ flags : Flags, amb.Reads own stop flags ∧ own.isAborted flags = false ∧
    (flags.isRaised stop.flag = true ∨ ∃ number ∈ stop.ancestors, flags.isRaised number = true)

theorem Ambient.ToldToStop.readings {amb : Ambient} {own stop : Signal}
    (hTold : amb.ToldToStop own stop) : amb.abort = false ∧ amb.stop = true := by
  obtain ⟨flags, hReads, hClear, hRaised⟩ := hTold
  exact ⟨hReads.abort.trans hClear, hReads.stop.trans (Signal.isAborted_iff.mpr hRaised)⟩

/-- The summary of a round whose outcomes all failed, and that was not aborted. -/
def Summary.ofFailures (dispatched completed : Nat) : Summary :=
  { dispatched, completed, responded := 0, winner := none, aborted := false }

namespace Round

variable {c next : Coordinator} {request : SelectionRequest} {amb : Ambient}
  {round later : Round} {event : RoundEvent} {acts : List Act}

/-- A round in which nobody responded ends without a winner and is recorded. -/
theorem conclude_silent (dispatched : Nat) {outcomes : List Outcome} (hClear : amb.abort = false)
    (hSilent : ∀ o ∈ outcomes, o.responded = false) :
    conclude c round amb dispatched outcomes =
      ({ c with statistics :=
          c.statistics.record (.ofFailures dispatched outcomes.length) },
        { round with phase := .ended none }, Conclusion.opening outcomes) := by
  simp only [conclude, hClear, Conclusion.of_silent _ _ _ hSilent,
    Conclusion.filter_responded hSilent]
  rfl

theorem inquiries_setUp (scene : Scene) : inquiries (setUpNotices scene) = [] := by
  unfold setUpNotices
  cases scene.proxy <;> rfl

/-- A look at the environment asks for nothing on behalf of a probe. -/
theorem inquiries_look (scene : Scene) :
    inquiries (look c request amb round scene).2.2 = [] := by
  unfold look
  split
  · split
    · rfl
    · show inquiries (dispatch c request amb round scene).2.2 = []
      unfold dispatch
      dsimp only
      split
      · rfl
      · split
        · simp only [inquiries_append, inquiries_setUp]
          exact Conclusion.inquiries_of _ _ _ _ _
        · simp only [inquiries_append, inquiries_setUp]
          rfl
  · show inquiries (awaitsNotice round) = []
    unfold awaitsNotice
    split <;> rfl

/-- A round that searches asks for nothing on behalf of a probe. -/
theorem inquiries_of_searches (hSearches : round.Searches)
    (hStep : round.step c request amb event = some (next, later, acts)) : inquiries acts = [] := by
  rcases hSearches with hAsking | ⟨sleep, hSleeping⟩
  · cases event with
    | look scene =>
        simp only [step, hAsking, Option.some.injEq] at hStep
        have hLook := @inquiries_look c request amb round scene
        rwa [hStep] at hLook
    | wake | race _ => simp [step, hAsking] at hStep
  · cases event with
    | wake =>
        simp only [step, hSleeping] at hStep
        split at hStep
        · cases hStep
          rfl
        · cases hStep
    | look _ | race _ => simp [step, hSleeping] at hStep

end Round

/-- How many events a stopped round takes at most once its probes are out: three for each
job, the ticks before its deadline, and those that end it. -/
def Coordinator.eventLimit (c : Coordinator) (scene : Scene) : Nat :=
  3 * (c.jobsIn scene).length + c.settings.maxRound.nanos / c.settings.connectPoll.nanos + 3

namespace RoundTrace

variable {request : SelectionRequest} {start : Coordinator} {t u after : RoundTrace}
  {scene : Scene} {race : Race} {l : PoolLedger} {launch amb : Ambient} {event : RoundEvent}
  {schedule : List (Ambient × RoundEvent)}

/-- Whether the wait of a round ended at its deadline while a job was waiting that nobody
had taken yet. -/
def Starved (request : SelectionRequest) (u : RoundTrace) (deadline : Instant)
    (schedule : List (Ambient × RoundEvent)) : Prop :=
  ∃ before late more v ctx race, schedule = before ++ (late, .race .tick) :: more ∧
    u.play request before = some v ∧ v.round.phase = .racing ctx race ∧
      race.pool.queue ≠ [] ∧ deadline ≤ late.now

theorem Starved.append {deadline : Instant} (hStarved : Starved request u deadline schedule)
    (rest : List (Ambient × RoundEvent)) :
    Starved request u deadline (schedule ++ rest) := by
  obtain ⟨before, late, more, v, ctx, race, rfl, hFacts⟩ := hStarved
  exact ⟨before, late, more ++ rest, v, ctx, race, by simp, hFacts⟩

/-- A round that ended without a winner and is recorded as one that nobody called off;
the stored list is as it was, and nothing was drawn but the order of the jobs. -/
structure EndsInVain (start : Coordinator) (scene : Scene) (t : RoundTrace) : Prop where
  phase : t.round.phase = .ended none
  coordinator : t.coordinator =
    { start.probing with
      statistics := start.statistics.record
        (.ofFailures (start.jobsIn scene).length t.outcomes.length) }

/-- A round whose race crashed with a tick, which takes settings with a results interval of
2^32 poll intervals or a multiple of that.  It is not recorded. -/
structure CrashesByCut (start : Coordinator) (t : RoundTrace) : Prop where
  phase : t.round.phase = .crashed
  cut : UInt32.size ∣ start.settings.looksPerResult
  coordinator : t.coordinator = start.probing

/-- What is true of a stopped round at any time: it asked for nothing, and nobody was at
work in its pool. -/
structure Idles (request : SelectionRequest) (start : Coordinator) (scene : Scene)
    (l : PoolLedger) (t : RoundTrace) : Prop where
  raced : Raced request start scene l
  unmanned : l.Unmanned
  outcomes : t.outcomes = l.received
  asked : inquiries t.acts = []
  acts : ∃ before tail, Idle before ∧ Idle tail ∧ t.acts = before ++ l.acts ++ tail

theorem Idles.silent (hIdles : Idles request start scene l t) :
    ∀ o ∈ t.outcomes, o.responded = false := by
  rw [hIdles.outcomes]
  exact hIdles.unmanned.received hIdles.raced.reached.balanced

theorem Idles.closed (hIdles : Idles request start scene l t) (h : Handle) :
    opens t.acts h ≤ 1 ∧ closes t.acts h = opens t.acts h := by
  obtain ⟨before, tail, hBefore, hTail, hActs⟩ := hIdles.acts
  have hLedger := hIdles.unmanned.settled hIdles.raced.reached (start.nodup_jobsIn scene) h.owner
  have hSettled : Settled t.acts h.owner {} := by
    rw [hActs]
    exact (hLedger.after_quiet hBefore.quiet).append (hTail.quiet.spares _)
  have hBoth := hSettled h.kind
  have hNone : ({} : Holdings).count h.kind = 0 := by cases h.kind <;> rfl
  have hSame : (⟨h.kind, h.owner⟩ : Handle) = h := rfl
  rw [hNone, hSame] at hBoth
  omega

theorem Idles.order (hIdles : Idles request start scene l t) : reorderings t.acts = [] := by
  obtain ⟨before, tail, hBefore, hTail, hActs⟩ := hIdles.acts
  rw [hActs, reorderings_append, reorderings_append, hBefore.order, hIdles.raced.order,
    hTail.order]
  rfl

/-- Nobody who failed holds anything. -/
theorem Raced.bare (hRaced : Raced request start scene l)
    (hSilent : ∀ o ∈ l.received, o.responded = false) : ∀ o ∈ l.received, o.held = {} := by
  intro o hMem
  obtain ⟨job, -, hSound⟩ := hRaced.sound o hMem
  exact (hSound.loser (hSilent o hMem)).1

theorem Races.idles (hRaces : Races request start t scene race l) (hUnmanned : l.Unmanned)
    (hAsked : inquiries t.acts = []) : Idles request start scene l t where
  raced := hRaces.raced
  unmanned := hUnmanned
  outcomes := hRaces.outcomes
  asked := hAsked
  acts := by
    obtain ⟨before, hBefore, hActs⟩ := hRaces.acts
    exact ⟨before, [], hBefore, idle_nil, by rw [hActs, List.append_nil]⟩

theorem Concluded.idles (hConcluded : Concluded request start t scene l)
    (hUnmanned : l.Unmanned) (hAsked : inquiries t.acts = []) (hKept : t.aborted = false) :
    Idles request start scene l t where
  raced := hConcluded.raced
  unmanned := hUnmanned
  outcomes := hConcluded.outcomes
  asked := hAsked
  acts := by
    have hSilent := hUnmanned.received hConcluded.raced.reached.balanced
    have hBare := hConcluded.raced.bare hSilent
    obtain ⟨before, hBefore, hActs⟩ := hConcluded.acts
    have hOpening : Idle (Conclusion.opening l.received) :=
      ⟨Conclusion.quiet_opening fun o hMem _ => hBare o hMem,
        Conclusion.reorderings_opening _⟩
    refine ⟨before, _, hBefore, hOpening, ?_⟩
    rw [hActs, hKept, hConcluded.outcomes, Coordinator.conclusion,
      Conclusion.of_silent _ _ _ hSilent]

theorem Collapsed.idles (hCollapsed : Collapsed request start t scene l)
    (hUnmanned : l.Unmanned) (hAsked : inquiries t.acts = []) :
    Idles request start scene l t where
  raced := hCollapsed.raced
  unmanned := hUnmanned
  outcomes := hCollapsed.outcomes
  asked := hAsked
  acts := by
    have hSilent := hUnmanned.received hCollapsed.raced.reached.balanced
    have hBare := hCollapsed.raced.bare hSilent
    obtain ⟨before, hBefore, hActs⟩ := hCollapsed.acts
    refine ⟨before, [], hBefore, idle_nil, ?_⟩
    rw [hActs, hCollapsed.outcomes, Conclusion.releaseAll_of_bare hBare]

/-! ## The end of a stopped round -/

/-- A race that is over without a responder leaves the round without a winner. -/
theorem Races.endsInVain {raceEvent : Race.Event} {winner : Option Winner}
    (hRaces : Races request start t scene race l) (hClear : amb.abort = false)
    (hStep : t.step request (amb, .race raceEvent) = some after)
    (hEnded : after.round.phase = .ended winner)
    (hSilent : ∀ o ∈ after.outcomes, o.responded = false) : EndsInVain start scene after := by
  obtain ⟨coordinator, round, acts, hRound, rfl⟩ := step_eq_some hStep
  cases Round.stepsTo_of_step hRound with
  | gaveUp hSearches | searched hSearches =>
      rcases hSearches with hPhase | ⟨sleep, hPhase⟩ <;> cases hPhase.symm.trans hRaces.phase
  | raced _ _ _ hPhase | collapsed _ _ _ _ hPhase => cases hPhase.symm.trans hEnded
  | @concluded ctx race next _ raceActs hRacing hRace =>
      have hCollected : t.round.collected t.coordinator amb (.race raceEvent) = next.received := by
        simp only [Round.collected, hRacing, hRace]
      rw [hCollected] at hSilent
      have hLength : next.dispatched = (start.jobsIn scene).length := by
        cases hRacing.symm.trans hRaces.phase
        exact (Race.step_keeps hRace).2.trans hRaces.dispatched
      rw [Round.conclude_silent _ hClear hSilent, hCollected, hLength, hRaces.coordinator]
      exact ⟨rfl, rfl⟩

/-- A round that finds nobody to probe ends without a winner. -/
theorem Searches.endsInVain (hSearches : Searches start t) (hSends : scene.SendsOut amb)
    (hNobody : start.jobsIn scene = []) (hStep : t.step request (amb, .look scene) = some after) :
    EndsInVain start scene after := by
  obtain ⟨coordinator, round, acts, hRound, rfl⟩ := step_eq_some hStep
  obtain ⟨hPhase, rfl, -, -⟩ := hSearches
  rcases hPhase with hAsking | ⟨sleep, hSleeping⟩
  · simp only [Round.step, hAsking, Round.look_of_sendsOut hSends,
      dispatch_nil hSends.region hNobody, Option.some.injEq] at hRound
    rw [Round.conclude_silent 0 hSends.kept (by simp)] at hRound
    cases hRound
    refine ⟨rfl, ?_⟩
    rw [hNobody]
    rfl
  · simp [Round.step, hSleeping] at hRound

/-! ## The run of a stopped round -/

/-- A stopped round whose race is under way. -/
structure Underway (request : SelectionRequest) (start : Coordinator) (launch : Ambient)
    (scene : Scene) (u : RoundTrace) (schedule : List (Ambient × RoundEvent)) (t : RoundTrace)
    (race : Race) (l : PoolLedger) : Prop where
  idles : Idles request start scene l t
  races : Races request start t scene race l
  paced : race.Paced start.settings launch.now
  spares : l.Spares race
  dropped : l.dropped = [] ∨
    Starved request u (launch.now + start.settings.maxRound.nanos) schedule
  bounded : schedule.length + race.eventsLeft start.settings ≤ start.eventLimit scene

/-- What a stopped round can have come to, told by the ledger of its race. -/
inductive Comes (request : SelectionRequest) (start : Coordinator) (launch : Ambient)
    (scene : Scene) (u : RoundTrace) (schedule : List (Ambient × RoundEvent)) (t : RoundTrace) :
    Prop where
  | underway {race : Race} {l : PoolLedger} :
      Underway request start launch scene u schedule t race l →
      Comes request start launch scene u schedule t
  | ended {l : PoolLedger} : Idles request start scene l t → EndsInVain start scene t →
      ((t.outcomes.map Outcome.index).Perm ((start.jobsIn scene).map Job.index) ∨
        Starved request u (launch.now + start.settings.maxRound.nanos) schedule) →
      schedule.length ≤ start.eventLimit scene →
      Comes request start launch scene u schedule t
  | crashed {l : PoolLedger} : Idles request start scene l t → CrashesByCut start t →
      schedule.length ≤ start.eventLimit scene →
      Comes request start launch scene u schedule t

/-- Jobs are dropped only when the deadline comes and they still wait. -/
theorem Underway.dropped_step {raceEvent : Race.Event} {next : Race} {acts : List Act}
    {ledger : PoolLedger} (hUnderway : Underway request start launch scene u schedule t race l)
    (hPlay : u.play request schedule = some t) (hClear : amb.abort = false)
    (hRace : race.step start.settings (Round.contextOf start request scene) amb raceEvent =
      some (next, acts))
    (hFollows : PoolLedger.Follows start.settings (Round.contextOf start request scene) amb l race
      raceEvent next acts ledger)
    (hIntact : next.phase = .over → next.crashed = false) :
    ledger.dropped = [] ∨
      Starved request u (launch.now + start.settings.maxRound.nanos)
        (schedule ++ [(amb, .race raceEvent)]) := by
  have hBalanced := hUnderway.idles.raced.reached.balanced
  have hTracks := hUnderway.races.tracks
  rcases hFollows.dropped hBalanced hUnderway.spares with hSame | ⟨rfl, hWound, hAll⟩
  · rw [hSame]
    exact hUnderway.dropped.imp_right fun hStarved => hStarved.append _
  · rw [hAll]
    by_cases hQueue : l.pool.queue = []
    · exact .inl hQueue
    · have hSilent : ∀ o ∈ race.received, o.responded = false := by
        rw [← hTracks.received]
        exact hUnderway.idles.unmanned.received hBalanced
      have hStops := Race.stopsAt_of_tick hRace hWound hIntact
      rcases Race.decided_or_late hClear hSilent hStops with hEverybody | hLate
      · rw [hUnderway.races.dispatched, ← hTracks.received] at hEverybody
        exact .inl (hBalanced.queue_of_received hEverybody)
      · rw [hUnderway.paced.deadline] at hLate
        rw [hTracks.pool] at hQueue
        exact .inr ⟨schedule, amb, [], t, _, race, rfl, hPlay, hUnderway.races.phase, hQueue, hLate⟩

theorem Underway.step (hFit : start.settings.IntervalsFit)
    (hUnderway : Underway request start launch scene u schedule t race l)
    (hPlay : u.play request schedule = some t) (hClear : amb.abort = false)
    (hStop : amb.stop = true) (hStep : t.step request (amb, event) = some after) :
    Comes request start launch scene u (schedule ++ [(amb, event)]) after := by
  obtain ⟨raceEvent, rfl⟩ := hUnderway.races.event_eq hStep
  obtain ⟨next, acts, hRace, hPhase⟩ := hUnderway.races.race_step hStep
  have hTracks := hUnderway.races.tracks
  have hRaised : (race.moment amb).aborted = true := by simp [Race.moment, hStop]
  have hFollows := hTracks.follows hRace
  have hUnmanned := hFollows.unmanned hRaised hUnderway.idles.unmanned
  have hDropped := hUnderway.dropped_step hPlay hClear hRace hFollows
  have hAsked : inquiries after.acts = [] := by
    obtain ⟨_, _, more, hRound, rfl⟩ := step_eq_some hStep
    rw [inquiries_append, hUnderway.idles.asked,
      Round.inquiries_step hUnderway.races.phase hRaised hRound]
    rfl
  have hLeft : schedule.length + 1 ≤ start.eventLimit scene :=
    Nat.le_trans (Nat.add_le_add_left (Race.eventsLeft_pos hUnderway.races.under) _)
      hUnderway.bounded
  have hLength : (schedule ++ [(amb, RoundEvent.race raceEvent)]).length ≤
      start.eventLimit scene := by
    rw [List.length_append]
    exact hLeft
  -- The ledger and the phase of the race tell of the same three ends of the event.
  obtain ⟨-, ⟨other, hNext⟩ | hConcluded | hCollapsed⟩ := hUnderway.races.follow hStep
  · rcases hPhase with ⟨hOn, hLater⟩ | ⟨-, -, hLater⟩ | ⟨-, -, winner, hLater⟩
    · cases hNext.phase.symm.trans hLater
      have hNobody : race.pool.running = [] := by
        rw [← hTracks.pool]
        exact hUnderway.idles.unmanned.running
      have hFewer := Race.eventsLeft_of_step hUnderway.paced hFit.positive hRaised hNobody hRace hOn
      exact .underway
        { idles := hNext.idles hUnmanned hAsked
          races := hNext
          paced := hUnderway.paced.step hRace
          spares := hFollows.spares hRaised hUnderway.idles.unmanned.running hUnderway.spares
          dropped := hDropped fun hOver => absurd hOver hOn
          bounded := by
            have hBounded := hUnderway.bounded
            rw [List.length_append, List.length_singleton]
            omega }
    · cases hNext.phase.symm.trans hLater
    · cases hNext.phase.symm.trans hLater
  · rcases hPhase with ⟨-, hLater⟩ | ⟨-, -, hLater⟩ | ⟨-, hIntact, winner, hLater⟩
    · cases hConcluded.phase.symm.trans hLater
    · cases hConcluded.phase.symm.trans hLater
    · have hKept : after.aborted = false := by
        obtain ⟨_, _, _, -, rfl⟩ := step_eq_some hStep
        exact hClear
      have hIdles := hConcluded.idles hUnmanned hAsked hKept
      have hEnds := hUnderway.races.endsInVain hClear hStep hLater hIdles.silent
      refine .ended hIdles hEnds ((hDropped fun _ => hIntact).imp_left fun hNone => ?_) hLength
      rw [hConcluded.outcomes]
      exact hUnmanned.everybody hConcluded.raced.reached.balanced hConcluded.closed hNone
  · rcases hPhase with ⟨-, hLater⟩ | ⟨hOver, hCrashed, -⟩ | ⟨-, -, winner, hLater⟩
    · cases hCollapsed.phase.symm.trans hLater
    · have hRatio := Race.ratio_of_crashesAt (Race.crashesAt_of_crashed hRace hOver hCrashed).2
      exact .crashed (hCollapsed.idles hUnmanned hAsked)
        ⟨hCollapsed.phase, hFit.pollRatio_eq_zero_iff.mp hRatio, hCollapsed.coordinator⟩ hLength
    · cases hCollapsed.phase.symm.trans hLater

/-- A stopped round begins with a race that has not done anything, or with nobody to
probe. -/
theorem Searches.comes (hSearches : Searches start t) (hAsked : inquiries t.acts = [])
    (hSends : scene.SendsOut launch) (hStep : t.step request (launch, .look scene) = some u) :
    Comes request start launch scene u [] u := by
  have hQuiet : inquiries u.acts = [] := by
    obtain ⟨_, _, _, hRound, rfl⟩ := step_eq_some hStep
    rw [inquiries_append, hAsked, Round.inquiries_of_searches hSearches.phase hRound]
    rfl
  cases hSearches.launched hSends hStep with
  | races _ hRaces =>
      have hUnmanned := PoolLedger.unmanned_start start.settings.poolSize (start.jobsIn scene)
      exact .underway
        { idles := hRaces.idles hUnmanned hQuiet
          races := hRaces
          paced := Race.paced_start _ _ _
          spares := ⟨fun _ => rfl, fun hWound => absurd rfl hWound⟩
          dropped := .inl rfl
          bounded := by
            rw [List.length_nil, Nat.zero_add]
            exact Race.eventsLeft_start _ _ _ }
  | deserted hNobody hConcluded =>
      have hKept : u.aborted = false := by
        obtain ⟨_, _, _, -, rfl⟩ := step_eq_some hStep
        exact hSends.kept
      have hIdles := hConcluded.idles (PoolLedger.unmanned_start _ _) hQuiet hKept
      refine .ended hIdles (hSearches.endsInVain hSends hNobody hStep) (.inl ?_) (Nat.zero_le _)
      rw [hConcluded.outcomes, hNobody]
      exact .refl _

end RoundTrace

namespace Sample

/-- A time in milliseconds at which the stop signal is raised. -/
def stopped (millis : Nat) : Ambient := { moment millis with stop := true }

end Sample

namespace RoundTrace

end RoundTrace

end RelayRace
