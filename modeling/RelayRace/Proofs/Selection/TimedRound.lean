import RelayRace.Proofs.Selection.Dispatch

/-!
# Rounds in virtual time

In virtual time no timer fires late: the clock goes on to the next time at which
one is due, and no further before that one was served.  So a timed round takes an
event at a time that has not passed, and only while no armed timer is overdue;
everything else about it is the round's own step.  It keeps the ledger of its race,
and when each outcome was sent.

While a race is on time, no worker is further than one poll interval from its next
look.  Once the race winds up nobody is armed again, so whatever the grace period
is longer than that interval is left after the last look of them all
(`Race.OnTime`).
-/

namespace RelayRace

/-! ## Timers -/

/-- The timers of a race: the next look of each worker, and its own. -/
def Race.timers (race : Race) : List Instant :=
  race.pool.running.map Attempt.due ++
    match race.phase with
    | .waiting => [race.nextTick]
    | .winding limit => [limit]
    | .over => []

/-- The timers of a round. -/
def Round.timers (round : Round) : List Instant :=
  match round.phase with
  | .racing _ race => race.timers
  | .sleeping sleep => [sleep.wake]
  | .asking | .ended _ | .crashed => []

namespace Race

variable {settings : Settings} {ctx : RoundContext} {amb : Ambient} {race next : Race}
  {acts : List Act} {now : Instant} {event : Event}

/-- What holds at any time of a race in which no timer fires late. -/
structure OnTime (settings : Settings) (now : Instant) (race : Race) : Prop where
  /-- The next look of a worker is at most one poll interval ahead. -/
  due : ∀ a ∈ race.pool.running, now ≤ a.due ∧ a.due ≤ now + settings.connectPoll.nanos
  /-- Of a race that winds up, the last looks come a poll interval after it began to. -/
  winding : ∀ limit, race.phase = .winding limit → ∀ a ∈ race.pool.running,
    a.due + settings.grace.nanos ≤ limit + settings.connectPoll.nanos

theorem due_mem_timers {a : Attempt} (hMem : a ∈ race.pool.running) : a.due ∈ race.timers :=
  List.mem_append_left _ (List.mem_map_of_mem hMem)

/-- Later, as long as no timer is overdue, a worker that is still at work is still on
time. -/
theorem OnTime.later (hOnTime : race.OnTime settings now) (hNow : now ≤ amb.now)
    (hTimers : ∀ timer ∈ race.timers, amb.now ≤ timer) {a : Attempt}
    (hMem : a ∈ race.pool.running) :
    amb.now ≤ a.due ∧ a.due ≤ amb.now + settings.connectPoll.nanos := by
  obtain ⟨-, hSoon⟩ := hOnTime.due a hMem
  exact ⟨hTimers _ (due_mem_timers hMem),
    Nat.le_trans hSoon (Nat.add_le_add_right hNow _)⟩

theorem OnTime.step (hOnTime : race.OnTime settings now) (hPoll : ctx.poll = settings.connectPoll)
    (hNow : now ≤ amb.now) (hTimers : ∀ timer ∈ race.timers, amb.now ≤ timer)
    (hStep : race.step settings ctx amb event = some (next, acts)) (hUnder : next.phase ≠ .over) :
    next.OnTime settings amb.now := by
  have hLater : ∀ a ∈ race.pool.running,
      amb.now ≤ a.due ∧ a.due ≤ amb.now + settings.connectPoll.nanos :=
    fun a hMem => hOnTime.later hNow hTimers hMem
  cases stepsTo_of_step hStep with
  | @pool _ pool _ _ hTask =>
      have hPrompt := Pool.prompt_step hTask
      refine ⟨fun b hMem => ?_, fun limit hWinding b hMem => ?_⟩
      · rcases hPrompt.running b hMem with hOld | ⟨-, hDue⟩
        · exact hLater b hOld
        · rw [hDue, hPoll]
          exact ⟨Nat.le_add_right _ _, Nat.le_refl _⟩
      · have hWindingUp : race.phase = .winding limit := hWinding
        have hRaised : (race.moment amb).aborted = true := by
          simp [moment, isOver, hWindingUp]
        exact hOnTime.winding limit hWindingUp b (hPrompt.running_subset hRaised b hMem)
  | receive _ hSent =>
      unfold Pool.receive at hSent
      split at hSent
      · cases hSent
      · cases hSent
        exact ⟨hLater, hOnTime.winding⟩
  | winds =>
      refine ⟨hLater, fun limit hWinding a hMem => ?_⟩
      cases hWinding
      have hSoon := (hLater a hMem).2
      show a.due + _ ≤ amb.now + settings.grace.nanos + _
      rw [Nat.add_right_comm]
      exact Nat.add_le_add_right hSoon _
  | waits hWaiting =>
      refine ⟨hLater, fun limit hWinding => ?_⟩
      cases hWaiting.symm.trans hWinding
  | crashes => exact absurd rfl hUnder
  | settles => exact absurd rfl hUnder
  | expires => exact absurd rfl hUnder

/-- The grace period finds someone at work only if it is no longer than a poll
interval. -/
theorem OnTime.grace_le (hOnTime : race.OnTime settings now)
    (hTimers : ∀ timer ∈ race.timers, amb.now ≤ timer) {limit : Instant}
    (hWinding : race.phase = .winding limit) (hLimit : limit ≤ amb.now) {a : Attempt}
    (hMem : a ∈ race.pool.running) : settings.grace.nanos ≤ settings.connectPoll.nanos := by
  have hLast := hOnTime.winding limit hWinding a hMem
  have hDue : limit ≤ a.due := Nat.le_trans hLimit (hTimers _ (due_mem_timers hMem))
  refine Nat.le_of_add_le_add_left (Nat.le_trans ?_ hLast)
  exact Nat.add_le_add_right hDue _

end Race

/-! ## The race in a round -/

/-- What an event of its race does to a round. -/
theorem RoundTrace.Races.race_step {request : SelectionRequest} {start : Coordinator}
    {t after : RoundTrace} {scene : Scene} {race : Race} {l : PoolLedger} {amb : Ambient}
    {event : Race.Event} (hRaces : RoundTrace.Races request start t scene race l)
    (hStep : t.step request (amb, .race event) = some after) :
    ∃ next acts,
      race.step start.settings (Round.contextOf start request scene) amb event =
          some (next, acts) ∧
        (next.phase ≠ .over ∧
            after.round.phase = .racing (Round.contextOf start request scene) next ∨
          next.phase = .over ∧ next.crashed = true ∧ after.round.phase = .crashed ∨
          next.phase = .over ∧ next.crashed = false ∧
            ∃ winner, after.round.phase = .ended winner) := by
  obtain ⟨coordinator, round, acts, hRound, rfl⟩ := RoundTrace.step_eq_some hStep
  have hSettings : t.coordinator.settings = start.settings := by
    rw [hRaces.coordinator]
    rfl
  cases Round.stepsTo_of_step hRound with
  | gaveUp hSearches | searched hSearches =>
      rcases hSearches with hPhase | ⟨sleep, hPhase⟩ <;> cases hPhase.symm.trans hRaces.phase
  | raced hRacing hRace hOn hLater =>
      cases hRacing.symm.trans hRaces.phase
      rw [hSettings] at hRace
      exact ⟨_, _, hRace, .inl ⟨hOn, hLater⟩⟩
  | collapsed hRacing hRace hOver hCrashed hLater =>
      cases hRacing.symm.trans hRaces.phase
      rw [hSettings] at hRace
      exact ⟨_, _, hRace, .inr (.inl ⟨hOver, hCrashed, hLater⟩)⟩
  | concluded hRacing hRace hOver hCrashed =>
      cases hRacing.symm.trans hRaces.phase
      rw [hSettings] at hRace
      exact ⟨_, _, hRace, .inr (.inr ⟨hOver, hCrashed, _, rfl⟩)⟩

/-! ## Timed rounds -/

/-- A round in virtual time. -/
structure TimedRound where
  trace : RoundTrace
  /-- When something last happened. -/
  now : Instant
  /-- The ledger of its race. -/
  ledger : PoolLedger := { pool := {} }
  /-- The outcomes that its workers have sent, and when. -/
  deliveries : List (Instant × Outcome) := []

namespace TimedRound

/-- A round that begins at the given time. -/
def start (c : Coordinator) (now : Instant) : TimedRound := { trace := .start c, now }

/-- The ledger after an event: a race that begins has an empty one, and one that goes
on is followed. -/
def ledgerAfter (t : TimedRound) (amb : Ambient) (event : RoundEvent) (after : RoundTrace) :
    PoolLedger :=
  match t.trace.round.phase, event with
  | .racing ctx race, .race event =>
      t.ledger.follow t.trace.coordinator.settings ctx race amb event
  | _, _ =>
      match after.round.phase with
      | .racing _ race => { pool := race.pool }
      | .asking | .sleeping _ | .ended _ | .crashed => t.ledger

/-- One event; none when it cannot happen now, or when a timer would be late. -/
def step (request : SelectionRequest) (t : TimedRound) (event : Ambient × RoundEvent) :
    Option TimedRound :=
  if t.now ≤ event.1.now ∧ ∀ timer ∈ t.trace.round.timers, event.1.now ≤ timer then
    match t.trace.step request event with
    | some trace =>
        let ledger := t.ledgerAfter event.1 event.2 trace
        some
          { trace
            now := event.1.now
            ledger
            deliveries := t.deliveries ++
              (ledger.sent.drop t.ledger.sent.length).map (event.1.now, ·) }
    | none => none
  else none

/-- The round after a schedule. -/
def play (request : SelectionRequest) (t : TimedRound) (schedule : List (Ambient × RoundEvent)) :
    Option TimedRound :=
  playSchedule (step request) t schedule

variable {request : SelectionRequest} {start : Coordinator} {t after : TimedRound}

/-- What an accepted event does to a timed round. -/
structure Steps (request : SelectionRequest) (t : TimedRound) (amb : Ambient) (event : RoundEvent)
    (after : TimedRound) : Prop where
  ahead : t.now ≤ amb.now
  timers : ∀ timer ∈ t.trace.round.timers, amb.now ≤ timer
  trace : t.trace.step request (amb, event) = some after.trace
  now : after.now = amb.now
  ledger : after.ledger = t.ledgerAfter amb event after.trace
  deliveries : after.deliveries = t.deliveries ++
    (after.ledger.sent.drop t.ledger.sent.length).map (amb.now, ·)

theorem steps_of_step {amb : Ambient} {event : RoundEvent}
    (hStep : t.step request (amb, event) = some after) : Steps request t amb event after := by
  unfold step at hStep
  split at hStep
  · rename_i hTime
    split at hStep
    · rename_i trace hTrace
      cases hStep
      exact ⟨hTime.1, hTime.2, hTrace, rfl, rfl, rfl⟩
    · cases hStep
  · cases hStep

/-- A timed round whose probes are out. -/
structure Runs (request : SelectionRequest) (start : Coordinator) (t : TimedRound) (scene : Scene)
    (race : Race) : Prop where
  races : RoundTrace.Races request start t.trace scene race t.ledger
  onTime : race.OnTime start.settings t.now
  /-- Nobody is ended by force as long as the race goes on. -/
  spared : t.ledger.killed = []

/-- A timed round that has concluded. -/
structure Concludes (request : SelectionRequest) (start : Coordinator) (t : TimedRound)
    (scene : Scene) : Prop where
  concluded : RoundTrace.Concluded request start t.trace scene t.ledger
  /-- Workers are ended by force only if the grace period is too short. -/
  spared : start.settings.connectPoll.nanos < start.settings.grace.nanos → t.ledger.killed = []

/-- What a timed round can have come to. -/
inductive Stands (request : SelectionRequest) (start : Coordinator) (t : TimedRound) : Prop where
  /-- It has not sent out any probe, and perhaps never will. -/
  | idle : t.ledger = { pool := {} } → t.trace.outcomes = [] →
      (RoundTrace.Searches start t.trace ∨ t.trace.round.phase = .ended none ∨
        t.trace.round.phase = .crashed) → Stands request start t
  | runs {scene : Scene} {race : Race} :
      Runs request start t scene race → Stands request start t
  | concludes {scene : Scene} : Concludes request start t scene → Stands request start t
  /-- Its race crashed, which takes ticks that are counted out by zero. -/
  | collapsed {scene : Scene} : start.settings.pollRatio = 0 →
      RoundTrace.Collapsed request start t.trace scene t.ledger → Stands request start t

theorem stands_start (now : Instant) : Stands request start (TimedRound.start start now) :=
  .idle rfl rfl (.inl ⟨.inl rfl, rfl, RoundTrace.idle_nil, rfl⟩)

theorem Runs.ledgerAfter_eq {scene : Scene} {race : Race} {amb : Ambient} {event : Race.Event}
    (hRuns : Runs request start t scene race) (trace : RoundTrace) :
    t.ledgerAfter amb (.race event) trace =
      t.ledger.follow start.settings (Round.contextOf start request scene) race amb event := by
  have hSettings : t.trace.coordinator.settings = start.settings := by
    rw [hRuns.races.coordinator]
    rfl
  simp only [ledgerAfter, hRuns.races.phase, hSettings]

/-- The timers of a round whose probes are out are those of its race. -/
theorem Runs.timers_eq {scene : Scene} {race : Race} (hRuns : Runs request start t scene race) :
    t.trace.round.timers = race.timers := by
  simp only [Round.timers, hRuns.races.phase]

/-- An event of a race on time leaves it on time, concludes the round or crashes it. -/
theorem Runs.step {scene : Scene} {race : Race} {amb : Ambient} {event : RoundEvent}
    (hRuns : Runs request start t scene race) (hSteps : Steps request t amb event after) :
    (∃ next, Runs request start after scene next) ∨ Concludes request start after scene ∨
      start.settings.pollRatio = 0 ∧
        RoundTrace.Collapsed request start after.trace scene after.ledger := by
  obtain ⟨raceEvent, rfl⟩ := hRuns.races.event_eq hSteps.trace
  obtain ⟨next, acts, hRace, hNext⟩ := hRuns.races.race_step hSteps.trace
  have hFollows := hRuns.races.tracks.follows hRace
  have hAfter := (hRuns.races.follow hSteps.trace).2
  rw [← hRuns.ledgerAfter_eq after.trace, ← hSteps.ledger] at hFollows hAfter
  have hTimers := hSteps.timers
  rw [hRuns.timers_eq] at hTimers
  rcases hNext with ⟨hOn, hRacing⟩ | ⟨hOver, hCrashed, hPhase⟩ | ⟨hOver, hIntact, winner, hEnded⟩
  · obtain ⟨other, hRaces⟩ | hConcluded | hCollapsed := hAfter
    · cases hRaces.phase.symm.trans hRacing
      refine .inl ⟨next, hRaces, ?_, ?_⟩
      · rw [hSteps.now]
        exact hRuns.onTime.step rfl hSteps.ahead hTimers hRace hOn
      · generalize after.ledger = ledger at hFollows
        cases hFollows with
        | task | receives | winds | waits => exact hRuns.spared
        | crashes | settles | expires => exact absurd rfl hOn
    · cases hConcluded.phase.symm.trans hRacing
    · cases hCollapsed.phase.symm.trans hRacing
  · have hCrashes := (Race.crashesAt_of_crashed hRace hOver hCrashed).2
    obtain ⟨other, hRaces⟩ | hConcluded | hCollapsed := hAfter
    · cases hRaces.phase.symm.trans hPhase
    · cases hConcluded.phase.symm.trans hPhase
    · exact .inr (.inr ⟨Race.ratio_of_crashesAt hCrashes, hCollapsed⟩)
  · obtain ⟨other, hRaces⟩ | hConcluded | hCollapsed := hAfter
    · cases hRaces.phase.symm.trans hEnded
    · refine .inr (.inl ⟨hConcluded, fun hShort => ?_⟩)
      have hPool := hRuns.races.tracks.pool
      generalize after.ledger = ledger at hFollows
      cases hFollows with
      | task hUnder | receives hUnder => exact absurd hOver hUnder
      | winds => cases hOver
      | waits hWaiting => cases hWaiting.symm.trans hOver
      | crashes => cases hIntact
      | settles hExhausted =>
          simp only [Pool.isExhausted, Bool.and_eq_true, List.isEmpty_iff] at hExhausted
          rw [PoolLedger.close, hRuns.spared, hExhausted.1.2]
          rfl
      | expires hWinding hLimit =>
          have hNobody : t.ledger.pool.running = [] := by
            refine List.eq_nil_iff_forall_not_mem.mpr fun a hMem => ?_
            rw [hPool] at hMem
            have hGrace := hRuns.onTime.grace_le hTimers hWinding hLimit hMem
            omega
          rw [PoolLedger.close, hRuns.spared, hNobody]
          rfl
    · cases hCollapsed.phase.symm.trans hEnded

/-- A round that searches has no race to follow. -/
theorem ledgerAfter_of_searches {amb : Ambient} {event : RoundEvent} {trace : RoundTrace}
    (hSearches : t.trace.round.Searches) :
    t.ledgerAfter amb event trace =
      match trace.round.phase with
      | .racing _ race => { pool := race.pool }
      | .asking | .sleeping _ | .ended _ | .crashed => t.ledger := by
  rcases hSearches with hPhase | ⟨sleep, hPhase⟩ <;> simp only [ledgerAfter, hPhase]

theorem collected_of_searches {c : Coordinator} {amb : Ambient} {round : Round} {event : RoundEvent}
    (hSearches : round.Searches) : round.collected c amb event = [] := by
  cases event with
  | look _ | wake => rfl
  | race event => rcases hSearches with hPhase | ⟨sleep, hPhase⟩ <;> simp [Round.collected, hPhase]

/-- Without anybody to probe the ledger stays empty. -/
theorem ledger_start_nil (size : Nat) : PoolLedger.start size [] = { pool := {} } := by
  simp [PoolLedger.start, Pool.start, Pool.taskCount]

/-- A round that searches goes on, is over, or begins its race on time. -/
theorem stands_of_searches {amb : Ambient} {event : RoundEvent} (hLedger : t.ledger = { pool := {} })
    (hSearches : RoundTrace.Searches start t.trace) (hSteps : Steps request t amb event after) :
    Stands request start after := by
  have hAfter := hSteps.ledger
  rw [ledgerAfter_of_searches hSearches.phase] at hAfter
  have hOutcomes : after.trace.outcomes = [] := by
    obtain ⟨_, _, _, -, hTrace⟩ := RoundTrace.step_eq_some hSteps.trace
    rw [hTrace]
    exact collected_of_searches hSearches.phase
  rcases hSearches.step_or_launched hSteps.trace with
    hStill | hNone | hCrashed | ⟨_, scene, hEvent, hSends, hLaunched⟩
  · refine .idle ?_ hOutcomes (.inl hStill)
    rcases hStill.phase with hPhase | ⟨sleep, hPhase⟩ <;> rw [hAfter, hPhase, hLedger]
  · exact .idle (by rw [hAfter, hNone, hLedger]) hOutcomes (.inr (.inl hNone))
  · exact .idle (by rw [hAfter, hCrashed, hLedger]) hOutcomes (.inr (.inr hCrashed))
  · cases hLaunched with
    | races _ hRaces =>
        have hBegun : after.ledger = PoolLedger.start start.settings.poolSize (start.jobsIn scene) := by
          rw [hAfter, hRaces.phase]
          rfl
        rw [← hBegun] at hRaces
        refine .runs ⟨hRaces, ?_, by rw [hBegun]; rfl⟩
        exact ⟨fun a hMem => (by cases hMem), fun limit hWinding => (by cases hWinding)⟩
    | deserted _ hConcluded =>
        have hEmpty : after.ledger = PoolLedger.start start.settings.poolSize [] := by
          rw [hAfter, hConcluded.phase, hLedger, ledger_start_nil]
        rw [← hEmpty] at hConcluded
        exact .concludes ⟨hConcluded, fun _ => by rw [hEmpty]; rfl⟩

theorem Stands.step {event : Ambient × RoundEvent} (hStands : Stands request start t)
    (hStep : t.step request event = some after) : Stands request start after := by
  obtain ⟨amb, event⟩ := event
  have hSteps := steps_of_step hStep
  cases hStands with
  | idle hLedger _ hPhase =>
      rcases hPhase with hSearches | hNone | hCrashed
      · exact stands_of_searches hLedger hSearches hSteps
      · cases (RoundTrace.step_ended hNone _).symm.trans hSteps.trace
      · cases (RoundTrace.step_crashed hCrashed _).symm.trans hSteps.trace
  | runs hRuns =>
      obtain ⟨next, hNext⟩ | hConcludes | ⟨hRatio, hCollapsed⟩ := hRuns.step hSteps
      · exact .runs hNext
      · exact .concludes hConcludes
      · exact .collapsed hRatio hCollapsed
  | concludes hConcludes =>
      cases (RoundTrace.step_ended hConcludes.concluded.phase _).symm.trans hSteps.trace
  | collapsed _ hCollapsed =>
      cases (RoundTrace.step_crashed hCollapsed.phase _).symm.trans hSteps.trace

theorem stands_play {schedule : List (Ambient × RoundEvent)} {now : Instant}
    (hPlay : (TimedRound.start start now).play request schedule = some t) :
    Stands request start t :=
  playSchedule_keeps schedule (fun _ _ _ _ hBefore hStep => hBefore.step hStep)
    (stands_start now) hPlay

end TimedRound

end RelayRace
