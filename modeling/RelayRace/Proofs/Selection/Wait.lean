import RelayRace.Proofs.Selection.RoundTrace

/-!
# When the wait for results ends

A waiting race looks around at every tick: at its signal and its clock each
time, and at what it has received at every `ratio`-th tick.  Outcomes are
received in between, and nothing is decided then; so what a look finds is what
has arrived before it.

A trace of the wait keeps these looks, numbered from zero, with what was true at
each, and what the workers sent.  `Race.Look.EndsWait` says which looks are
reason to stop, and does so without any counter of the race.  No look of a wait
that goes on is one, and of a wait that is over the last one is
(`WaitTrace.Stands`).
-/

namespace RelayRace

/-! ## Looks -/

namespace Race

/-- A look that a waiting race takes at a tick, and what was true then. -/
structure Look where
  now : Instant
  /-- When the tick was due. -/
  due : Instant
  /-- How the selector's signal read. -/
  abort : Bool
  /-- The outcomes that had arrived. -/
  seen : List Outcome

namespace Look

/-- Whether the look of tick `k` is reason to end the wait: the signal is raised,
the deadline has come, or `k` is a positive multiple of the ratio and there is a
responder or an outcome from everyone. -/
def EndsWait (ratio dispatched : Nat) (deadline : Instant) (k : Nat) (look : Look) : Prop :=
  look.abort = true ∨ deadline ≤ look.now ∨
    (0 < k ∧ ratio ∣ k ∧
      ((∃ o ∈ look.seen, o.responded = true) ∨ dispatched ≤ look.seen.length))

/-- Whether the look of tick `k` divides by a ratio of zero: every look but the
first one does, unless it ends the wait before it comes to that. -/
def Crashes (ratio : Nat) (deadline : Instant) (k : Nat) (look : Look) : Prop :=
  ratio = 0 ∧ 0 < k ∧ look.abort = false ∧ look.now < deadline

end Look

variable {ratio : Nat} {race : Race} {amb : Ambient}

theorem isCoarse_iff {ticks : Nat} : isCoarse ratio ticks = true ↔ 0 < ticks ∧ ratio ∣ ticks := by
  simp [isCoarse, Nat.dvd_iff_mod_eq_zero]

theorem isDecided_iff :
    race.isDecided = true ↔
      (∃ o ∈ race.received, o.responded = true) ∨ race.dispatched ≤ race.received.length := by
  simp [isDecided]

/-- A tick ends the wait exactly when its look is reason to. -/
theorem stopsAt_iff {due : Instant} :
    race.stopsAt ratio amb = true ↔
      (Look.mk amb.now due amb.abort race.received).EndsWait ratio race.dispatched race.deadline
        race.ticks := by
  simp only [stopsAt, Look.EndsWait, Bool.or_eq_true, Bool.and_eq_true, decide_eq_true_eq,
    isCoarse_iff, isDecided_iff, or_assoc, and_assoc]

theorem crashesAt_iff {due : Instant} :
    race.crashesAt ratio amb = true ↔
      (Look.mk amb.now due amb.abort race.received).Crashes ratio race.deadline race.ticks := by
  simp [crashesAt, Look.Crashes, and_assoc]

end Race

/-! ## Traces -/

/-- A wait under way, and all that happened in it. -/
structure WaitTrace where
  race : Race
  /-- The looks that it has taken. -/
  looks : List Race.Look := []
  /-- The outcomes that the workers have sent since it began. -/
  sent : List Outcome := []
  /-- The outcomes that the channel has handed over. -/
  arrived : List Outcome := []

namespace WaitTrace

/-- A wait for the outcomes of a pool that begins at the given time. -/
def start (pool : Pool) (dispatched : Nat) (now deadline : Instant) : WaitTrace where
  race := { pool, dispatched, nextTick := now, deadline }

/-- The trace after an event that leaves the race as given. -/
def note (w : WaitTrace) (amb : Ambient) (next : Race) : Race.Event → WaitTrace
  | .pool _ =>
      { w with
        race := next
        sent := w.sent ++ next.pool.channel.drop w.race.pool.channel.length }
  | .receive => { w with race := next, arrived := w.arrived ++ w.race.pool.channel.take 1 }
  | .tick =>
      { w with
        race := next
        looks := w.looks ++ [⟨amb.now, w.race.nextTick, amb.abort, w.arrived⟩] }
  | .settle | .expire => { w with race := next }

/-- One event; none when it cannot happen now, and none when the wait is over. -/
def step (settings : Settings) (ctx : RoundContext) (w : WaitTrace)
    (event : Ambient × Race.Event) : Option WaitTrace :=
  match w.race.phase with
  | .waiting =>
      match w.race.step settings ctx event.1 event.2 with
      | some (next, _) => some (w.note event.1 next event.2)
      | none => none
  | .winding _ | .over => none

/-- The trace after a schedule. -/
def play (settings : Settings) (ctx : RoundContext) (w : WaitTrace)
    (schedule : List (Ambient × Race.Event)) : Option WaitTrace :=
  playSchedule (step settings ctx) w schedule

variable {settings : Settings} {ctx : RoundContext} {pool : Pool} {dispatched : Nat}
  {now deadline : Instant} {w after : WaitTrace}

/-- An event of a wait is an event of a race that waits. -/
theorem step_eq_some {amb : Ambient} {event : Race.Event}
    (hStep : w.step settings ctx (amb, event) = some after) :
    ∃ next acts, w.race.phase = .waiting ∧
      w.race.step settings ctx amb event = some (next, acts) ∧ after = w.note amb next event := by
  unfold step at hStep
  split at hStep
  · rename_i hWaiting
    split at hStep
    · rename_i next acts hRace
      cases hStep
      exact ⟨next, acts, hWaiting, hRace, rfl⟩
    · cases hStep
  · cases hStep
  · cases hStep

/-- A wait that is over takes no further event. -/
theorem step_over (hOver : w.race.isOver = true) (event : Ambient × Race.Event) :
    w.step settings ctx event = none := by
  unfold step
  cases hPhase : w.race.phase with
  | waiting => simp [Race.isOver, hPhase] at hOver
  | _ => rfl

/-! ## The looks so far -/

/-- Looks none of which ends the wait or crashes it. -/
def Passed (ratio dispatched : Nat) (deadline : Instant) (looks : List Race.Look) : Prop :=
  ∀ (k : Nat) (look : Race.Look), looks[k]? = some look →
    ¬ look.EndsWait ratio dispatched deadline k ∧ ¬ look.Crashes ratio deadline k

/-- A look behind others is one of those, or it is the last one. -/
theorem getElem?_look {before : List Race.Look} {last look : Race.Look} {k : Nat}
    (hLook : (before ++ [last])[k]? = some look) :
    before[k]? = some look ∨ k = before.length ∧ look = last := by
  by_cases hEarly : k < before.length
  · rw [List.getElem?_append_left hEarly] at hLook
    exact .inl hLook
  · have hLength := (List.getElem?_eq_some_iff.mp hLook).1
    rw [List.length_append, List.length_singleton] at hLength
    have hLast : k = before.length := by omega
    subst hLast
    rw [List.getElem?_concat_length] at hLook
    exact .inr ⟨rfl, (Option.some.inj hLook).symm⟩

theorem Passed.append {ratio : Nat} {looks : List Race.Look} {last : Race.Look}
    (hPassed : Passed ratio dispatched deadline looks)
    (hOn : ¬ last.EndsWait ratio dispatched deadline looks.length)
    (hSafe : ¬ last.Crashes ratio deadline looks.length) :
    Passed ratio dispatched deadline (looks ++ [last]) := by
  intro k look hLook
  rcases getElem?_look hLook with hEarly | ⟨rfl, rfl⟩
  · exact hPassed k look hEarly
  · exact ⟨hOn, hSafe⟩

/-! ## What a wait can have come to -/

/-- What the race of a wait holds. -/
structure Faithful (pool : Pool) (dispatched : Nat) (deadline : Instant) (w : WaitTrace) :
    Prop where
  received : w.race.received = w.arrived
  /-- What arrived comes before what is still in the channel, in the order of sending. -/
  channel : w.arrived ++ w.race.pool.channel = pool.channel ++ w.sent
  dispatched : w.race.dispatched = dispatched
  deadline : w.race.deadline = deadline
  intact : w.race.crashed = false

/-- What a wait can have come to. -/
inductive Stands (ratio : Nat) (pool : Pool) (dispatched : Nat) (deadline : Instant)
    (w : WaitTrace) : Prop where
  /-- It goes on, and none of its looks was reason to stop. -/
  | waits : w.race.phase = .waiting → w.Faithful pool dispatched deadline →
      w.race.ticks = w.looks.length → Passed ratio dispatched deadline w.looks →
      Stands ratio pool dispatched deadline w
  /-- Its last look was reason to stop, and none before was. -/
  | stopped {before : List Race.Look} {last : Race.Look} {limit : Instant} :
      w.race.phase = .winding limit → w.Faithful pool dispatched deadline →
      w.looks = before ++ [last] → Passed ratio dispatched deadline before →
      last.EndsWait ratio dispatched deadline before.length → last.seen = w.arrived →
      Stands ratio pool dispatched deadline w
  /-- Its last look divided by zero. -/
  | crashed {before : List Race.Look} {last : Race.Look} :
      w.race.phase = .over → w.race.crashed = true → w.looks = before ++ [last] →
      Passed ratio dispatched deadline before → last.Crashes ratio deadline before.length →
      Stands ratio pool dispatched deadline w

theorem stands_start (ratio : Nat) :
    Stands ratio pool dispatched deadline (start pool dispatched now deadline) :=
  .waits rfl ⟨rfl, (List.append_nil _).symm, rfl, rfl, rfl⟩ rfl fun _ _ hLook => by cases hLook

/-- The pool sends behind what was sent before. -/
theorem channel_of_task {m : Moment} {event : PoolEvent} {before next : Pool} {acts : List Act}
    (hStep : before.step ctx m event = some (next, acts)) :
    next.channel = before.channel ++ next.channel.drop before.channel.length := by
  cases Pool.step_change hStep with
  | retired | began | advanced => simp
  | skipped | finished => simp

/-- An event of a wait that goes on leaves it going on, ends it or crashes it. -/
theorem Stands.step {event : Ambient × Race.Event}
    (hStands : Stands settings.pollRatio pool dispatched deadline w)
    (hStep : w.step settings ctx event = some after) :
    Stands settings.pollRatio pool dispatched deadline after := by
  obtain ⟨amb, event⟩ := event
  obtain ⟨next, acts, hWaiting, hRace, rfl⟩ := step_eq_some hStep
  cases hStands with
  | stopped hPhase => cases hWaiting.symm.trans hPhase
  | crashed hPhase => cases hWaiting.symm.trans hPhase
  | waits _ hFaithful hTicks hPassed =>
      obtain ⟨hReceived, hChannel, rfl, rfl, hIntact⟩ := hFaithful
      -- The look of a tick, as the race sees it and as the trace keeps it.
      have hLook : (⟨amb.now, w.race.nextTick, amb.abort, w.race.received⟩ : Race.Look) =
          ⟨amb.now, w.race.nextTick, amb.abort, w.arrived⟩ := by rw [hReceived]
      cases Race.stepsTo_of_step hRace with
      | @pool _ task _ _ hTask =>
          refine .waits hWaiting ⟨hReceived, ?_, rfl, rfl, hIntact⟩ hTicks hPassed
          show w.arrived ++ task.channel =
            pool.channel ++ (w.sent ++ task.channel.drop w.race.pool.channel.length)
          rw [← List.append_assoc, ← hChannel, List.append_assoc]
          exact congrArg (w.arrived ++ ·) (channel_of_task hTask)
      | @receive outcome rest _ hSent =>
          have hTaken : w.race.pool.channel = outcome :: rest.channel := by
            unfold Pool.receive at hSent
            split at hSent
            · cases hSent
            · rename_i hCons
              cases hSent
              exact hCons
          refine .waits hWaiting ⟨?_, ?_, rfl, rfl, hIntact⟩ hTicks hPassed
          · show w.race.received ++ [outcome] = w.arrived ++ w.race.pool.channel.take 1
            rw [hTaken, hReceived]
            rfl
          · show w.arrived ++ w.race.pool.channel.take 1 ++ rest.channel = _
            rw [hTaken] at hChannel ⊢
            rw [List.append_assoc]
            exact hChannel
      | winds _ hStops =>
          rw [Race.stopsAt_iff, hLook, hTicks] at hStops
          exact .stopped rfl ⟨hReceived, hChannel, rfl, rfl, hIntact⟩ rfl hPassed hStops rfl
      | waits _ hGoes hSafe =>
          rw [← Bool.not_eq_true, Race.stopsAt_iff, hLook, hTicks] at hGoes
          rw [← Bool.not_eq_true, Race.crashesAt_iff, hLook, hTicks] at hSafe
          refine .waits hWaiting ⟨hReceived, hChannel, rfl, rfl, hIntact⟩ ?_ (hPassed.append hGoes hSafe)
          show w.race.ticks + 1 = (w.looks ++ [_]).length
          rw [hTicks, List.length_append, List.length_singleton]
      | crashes _ hCrashes =>
          rw [Race.crashesAt_iff, hLook, hTicks] at hCrashes
          exact .crashed rfl rfl rfl hPassed hCrashes
      | settles => simp [Race.step, Race.settle, hWaiting] at hRace
      | expires hWinding => cases hWaiting.symm.trans hWinding

theorem stands_play {schedule : List (Ambient × Race.Event)}
    (hPlay : (start pool dispatched now deadline).play settings ctx schedule = some w) :
    Stands settings.pollRatio pool dispatched deadline w :=
  playSchedule_keeps schedule (fun _ _ _ _ hBefore hStep => hBefore.step hStep)
    (stands_start settings.pollRatio) hPlay

/-! ## The end of the wait -/

/-- What holds of a wait at any time, told by its looks. -/
structure EndsInTime (settings : Settings) (ctx : RoundContext) (pool : Pool) (dispatched : Nat)
    (deadline : Instant) (w : WaitTrace) : Prop where
  /-- The wait is over exactly when one of its looks was reason to end it. -/
  over_iff : w.race.isOver = true ↔
    ∃ (k : Nat) (look : Race.Look), w.looks[k]? = some look ∧
      look.EndsWait settings.pollRatio dispatched deadline k
  /-- No such look is passed: it is the last one. -/
  last : ∀ (k : Nat) (look : Race.Look), w.looks[k]? = some look →
    look.EndsWait settings.pollRatio dispatched deadline k → w.looks.length = k + 1
  /-- Every outcome that has arrived is kept once, in the order of arrival. -/
  received : w.race.received = w.arrived
  /-- Outcomes arrive in the order in which they were sent, and none is skipped. -/
  order : w.arrived ++ w.race.pool.channel = pool.channel ++ w.sent
  /-- The look that ended the wait saw all that had arrived. -/
  seen : w.race.isOver = true → ∀ look, w.looks.getLast? = some look → look.seen = w.arrived
  /-- A wait that goes on takes a look at every tick that is due, whatever has become of its pool. -/
  looks : w.race.isOver = false → ∀ amb : Ambient, w.race.nextTick ≤ amb.now →
    ∃ after, w.step settings ctx (amb, .tick) = some after ∧
      after.looks = w.looks ++ [⟨amb.now, w.race.nextTick, amb.abort, w.arrived⟩]
  /-- A wait that is over takes no look and receives nothing. -/
  still : w.race.isOver = true → ∀ event, w.step settings ctx event = none

/-- A tick that is due is taken as long as the wait goes on. -/
theorem exists_look (hOn : w.race.isOver = false) {amb : Ambient}
    (hDue : w.race.nextTick ≤ amb.now) :
    ∃ after, w.step settings ctx (amb, .tick) = some after ∧
      after.looks = w.looks ++ [⟨amb.now, w.race.nextTick, amb.abort, w.arrived⟩] := by
  have hWaiting : w.race.phase = .waiting := by simpa [Race.isOver] using hOn
  have hNotEarly : ¬ amb.now < w.race.nextTick := Nat.not_lt.mpr hDue
  have hTick : ∃ next, w.race.step settings ctx amb .tick = some next := by
    simp only [Race.step, Race.tick, hWaiting, hNotEarly, if_false]
    split
    · exact ⟨_, rfl⟩
    · split <;> exact ⟨_, rfl⟩
  obtain ⟨next, hRace⟩ := hTick
  refine ⟨w.note amb next.1 .tick, ?_, rfl⟩
  simp only [step, hWaiting, hRace]

/-- For whatever pool and number of dispatched probes, and in every schedule of
outcomes, ticks and signals: the wait ends at the first tick whose look is reason
to end it, and at no other.  The ratio has to be at least one; with a ratio of
zero the wait ends by a crash. -/
theorem ends_at_first_reason {schedule : List (Ambient × Race.Event)}
    (hRatio : 1 ≤ settings.pollRatio)
    (hPlay : (start pool dispatched now deadline).play settings ctx schedule = some w) :
    w.EndsInTime settings ctx pool dispatched deadline := by
  cases stands_play hPlay with
  | waits hWaiting hFaithful _ hPassed =>
      have hOn : w.race.isOver = false := by simp [Race.isOver, hWaiting]
      have hNone : ∀ (k : Nat) (look : Race.Look), w.looks[k]? = some look →
          ¬ look.EndsWait settings.pollRatio dispatched deadline k :=
        fun k look hLook => (hPassed k look hLook).1
      exact
        { over_iff := by
            rw [hOn]
            constructor
            · intro hOver
              cases hOver
            · rintro ⟨k, look, hLook, hEnds⟩
              exact absurd hEnds (hNone k look hLook)
          last := fun k look hLook hEnds => absurd hEnds (hNone k look hLook)
          received := hFaithful.received
          order := hFaithful.channel
          seen := fun hOver => by cases hOn.symm.trans hOver
          looks := fun _ _ hDue => exists_look hOn hDue
          still := fun hOver => by cases hOn.symm.trans hOver }
  | @stopped before last limit hWinding hFaithful hLooks hPassed hEnds hSeen =>
      have hOver : w.race.isOver = true := by simp [Race.isOver, hWinding]
      exact
        { over_iff := by
            refine ⟨fun _ => ⟨before.length, last, ?_, hEnds⟩, fun _ => hOver⟩
            rw [hLooks, List.getElem?_concat_length]
          last := by
            intro k look hLook hReason
            rw [hLooks] at hLook ⊢
            rcases getElem?_look hLook with hEarly | ⟨rfl, -⟩
            · exact absurd hReason (hPassed k look hEarly).1
            · rw [List.length_append, List.length_singleton]
          received := hFaithful.received
          order := hFaithful.channel
          seen := by
            intro _ look hLast
            rw [hLooks, List.getLast?_concat] at hLast
            cases hLast
            exact hSeen
          looks := fun hOn => by cases hOn.symm.trans hOver
          still := fun _ event => step_over hOver event }
  | crashed _ _ _ _ hCrashes => exact absurd hCrashes.1 (by omega)

end WaitTrace

namespace Sample

/-- What happens in a race that waits. -/
def waiting (events : List (Nat × Race.Event)) : List (Ambient × Race.Event) :=
  events.map fun event => (moment event.1, event.2)

/-- The tasks find no further job while the race waits. -/
def exhausts : List (Nat × Race.Event) := [(46, .pool .take), (46, .pool .take)]

/-- A wait for the outcomes of both relays. -/
def wait : WaitTrace :=
  WaitTrace.start (Pool.start 10 (coordinator.jobsIn {})) 2 0 (Duration.ofSeconds 20).nanos

end Sample

namespace WaitTrace

/-- Both probes have ended before the first tick, one of them with a response, and
no further outcome can come.  The wait goes on all the same until the third tick,
the first one that looks at the outcomes. -/
theorem waits_for_third_tick :
    ∃ w look,
      Sample.wait.play {} (Round.contextOf Sample.coordinator {} {})
          (Sample.waiting (Sample.probing ++ Sample.coveredResponds ++ Sample.plainCrashes ++
            Sample.exhausts ++ Sample.waits)) = some w ∧
        w.looks.length = 3 ∧ w.looks[2]? = some look ∧
        look.EndsWait 2 2 (Duration.ofSeconds 20).nanos 2 ∧ w.race.isOver = true ∧
        w.race.pool.isExhausted = true ∧ w.race.received.map Outcome.index = [1, 0] ∧
        w.race.received = w.sent := by
  have hRun : (Sample.wait.play {} (Round.contextOf Sample.coordinator {} {})
      (Sample.waiting (Sample.probing ++ Sample.coveredResponds ++ Sample.plainCrashes ++
        Sample.exhausts ++ Sample.waits))).map
          (fun w => (w.looks.length, w.race.isOver, w.race.pool.isExhausted,
            w.race.pool.channel.length, w.race.received.map Outcome.index)) =
      some (3, true, true, 0, [1, 0]) := by decide +kernel
  obtain ⟨w, hPlay, hFacts⟩ := Option.map_eq_some_iff.mp hRun
  simp only [Prod.mk.injEq, List.length_eq_zero_iff] at hFacts
  obtain ⟨hLooks, hOver, hExhausted, hChannel, hReceived⟩ := hFacts
  have hEnds := ends_at_first_reason (by decide) hPlay
  obtain ⟨k, look, hLook, hReason⟩ := hEnds.over_iff.mp hOver
  have hLast := hEnds.last k look hLook hReason
  have hThird : k = 2 := by omega
  subst hThird
  have hSent : w.race.received = w.sent := by
    have hOrder := hEnds.order
    rw [hChannel, List.append_nil] at hOrder
    rw [hEnds.received, hOrder]
    rfl
  exact ⟨w, look, hPlay, hLooks, hLook, hReason, hOver, hExhausted, hReceived, hSent⟩

end WaitTrace

end RelayRace
