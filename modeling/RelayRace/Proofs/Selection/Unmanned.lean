import RelayRace.Proofs.Selection.Accounting
import RelayRace.Proofs.Selection.Heeding
import RelayRace.Proofs.Selection.Wait
import RelayRace.Proofs.Selection.Winding

/-!
# A race whose signal is raised from the start

While the signal of the workers is raised, a task that takes a job enters no stage of
its probe: it has the outcome at once, and nobody responds.  So a pool at which nobody
works when the signal is raised stays like that (`Pool.Skips`), whatever its tasks do
and in whatever order, and its ledger knows of no worker that was ended by force
(`PoolLedger.Unmanned`).

Nothing keeps such a race busy but its queue, its channel and its ticks, and there is
an end to each of them.  `Race.eventsLeft` counts the events that are left, and every
event takes one off.
-/

namespace RelayRace

/-! ## The pool -/

/-- Under a raised signal a job has its outcome at once, and nobody responds. -/
theorem Worker.start_raised {ctx : RoundContext} {m : Moment} (hRaised : m.aborted = true)
    (told : Bool) (job : Job) :
    ∃ o after acts, start ctx m told job = ⟨.ended o, after, acts⟩ ∧ o.responded = false := by
  have hTurn : Turn.Prompt ctx m none (start ctx m told job) := prompt_start job
  generalize start ctx m told job = turn at hTurn
  obtain ⟨standing, after, acts⟩ := turn
  cases standing with
  | running a =>
      rcases hTurn.running a rfl with hNone | ⟨hLowered, -⟩
      · cases hNone
      · cases hLowered.symm.trans hRaised
  | ended o =>
      refine ⟨o, after, acts, rfl, ?_⟩
      by_contra hResponded
      obtain ⟨a, hNone, -⟩ := hTurn.responds o rfl (by simpa using hResponded)
      cases hNone

namespace Pool

variable {ctx : RoundContext} {m : Moment} {pool after : Pool} {acts : List Act}

/-- What an event makes of a pool whose signal is raised when nobody is at work. -/
inductive Skips (pool : Pool) : Pool → Prop where
  /-- A task finds no job and ends. -/
  | retired : pool.free ≠ 0 → pool.queue = [] → Skips pool { pool with free := pool.free - 1 }
  /-- A task has the outcome of the first job at once, and looks for the next one. -/
  | skipped {job : Job} {rest : List Job} {o : Outcome} {told : Bool} :
      pool.queue = job :: rest → o.responded = false →
      Skips pool { pool with queue := rest, channel := pool.channel ++ [o], told }

theorem skips_of_step {event : PoolEvent} (hStep : pool.step ctx m event = some (after, acts))
    (hRaised : m.aborted = true) (hNobody : pool.running = []) : pool.Skips after := by
  obtain hTake | ⟨index, a, turn, hFind, -⟩ := step_turn hStep
  · unfold take at hTake
    split at hTake
    · cases hTake
    · rename_i hFree
      split at hTake
      · rename_i hQueue
        cases hTake
        exact .retired hFree hQueue
      · rename_i job rest hQueue
        obtain ⟨o, told, more, hStart, hSilent⟩ :=
          @Worker.start_raised ctx m hRaised pool.told job
        simp only [hStart] at hTake
        cases hTake
        exact .skipped hQueue hSilent
  · have hMem := mem_of_worker? hFind
    rw [hNobody] at hMem
    cases hMem

/-- An outcome that is received is the first one in the channel. -/
theorem channel_of_receive {outcome : Outcome} (hReceive : pool.receive = some (outcome, after)) :
    pool.channel = outcome :: after.channel ∧ after = { pool with channel := after.channel } := by
  unfold receive at hReceive
  split at hReceive
  · cases hReceive
  · rename_i hChannel
    cases hReceive
    exact ⟨hChannel, rfl⟩

end Pool

/-! ## Its ledger -/

namespace PoolLedger

variable {settings : Settings} {ctx : RoundContext} {amb : Ambient} {race next : Race}
  {event : Race.Event} {acts : List Act} {size : Nat} {jobs : List Job} {l after : PoolLedger}

/-- Nobody was ever at work in a pool but for an instant. -/
structure Unmanned (l : PoolLedger) : Prop where
  running : l.pool.running = []
  killed : l.killed = []
  silent : ∀ o ∈ l.sent, o.responded = false

theorem unmanned_start (size : Nat) (jobs : List Job) : (start size jobs).Unmanned :=
  ⟨rfl, rfl, fun o hMem => by cases hMem⟩

theorem Unmanned.close (hUnmanned : l.Unmanned) : l.close.Unmanned where
  running := rfl
  killed := by
    show l.killed ++ l.pool.running = []
    rw [hUnmanned.killed, hUnmanned.running]
    rfl
  silent := hUnmanned.silent

theorem Unmanned.task {pool : Pool} (hUnmanned : l.Unmanned) (hSkips : l.pool.Skips pool) :
    (l.afterTask pool acts).Unmanned := by
  cases hSkips with
  | retired =>
      refine ⟨hUnmanned.running, hUnmanned.killed, fun o hMem => hUnmanned.silent o ?_⟩
      simpa [afterTask] using hMem
  | @skipped job rest o told _ hSilent =>
      refine ⟨hUnmanned.running, hUnmanned.killed, fun p hMem => ?_⟩
      have hSent : p ∈ l.sent ∨ p = o := by simpa [afterTask] using hMem
      rcases hSent with hOld | rfl
      · exact hUnmanned.silent p hOld
      · exact hSilent

/-- As long as the signal is raised, whatever happens in a race leaves nobody at work. -/
theorem Follows.unmanned (hFollows : Follows settings ctx amb l race event next acts after)
    (hRaised : (race.moment amb).aborted = true) (hUnmanned : l.Unmanned) : after.Unmanned := by
  cases hFollows with
  | task _ hTask =>
      exact hUnmanned.task (Pool.skips_of_step hTask hRaised hUnmanned.running)
  | receives _ hReceive =>
      refine ⟨?_, hUnmanned.killed, hUnmanned.silent⟩
      rw [(Pool.channel_of_receive hReceive).2]
      exact hUnmanned.running
  | winds => exact ⟨hUnmanned.running, hUnmanned.killed, hUnmanned.silent⟩
  | waits => exact hUnmanned
  | crashes | settles | expires => exact hUnmanned.close

theorem Unmanned.received (hUnmanned : l.Unmanned) (hBalanced : l.Balanced ctx size jobs) :
    ∀ o ∈ l.received, o.responded = false := by
  intro o hMem
  refine hUnmanned.silent o ?_
  rw [← hBalanced.received]
  exact List.mem_append_left _ hMem

/-- Whatever was opened for the jobs of such a pool is closed. -/
theorem Unmanned.settled (hUnmanned : l.Unmanned) (hReached : Reached ctx size jobs l)
    (hJobs : (jobs.map Job.index).Nodup) (owner : Nat) : Settled l.acts owner {} := by
  have hCustody := hReached.custody hJobs
  by_cases hSent : ∃ o ∈ l.sent, o.index = owner
  · obtain ⟨o, hMem, rfl⟩ := hSent
    obtain ⟨job, -, hSound⟩ := hReached.balanced.outcomes o hMem
    rw [← (hSound.loser (hUnmanned.silent o hMem)).1]
    exact hCustody.sent o hMem
  · by_cases hQueue : ∃ job ∈ l.pool.queue, job.index = owner
    · obtain ⟨job, hMem, rfl⟩ := hQueue
      intro kind
      obtain ⟨hOpens, hCloses⟩ := hCustody.queue job hMem kind
      have hNone : ({} : Holdings).count kind = 0 := by cases kind <;> rfl
      omega
    · refine hCustody.absent owner ⟨fun job hMem hEq => hQueue ⟨job, hMem, hEq⟩, ?_,
        fun o hMem hEq => hSent ⟨o, hMem, hEq⟩⟩
      intro a hMem
      rw [hUnmanned.running] at hMem
      cases hMem

/-- Such a pool has an outcome of every job that was not dropped, once it is closed. -/
theorem Unmanned.everybody (hUnmanned : l.Unmanned) (hBalanced : l.Balanced ctx size jobs)
    (hClosed : l.Closed) (hDropped : l.dropped = []) :
    (l.received.map Outcome.index).Perm (jobs.map Job.index) := by
  have hPlaces := hBalanced.places
  simpa [hClosed.queue, hClosed.running, hClosed.channel, hUnmanned.killed, hDropped] using hPlaces

/-- No job is dropped while a race waits, and no job waits any more once it does not. -/
structure Spares (race : Race) (l : PoolLedger) : Prop where
  waiting : race.phase = .waiting → l.dropped = []
  wound : race.phase ≠ .waiting → l.pool.queue = []

theorem Follows.spares (hFollows : Follows settings ctx amb l race event next acts after)
    (hRaised : (race.moment amb).aborted = true) (hNobody : l.pool.running = [])
    (hSpares : l.Spares race) : after.Spares next := by
  cases hFollows with
  | task _ hTask =>
      refine ⟨hSpares.waiting, fun hWound => ?_⟩
      have hQueue := hSpares.wound hWound
      cases Pool.skips_of_step hTask hRaised hNobody with
      | retired => exact hQueue
      | skipped hCons => cases hQueue.symm.trans hCons
  | receives _ hReceive =>
      refine ⟨hSpares.waiting, fun hWound => ?_⟩
      rw [(Pool.channel_of_receive hReceive).2]
      exact hSpares.wound hWound
  | winds => exact ⟨nofun, fun _ => rfl⟩
  | waits hWaiting => exact ⟨fun _ => hSpares.waiting hWaiting, fun hWound => absurd hWaiting hWound⟩
  | crashes | settles | expires => exact ⟨nofun, fun _ => rfl⟩

/-- Jobs are dropped at the tick that ends the wait, and then all that wait. -/
theorem Follows.dropped (hFollows : Follows settings ctx amb l race event next acts after)
    (hBalanced : l.Balanced ctx size jobs) (hSpares : l.Spares race) :
    after.dropped = l.dropped ∨
      event = .tick ∧ next.phase ≠ .waiting ∧ after.dropped = l.pool.queue := by
  have hClose (hQueue : l.pool.queue = []) : l.close.dropped = l.dropped := by
    show l.dropped ++ l.pool.queue = l.dropped
    rw [hQueue, List.append_nil]
  cases hFollows with
  | task | receives | waits => exact .inl rfl
  | winds hWaiting | crashes hWaiting =>
      refine .inr ⟨rfl, nofun, ?_⟩
      show l.dropped ++ l.pool.queue = l.pool.queue
      rw [hSpares.waiting hWaiting, List.nil_append]
  | settles hExhausted => exact .inl (hClose (hBalanced.queue_of_exhausted hExhausted))
  | expires hWinding =>
      refine .inl (hClose (hSpares.wound fun hWaiting => ?_))
      cases hWinding.symm.trans hWaiting

/-- When as many outcomes have been received as there are jobs, no job is waiting. -/
theorem Balanced.queue_of_received (hBalanced : l.Balanced ctx size jobs)
    (hAll : jobs.length ≤ l.received.length) : l.pool.queue = [] := by
  have hLength := hBalanced.places.length_eq
  simp only [List.length_append, List.length_map] at hLength
  exact List.length_eq_zero_iff.mp (by omega)

end PoolLedger

/-! ## How long the race takes -/

/-- How many ticks go by at most before the deadline of a round. -/
def Settings.ticksPerRound (s : Settings) : Nat := s.maxRound.nanos / s.connectPoll.nanos + 1

namespace Race

variable {settings : Settings} {ctx : RoundContext} {amb : Ambient} {race next : Race}
  {event : Event} {acts : List Act} {begun : Instant}

/-- A race that began at this time: where its deadline is, and how far its ticks are. -/
structure Paced (settings : Settings) (begun : Instant) (race : Race) : Prop where
  deadline : race.deadline = begun + settings.maxRound.nanos
  /-- No tick comes sooner than a poll interval after the one before. -/
  tick : race.phase = .waiting → begun + race.ticks * settings.connectPoll.nanos ≤ race.nextTick

theorem paced_start (settings : Settings) (begun : Instant) (jobs : List Job) :
    (start settings begun jobs).Paced settings begun where
  deadline := rfl
  tick _ := by simp [start]

/-- No tick is taken before it is due. -/
theorem due_of_tick (hStep : race.step settings ctx amb .tick = some (next, acts)) :
    race.nextTick ≤ amb.now := by
  simp only [step, tick] at hStep
  split at hStep
  · split at hStep
    · cases hStep
    · rename_i hDue
      exact Nat.le_of_not_lt hDue
  · cases hStep
  · cases hStep

theorem Paced.step (hPaced : race.Paced settings begun)
    (hStep : race.step settings ctx amb event = some (next, acts)) :
    next.Paced settings begun := by
  cases stepsTo_of_step hStep with
  | pool | receive => exact ⟨hPaced.deadline, hPaced.tick⟩
  | crashes | winds | settles | expires => exact ⟨hPaced.deadline, fun hWaiting => by cases hWaiting⟩
  | waits hWaiting =>
      refine ⟨hPaced.deadline, fun _ => ?_⟩
      have hDue := due_of_tick hStep
      have hTick := hPaced.tick hWaiting
      show begun + (race.ticks + 1) * settings.connectPoll.nanos ≤
        amb.now + settings.connectPoll.nanos
      rw [Nat.succ_mul, ← Nat.add_assoc]
      exact Nat.add_le_add_right (Nat.le_trans hTick hDue) _

/-- A tick that goes by is one of those before the deadline. -/
theorem Paced.ticks_lt (hPaced : race.Paced settings begun)
    (hPositive : 0 < settings.connectPoll.nanos) (hWaiting : race.phase = .waiting)
    (hDue : race.nextTick ≤ amb.now) (hGoes : race.stopsAt settings.pollRatio amb = false) :
    race.ticks < settings.ticksPerRound := by
  have hTick := hPaced.tick hWaiting
  have hEarly : ¬ race.deadline ≤ amb.now := by
    intro hLate
    simp [stopsAt, hLate] at hGoes
  rw [hPaced.deadline, Nat.not_le] at hEarly
  have hProduct : race.ticks * settings.connectPoll.nanos ≤ settings.maxRound.nanos :=
    Nat.le_of_add_le_add_left (Nat.le_trans hTick (Nat.le_trans hDue (Nat.le_of_lt hEarly)))
  exact Nat.lt_succ_of_le ((Nat.le_div_iff_mul_le hPositive).mpr hProduct)

/-- How many events a race at which nobody works can still take: two for each job, its
outcome and its receipt, one for each task, and its ticks. -/
def eventsLeft (settings : Settings) (race : Race) : Nat :=
  2 * race.pool.queue.length + race.pool.channel.length + race.pool.free +
    (settings.ticksPerRound - race.ticks) + race.toGo

theorem eventsLeft_start (settings : Settings) (begun : Instant) (jobs : List Job) :
    (start settings begun jobs).eventsLeft settings ≤
      3 * jobs.length + settings.maxRound.nanos / settings.connectPoll.nanos + 3 := by
  have hTasks : Pool.taskCount settings.poolSize jobs ≤ jobs.length := Nat.min_le_right _ _
  simp only [eventsLeft, start, Pool.start, Settings.ticksPerRound, toGo, List.length_nil]
  generalize settings.maxRound.nanos / settings.connectPoll.nanos = ticks
  omega

/-- A race under way has an event left, the one that closes it. -/
theorem eventsLeft_pos (hUnder : race.phase ≠ .over) : 0 < race.eventsLeft settings := by
  have hToGo := toGo_pos hUnder
  unfold eventsLeft
  omega

/-- Every event that leaves a race under way takes one off those that are left. -/
theorem eventsLeft_of_step (hPaced : race.Paced settings begun)
    (hPositive : 0 < settings.connectPoll.nanos) (hRaised : (race.moment amb).aborted = true)
    (hNobody : race.pool.running = [])
    (hStep : race.step settings ctx amb event = some (next, acts)) (hUnder : next.phase ≠ .over) :
    next.eventsLeft settings < race.eventsLeft settings := by
  cases stepsTo_of_step hStep with
  | pool _ hTask =>
      cases Pool.skips_of_step hTask hRaised hNobody with
      | retired hFree =>
          simp only [eventsLeft, toGo]
          omega
      | skipped hQueue =>
          simp only [eventsLeft, toGo, hQueue, List.length_cons, List.length_append,
            List.length_nil]
          omega
  | receive _ hReceive =>
      obtain ⟨hChannel, hPool⟩ := Pool.channel_of_receive hReceive
      rw [hPool]
      simp only [eventsLeft, toGo, hChannel, List.length_cons]
      omega
  | winds hWaiting =>
      simp only [eventsLeft, toGo, wind, Pool.discard, hWaiting, List.length_nil]
      omega
  | waits hWaiting hGoes =>
      have hTicks := hPaced.ticks_lt hPositive hWaiting (due_of_tick hStep) hGoes
      simp only [eventsLeft, toGo, hWaiting]
      omega
  | crashes | settles | expires => exact absurd rfl hUnder

/-- A tick that ends the wait without a crash has a reason to. -/
theorem stopsAt_of_tick (hStep : race.step settings ctx amb .tick = some (next, acts))
    (hWound : next.phase ≠ .waiting) (hIntact : next.phase = .over → next.crashed = false) :
    race.stopsAt settings.pollRatio amb = true := by
  cases stepsTo_of_step hStep with
  | crashes => cases hIntact rfl
  | winds _ hStops => exact hStops
  | waits hWaiting => exact absurd hWaiting hWound

/-- A wait in which nobody responds ends when everybody's outcome has been received, or
at its deadline. -/
theorem decided_or_late (hClear : amb.abort = false)
    (hSilent : ∀ o ∈ race.received, o.responded = false)
    (hStops : race.stopsAt settings.pollRatio amb = true) :
    race.dispatched ≤ race.received.length ∨ race.deadline ≤ amb.now := by
  rw [@stopsAt_iff _ _ _ amb.now] at hStops
  rcases hStops with hAbort | hLate | ⟨-, -, ⟨o, hMem, hResponded⟩ | hAll⟩
  · cases hClear.symm.trans hAbort
  · exact .inr hLate
  · cases (hSilent o hMem).symm.trans hResponded
  · exact .inl hAll

end Race

end RelayRace
