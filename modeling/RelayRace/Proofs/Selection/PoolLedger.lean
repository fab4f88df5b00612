import RelayRace.Proofs.FirstMatch
import RelayRace.Proofs.Probe.Worker
import RelayRace.Proofs.Schedule
import RelayRace.Selection.Pool

/-!
# The ledger of a pool

A pool forgets: a job that was dropped and a worker that was ended by force leave
no trace in it.  The ledger keeps the pool together with all that went through
it, so that nothing can be lost or counted twice unseen.

The pool and its owner move in any order.  The pool's tasks take jobs, work and
send outcomes; the owner receives, drops the jobs that nobody has taken, and
awaits the end, which either comes by itself (`settle`) or is brought about when
the grace period is over (`expire`).

One lemma, `Pool.step_change`, says what an event can do to a pool; the invariant
of the ledger, `PoolLedger.Balanced`, is derived from it.
-/

namespace RelayRace

/-! ## What an event does to a pool -/

namespace Pool

/-- Everything that one event can make of a pool. -/
inductive Change (ctx : RoundContext) (pool : Pool) : Pool → List Act → Prop where
  /-- A task finds no job and ends. -/
  | retired : pool.free ≠ 0 → pool.queue = [] →
      Change ctx pool { pool with free := pool.free - 1 } []
  /-- A task takes the first job and begins to work on it. -/
  | began {job : Job} {rest : List Job} {a : Attempt} {told : Bool} {acts : List Act} :
      pool.free ≠ 0 → pool.queue = job :: rest →
      Turn.Lawful ctx job {} ⟨.running a, told, acts⟩ →
      Change ctx pool
        { pool with
          queue := rest
          free := pool.free - 1
          running := pool.running ++ [a]
          told } acts
  /-- A task takes the first job and has its outcome at once. -/
  | skipped {job : Job} {rest : List Job} {o : Outcome} {told : Bool} {acts : List Act} :
      pool.free ≠ 0 → pool.queue = job :: rest →
      Turn.Lawful ctx job {} ⟨.ended o, told, acts⟩ →
      Change ctx pool
        { pool with queue := rest, channel := pool.channel ++ [o], told } acts
  /-- A worker goes on. -/
  | advanced {a next : Attempt} {told : Bool} {acts : List Act} :
      pool.worker? a.index = some a →
      (∀ job, a.Sound ctx job → Turn.Lawful ctx job a.held ⟨.running next, told, acts⟩) →
      Change ctx pool { pool with running := pool.replace next, told } acts
  /-- A worker sends its outcome, and its task is free again. -/
  | finished {a : Attempt} {o : Outcome} {told : Bool} {acts : List Act} :
      pool.worker? a.index = some a →
      (∀ job, a.Sound ctx job → Turn.Lawful ctx job a.held ⟨.ended o, told, acts⟩) →
      Change ctx pool
        { pool with
          running := pool.without a.index
          free := pool.free + 1
          channel := pool.channel ++ [o]
          told } acts

variable {ctx : RoundContext} {pool after : Pool} {acts : List Act}

theorem index_of_worker? {index : Nat} {a : Attempt} (hFind : pool.worker? index = some a) :
    a.index = index := by
  simpa using List.find?_some hFind

/-- A lawful turn of a worker is one of the changes. -/
theorem change_apply {index : Nat} {a : Attempt} {turn : Turn}
    (hFind : pool.worker? index = some a)
    (hTurn : ∀ job, a.Sound ctx job → Turn.Lawful ctx job a.held turn)
    (hApply : pool.apply index turn = (after, acts)) : Change ctx pool after acts := by
  have hIndex := index_of_worker? hFind
  subst hIndex
  obtain ⟨standing, told, turnActs⟩ := turn
  cases standing with
  | running next =>
      cases hApply
      exact .advanced hFind hTurn
  | ended o =>
      cases hApply
      exact .finished hFind hTurn

theorem take_change {m : Moment} (hTake : pool.take ctx m = some (after, acts)) :
    Change ctx pool after acts := by
  unfold take at hTake
  split at hTake
  · cases hTake
  · rename_i hFree
    split at hTake
    · rename_i hQueue
      cases hTake
      exact .retired hFree hQueue
    · rename_i job rest hQueue
      have hLawful : Turn.Lawful ctx job {} (Worker.start ctx m pool.told job) :=
        Worker.lawful_start
      generalize Worker.start ctx m pool.told job = turn at hTake hLawful
      obtain ⟨standing, told, turnActs⟩ := turn
      cases standing with
      | running a =>
          cases hTake
          exact .began hFree hQueue hLawful
      | ended o =>
          cases hTake
          exact .skipped hFree hQueue hLawful

theorem step_change {m : Moment} {event : PoolEvent}
    (hStep : pool.step ctx m event = some (after, acts)) : Change ctx pool after acts := by
  cases event with
  | take => exact take_change hStep
  | poll index =>
      simp only [step] at hStep
      split at hStep
      · rename_i a hFind
        split at hStep
        · exact change_apply hFind (fun _ hSound => Worker.lawful_poll hSound)
            (Option.some.inj hStep)
        · cases hStep
      · cases hStep
  | answer index given =>
      simp only [step] at hStep
      split at hStep
      · rename_i a hFind
        exact change_apply hFind (fun _ hSound => Worker.lawful_answer hSound given)
          (Option.some.inj hStep)
      · cases hStep
  | crash index =>
      simp only [step] at hStep
      split at hStep
      · rename_i a hFind
        exact change_apply hFind (fun _ hSound => Worker.lawful_crash hSound)
          (Option.some.inj hStep)
      · cases hStep

/-! ## Finding a worker -/

theorem mem_of_worker? {index : Nat} {a : Attempt} (hFind : pool.worker? index = some a) :
    a ∈ pool.running :=
  List.mem_of_find?_eq_some hFind

/-- Putting a worker in its own place does not change who is at work. -/
theorem map_index_replace (next : Attempt) :
    (pool.replace next).map Attempt.index = pool.running.map Attempt.index := by
  unfold replace
  rw [List.map_map]
  refine List.map_congr_left fun b _ => ?_
  by_cases hIndex : b.index = next.index
  · simp [hIndex]
  · simp [hIndex]

theorem mem_replace {next b : Attempt} (hMem : b ∈ pool.replace next) :
    b = next ∨ b ∈ pool.running ∧ b.index ≠ next.index := by
  obtain ⟨c, hRunning, hEq⟩ := List.mem_map.mp hMem
  by_cases hIndex : c.index = next.index
  · exact .inl (by simpa [hIndex] using hEq.symm)
  · have hSame : c = b := by simpa [hIndex] using hEq
    exact .inr (hSame ▸ ⟨hRunning, hIndex⟩)

/-- Who is at work is the worker that was found and the others. -/
theorem perm_without {a : Attempt} (hFind : pool.worker? a.index = some a) :
    (a :: pool.without a.index).Perm pool.running :=
  perm_of_find? hFind

end Pool

/-! ## The ledger -/

/-- What the tasks of a pool and its owner do. -/
inductive PoolMove where
  /-- Something happens in the pool by itself. -/
  | task (moment : Moment) (event : PoolEvent)
  /-- The owner receives the next outcome. -/
  | receive
  /-- The owner drops the jobs that nobody has taken. -/
  | shutdown
  /-- The owner has awaited the end, and it came by itself. -/
  | settle
  /-- The owner has awaited the end, and the grace period is over. -/
  | expire

/-- A pool and everything that went through it. -/
structure PoolLedger where
  pool : Pool
  /-- The jobs that were taken, in the order in which they were. -/
  started : List Job := []
  /-- The jobs that were dropped before anybody took them. -/
  dropped : List Job := []
  /-- The outcomes in the order in which they were sent. -/
  sent : List Outcome := []
  /-- The outcomes in the order in which they were received. -/
  received : List Outcome := []
  /-- The workers that were ended by force. -/
  killed : List Attempt := []
  acts : List Act := []

namespace PoolLedger

/-- The ledger of a pool that is given its jobs. -/
def start (size : Nat) (jobs : List Job) : PoolLedger := { pool := Pool.start size jobs }

/-- The ledger after an event of the pool. -/
def afterTask (l : PoolLedger) (pool : Pool) (acts : List Act) : PoolLedger :=
  { l with
    pool
    started := l.started ++ l.pool.queue.take (l.pool.queue.length - pool.queue.length)
    sent := l.sent ++ pool.channel.drop l.pool.channel.length
    acts := l.acts ++ acts }

/-- The end: whoever is at work is ended by force, what was sent is received. -/
def close (l : PoolLedger) : PoolLedger :=
  { l with
    pool := l.pool.kill.1.drain.2
    dropped := l.dropped ++ l.pool.queue
    received := l.received ++ l.pool.kill.1.drain.1
    killed := l.killed ++ l.pool.running
    acts := l.acts ++ l.pool.kill.2 }

/-- One move; none when it cannot be made now. -/
def step (ctx : RoundContext) (l : PoolLedger) : PoolMove → Option PoolLedger
  | .task moment event =>
      match l.pool.step ctx moment event with
      | some (pool, acts) => some (l.afterTask pool acts)
      | none => none
  | .receive =>
      match l.pool.receive with
      | some (outcome, pool) => some { l with pool, received := l.received ++ [outcome] }
      | none => none
  | .shutdown =>
      some { l with pool := l.pool.discard.2, dropped := l.dropped ++ l.pool.queue }
  | .settle => if l.pool.isExhausted then some l.close else none
  | .expire => some l.close

/-- Everything that one move can make of a ledger. -/
inductive StepsTo (ctx : RoundContext) (l : PoolLedger) : PoolMove → PoolLedger → Prop where
  | task {moment : Moment} {event : PoolEvent} {pool : Pool} {acts : List Act} :
      l.pool.step ctx moment event = some (pool, acts) →
      StepsTo ctx l (.task moment event) (l.afterTask pool acts)
  | receive {outcome : Outcome} {pool : Pool} :
      l.pool.receive = some (outcome, pool) →
      StepsTo ctx l .receive { l with pool, received := l.received ++ [outcome] }
  | shutdown :
      StepsTo ctx l .shutdown
        { l with pool := l.pool.discard.2, dropped := l.dropped ++ l.pool.queue }
  | settle : l.pool.isExhausted = true → StepsTo ctx l .settle l.close
  | expire : StepsTo ctx l .expire l.close

theorem stepsTo_of_step {ctx : RoundContext} {l after : PoolLedger} {move : PoolMove}
    (hStep : l.step ctx move = some after) : StepsTo ctx l move after := by
  cases move with
  | task moment event =>
      simp only [step] at hStep
      split at hStep
      · rename_i hTask
        cases hStep
        exact .task hTask
      · cases hStep
  | receive =>
      simp only [step] at hStep
      split at hStep
      · rename_i hReceive
        cases hStep
        exact .receive hReceive
      · cases hStep
  | shutdown =>
      cases hStep
      exact .shutdown
  | settle =>
      simp only [step] at hStep
      split at hStep
      · rename_i hExhausted
        cases hStep
        exact .settle hExhausted
      · cases hStep
  | expire =>
      cases hStep
      exact .expire

/-- The ledger after some moves. -/
def play (ctx : RoundContext) (l : PoolLedger) (moves : List PoolMove) : Option PoolLedger :=
  playSchedule (step ctx) l moves

/-! ## Its invariant -/

/-- What holds of a ledger at any time. -/
structure Balanced (ctx : RoundContext) (size : Nat) (jobs : List Job) (l : PoolLedger) :
    Prop where
  /-- Jobs are taken in their order, and the others were dropped or are waiting. -/
  order : l.started ++ l.dropped ++ l.pool.queue = jobs
  undropped : l.pool.queue ≠ [] → l.dropped = []
  /-- Each job that was taken is at work, has sent its outcome, or was ended. -/
  fates : (l.pool.running.map Attempt.index ++ l.sent.map Outcome.index ++
    l.killed.map Attempt.index).Perm (l.started.map Job.index)
  received : l.received ++ l.pool.channel = l.sent
  width : l.pool.free + l.pool.running.length ≤ Pool.taskCount size jobs
  /-- No task ends while there are jobs. -/
  manned : l.pool.queue ≠ [] →
    l.pool.free + l.pool.running.length = Pool.taskCount size jobs
  runners : ∀ a ∈ l.pool.running, ∃ job ∈ jobs, a.Sound ctx job
  outcomes : ∀ o ∈ l.sent, ∃ job ∈ jobs, o.Sound ctx job

variable {ctx : RoundContext} {size : Nat} {jobs : List Job} {l after : PoolLedger}

theorem balanced_start (ctx : RoundContext) (size : Nat) (jobs : List Job) :
    (start size jobs).Balanced ctx size jobs where
  order := rfl
  undropped _ := rfl
  fates := .refl _
  received := rfl
  width := Nat.le_refl _
  manned _ := rfl
  runners a hMem := by cases hMem
  outcomes o hMem := by cases hMem

/-- The jobs that are waiting are among the jobs. -/
theorem Balanced.queue_subset (hBalanced : l.Balanced ctx size jobs) :
    ∀ job ∈ l.pool.queue, job ∈ jobs := by
  intro job hMem
  rw [← hBalanced.order]
  exact List.mem_append_right _ hMem

/-- Taking a job off the queue keeps the order of the ledger. -/
theorem Balanced.order_take (hBalanced : l.Balanced ctx size jobs) {job : Job}
    {rest : List Job} (hQueue : l.pool.queue = job :: rest) :
    (l.started ++ [job]) ++ l.dropped ++ rest = jobs := by
  have hDropped := hBalanced.undropped (by simp [hQueue])
  have hOrder := hBalanced.order
  simpa [hDropped, hQueue] using hOrder

theorem taken_of_queue {job : Job} {rest : List Job} (hQueue : l.pool.queue = job :: rest) :
    l.pool.queue.take (l.pool.queue.length - rest.length) = [job] := by
  simp [hQueue]

/-- The outcome of one of the jobs may be sent. -/
theorem Balanced.outcomes_append (hBalanced : l.Balanced ctx size jobs) {o : Outcome} {job : Job}
    (hJob : job ∈ jobs) (hSound : o.Sound ctx job) :
    ∀ p ∈ l.sent ++ [o], ∃ job ∈ jobs, p.Sound ctx job := by
  intro p hMem
  rcases List.mem_append.mp hMem with hOld | hNew
  · exact hBalanced.outcomes p hOld
  · rw [List.mem_singleton.mp hNew]
    exact ⟨job, hJob, hSound⟩

theorem balanced_task {pool : Pool} {acts : List Act}
    (hBalanced : l.Balanced ctx size jobs) (hChange : l.pool.Change ctx pool acts) :
    (l.afterTask pool acts).Balanced ctx size jobs := by
  cases hChange with
  | retired hFree hQueue =>
      have hWidth := hBalanced.width
      exact
        { order := by simpa [afterTask] using hBalanced.order
          undropped := hBalanced.undropped
          fates := by simpa [afterTask] using hBalanced.fates
          received := by simpa [afterTask] using hBalanced.received
          width := by simp only [afterTask]; omega
          manned := fun hWaiting => absurd hQueue hWaiting
          runners := hBalanced.runners
          outcomes := by simpa [afterTask] using hBalanced.outcomes }
  | @began job rest a told _ hFree hQueue hTurn =>
      have hWidth := hBalanced.width
      have hManned := hBalanced.manned (by simp [hQueue])
      have hIndex : a.index = job.index := hTurn.1.index
      exact
        { order := by
            simpa [afterTask, taken_of_queue hQueue] using hBalanced.order_take hQueue
          undropped := fun _ => hBalanced.undropped (by simp [hQueue])
          fates := by
            have hFates := hBalanced.fates.append_right [job.index]
            refine List.Perm.trans ?_ (by simpa [afterTask, taken_of_queue hQueue] using hFates)
            simp only [afterTask, List.drop_length, List.append_nil, List.map_append,
              List.map_cons, List.map_nil, hIndex, List.append_assoc]
            rw [← List.append_assoc (l.sent.map Outcome.index)]
            exact List.Perm.append_left _ List.perm_append_comm
          received := by simpa [afterTask] using hBalanced.received
          width := by simp only [afterTask, List.length_append, List.length_singleton]; omega
          manned := fun _ => by
            simp only [afterTask, List.length_append, List.length_singleton]; omega
          runners := by
            intro b hMem
            rcases List.mem_append.mp hMem with hOld | hNew
            · exact hBalanced.runners b hOld
            · rw [List.mem_singleton.mp hNew]
              exact ⟨job, hBalanced.queue_subset job (by simp [hQueue]), hTurn.1⟩
          outcomes := by simpa [afterTask] using hBalanced.outcomes }
  | @skipped job rest o told _ hFree hQueue hTurn =>
      have hIndex : o.index = job.index := hTurn.1.index
      exact
        { order := by
            simpa [afterTask, taken_of_queue hQueue] using hBalanced.order_take hQueue
          undropped := fun _ => hBalanced.undropped (by simp [hQueue])
          fates := by
            have hFates := hBalanced.fates.append_right [job.index]
            refine List.Perm.trans ?_ (by simpa [afterTask, taken_of_queue hQueue] using hFates)
            simp only [afterTask, List.drop_left, List.map_append, List.map_cons, List.map_nil,
              hIndex, List.append_assoc]
            exact List.Perm.append_left _ (List.Perm.append_left _ List.perm_append_comm)
          received := by
            simpa [afterTask] using congrArg (· ++ [o]) hBalanced.received
          width := hBalanced.width
          manned := fun _ => hBalanced.manned (by simp [hQueue])
          runners := hBalanced.runners
          outcomes := by
            have hJob := hBalanced.queue_subset job (by simp [hQueue])
            simpa only [afterTask, List.drop_left] using hBalanced.outcomes_append hJob hTurn.1 }
  | @advanced a next told _ hFind hTurn =>
      obtain ⟨job, hJob, hSound⟩ := hBalanced.runners a (Pool.mem_of_worker? hFind)
      have hNext := (hTurn job hSound).1
      have hMap := l.pool.map_index_replace next
      have hLength : (l.pool.replace next).length = l.pool.running.length := by
        simpa using congrArg List.length hMap
      exact
        { order := by simpa [afterTask] using hBalanced.order
          undropped := hBalanced.undropped
          fates := by simpa [afterTask, hMap] using hBalanced.fates
          received := by simpa [afterTask] using hBalanced.received
          width := by simpa [afterTask, hLength] using hBalanced.width
          manned := by simpa [afterTask, hLength] using hBalanced.manned
          runners := by
            intro b hMem
            rcases Pool.mem_replace hMem with rfl | ⟨hOld, _⟩
            · exact ⟨job, hJob, hNext⟩
            · exact hBalanced.runners b hOld
          outcomes := by simpa [afterTask] using hBalanced.outcomes }
  | @finished a o told _ hFind hTurn =>
      obtain ⟨job, hJob, hSound⟩ := hBalanced.runners a (Pool.mem_of_worker? hFind)
      have hOutcome := (hTurn job hSound).1
      have hPerm := Pool.perm_without hFind
      have hLength : (l.pool.without a.index).length + 1 = l.pool.running.length := by
        simpa using hPerm.length_eq
      have hIndex : o.index = a.index := hOutcome.index.trans hSound.index.symm
      exact
        { order := by simpa [afterTask] using hBalanced.order
          undropped := hBalanced.undropped
          fates := by
            refine List.Perm.trans ?_ (by simpa [afterTask] using hBalanced.fates)
            have hMap := (hPerm.map Attempt.index).append_right
              (l.sent.map Outcome.index ++ l.killed.map Attempt.index)
            refine List.Perm.trans ?_ hMap
            simp only [afterTask, List.drop_left, List.map_append, List.map_cons, List.map_nil,
              hIndex, List.append_assoc, List.cons_append, List.nil_append]
            rw [← List.append_assoc]
            refine List.perm_middle.trans ?_
            simp
          received := by
            simpa [afterTask] using congrArg (· ++ [o]) hBalanced.received
          width := by
            have hWidth := hBalanced.width
            simp only [afterTask]
            omega
          manned := by
            intro hWaiting
            have hManned := hBalanced.manned hWaiting
            simp only [afterTask]
            omega
          runners := by
            intro b hMem
            exact hBalanced.runners b (List.mem_of_mem_eraseP hMem)
          outcomes := by
            simpa only [afterTask, List.drop_left] using
              hBalanced.outcomes_append hJob hOutcome }

theorem balanced_receive {outcome : Outcome} {pool : Pool}
    (hBalanced : l.Balanced ctx size jobs) (hReceive : l.pool.receive = some (outcome, pool)) :
    ({ l with pool, received := l.received ++ [outcome] } : PoolLedger).Balanced
      ctx size jobs := by
  unfold Pool.receive at hReceive
  split at hReceive
  · cases hReceive
  · rename_i rest hChannel
    cases hReceive
    exact { hBalanced with
      received := by
        have hReceived := hBalanced.received
        simpa [hChannel] using hReceived }

theorem balanced_shutdown (hBalanced : l.Balanced ctx size jobs) :
    ({ l with pool := l.pool.discard.2, dropped := l.dropped ++ l.pool.queue } :
      PoolLedger).Balanced ctx size jobs :=
  { hBalanced with
    order := by simpa [Pool.discard] using hBalanced.order
    undropped := fun hWaiting => absurd rfl hWaiting
    manned := fun hWaiting => absurd rfl hWaiting }

theorem balanced_close (hBalanced : l.Balanced ctx size jobs) :
    l.close.Balanced ctx size jobs where
  order := by simpa [close, Pool.kill, Pool.drain] using hBalanced.order
  undropped hWaiting := absurd rfl hWaiting
  fates := by
    refine List.Perm.trans ?_ hBalanced.fates
    simp only [close, Pool.kill, Pool.drain, List.map_nil, List.nil_append, List.map_append,
      List.append_assoc]
    rw [← List.append_assoc]
    exact List.perm_append_comm
  received := by simpa [close, Pool.kill, Pool.drain] using hBalanced.received
  width := by simp [close, Pool.kill, Pool.drain]
  manned hWaiting := absurd rfl hWaiting
  runners a hMem := by cases hMem
  outcomes := hBalanced.outcomes

theorem balanced_step {move : PoolMove} (hBalanced : l.Balanced ctx size jobs)
    (hStep : l.step ctx move = some after) : after.Balanced ctx size jobs := by
  cases stepsTo_of_step hStep with
  | task hTask => exact balanced_task hBalanced (Pool.step_change hTask)
  | receive hReceive => exact balanced_receive hBalanced hReceive
  | shutdown => exact balanced_shutdown hBalanced
  | settle | expire => exact balanced_close hBalanced

/-- Whatever the tasks of a pool and its owner do, in whatever order, the ledger
stays balanced. -/
theorem balanced_play {moves : List PoolMove}
    (hPlay : (start size jobs).play ctx moves = some l) : l.Balanced ctx size jobs :=
  playSchedule_keeps moves (fun _ _ _ _ hBefore hStep => balanced_step hBefore hStep)
    (balanced_start ctx size jobs) hPlay

end PoolLedger

end RelayRace
