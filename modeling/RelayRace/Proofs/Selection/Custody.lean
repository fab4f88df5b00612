import RelayRace.Proofs.Selection.PoolLedger

/-!
# Who has custody of a handle

Every handle that a pool's workers open is at any time held by a worker at work
or by an outcome that was sent, or it was closed once.  The ledger of the pool
tells whose handles are whose: the indices of jobs, workers and outcomes are all
different, so the acts of one worker cannot disturb the account of another.

`PoolLedger.Custody` is that invariant.  It survives every move, the end by force
included, which closes what the workers hold at that moment.
-/

namespace RelayRace

namespace PoolLedger

variable {ctx : RoundContext} {size : Nat} {jobs : List Job} {l after : PoolLedger}

/-! ## Different indices -/

/-- Jobs that wait, workers and outcomes all have different indices. -/
theorem Balanced.distinct (hBalanced : l.Balanced ctx size jobs)
    (hJobs : (jobs.map Job.index).Nodup) :
    (l.pool.queue.map Job.index ++ (l.pool.running.map Attempt.index ++
      l.sent.map Outcome.index)).Nodup := by
  have hOrder : (l.started.map Job.index ++ (l.dropped.map Job.index ++
      l.pool.queue.map Job.index)).Nodup := by
    simpa [← hBalanced.order] using hJobs
  have hFates : (l.pool.running.map Attempt.index ++ l.sent.map Outcome.index ++
      l.killed.map Attempt.index ++ (l.dropped.map Job.index ++
      l.pool.queue.map Job.index)).Nodup :=
    (hBalanced.fates.append_right _).nodup_iff.mpr hOrder
  have hSublist : (l.pool.running.map Attempt.index ++ l.sent.map Outcome.index ++
      l.pool.queue.map Job.index).Nodup := by
    refine List.Nodup.sublist ?_ hFates
    exact List.Sublist.append (List.sublist_append_left _ _) (List.sublist_append_right _ _)
  exact List.perm_append_comm.nodup_iff.mp hSublist

/-- The indices that the ledger keeps apart. -/
structure Apart (l : PoolLedger) : Prop where
  queue : (l.pool.queue.map Job.index).Nodup
  running : (l.pool.running.map Attempt.index).Nodup
  sent : (l.sent.map Outcome.index).Nodup
  queue_running : ∀ job ∈ l.pool.queue, ∀ a ∈ l.pool.running, job.index ≠ a.index
  queue_sent : ∀ job ∈ l.pool.queue, ∀ o ∈ l.sent, job.index ≠ o.index
  running_sent : ∀ a ∈ l.pool.running, ∀ o ∈ l.sent, a.index ≠ o.index

theorem Balanced.apart (hBalanced : l.Balanced ctx size jobs)
    (hJobs : (jobs.map Job.index).Nodup) : l.Apart := by
  obtain ⟨hQueue, hRest, hOutside⟩ := List.nodup_append.mp (hBalanced.distinct hJobs)
  obtain ⟨hRunning, hSent, hInside⟩ := List.nodup_append.mp hRest
  exact
    { queue := hQueue
      running := hRunning
      sent := hSent
      queue_running := fun job hJob a hA =>
        hOutside _ (List.mem_map_of_mem hJob) _
          (List.mem_append_left _ (List.mem_map_of_mem hA))
      queue_sent := fun job hJob o hO =>
        hOutside _ (List.mem_map_of_mem hJob) _
          (List.mem_append_right _ (List.mem_map_of_mem hO))
      running_sent := fun a hA o hO =>
        hInside _ (List.mem_map_of_mem hA) _ (List.mem_map_of_mem hO) }

/-- Whoever is at work beside a worker has another index. -/
theorem Apart.without (hApart : l.Apart) {a b : Attempt}
    (hFind : l.pool.worker? a.index = some a) (hMem : b ∈ l.pool.without a.index) :
    b.index ≠ a.index := by
  have hPerm := (Pool.perm_without hFind).map Attempt.index
  have hNodup := hPerm.nodup_iff.mpr hApart.running
  rw [List.map_cons, List.nodup_cons] at hNodup
  have hIndex : b.index ∈ (l.pool.without a.index).map Attempt.index :=
    List.mem_map_of_mem hMem
  intro hEq
  exact hNodup.1 (hEq ▸ hIndex)

/-- Jobs behind the first one have other indices. -/
theorem Apart.behind (hApart : l.Apart) {job j : Job} {rest : List Job}
    (hQueue : l.pool.queue = job :: rest) (hMem : j ∈ rest) : j.index ≠ job.index := by
  have hNodup := hApart.queue
  rw [hQueue, List.map_cons, List.nodup_cons] at hNodup
  intro hEq
  exact hNodup.1 (hEq ▸ List.mem_map_of_mem hMem)

/-! ## The invariant -/

/-- Nobody in the ledger who could hold anything has this index. -/
def Absent (l : PoolLedger) (owner : Nat) : Prop :=
  (∀ job ∈ l.pool.queue, job.index ≠ owner) ∧ (∀ a ∈ l.pool.running, a.index ≠ owner) ∧
    ∀ o ∈ l.sent, o.index ≠ owner

/-- The account of every probe. -/
structure Custody (l : PoolLedger) : Prop where
  /-- Nothing was opened for a job that waits. -/
  queue : ∀ job ∈ l.pool.queue, HoldsAll l.acts job.index {}
  running : ∀ a ∈ l.pool.running, HoldsAll l.acts a.index a.held
  sent : ∀ o ∈ l.sent, Settled l.acts o.index o.held
  /-- Whatever was opened for anybody else is closed. -/
  absent : ∀ owner, l.Absent owner → Settled l.acts owner {}

theorem custody_start (size : Nat) (jobs : List Job) : (start size jobs).Custody where
  queue job _ kind := by simp [start]
  running a hMem := by cases hMem
  sent o hMem := by cases hMem
  absent owner _ kind := by simp [start]

/-! ## Taking a job -/

section Taking

variable {job : Job} {rest : List Job} {before held : Holdings} {acts : List Act}

/-- What is done for the first job leaves the accounts of those behind it. -/
theorem Custody.queue_behind (hCustody : l.Custody) (hApart : l.Apart)
    (hQueue : l.pool.queue = job :: rest) (hMoves : Moves job.index before held acts) :
    ∀ j ∈ rest, HoldsAll (l.acts ++ acts) j.index {} := by
  intro j hMem
  have hWaits : j ∈ l.pool.queue := by simp [hQueue, hMem]
  exact (hCustody.queue j hWaits).append (hMoves.spares (hApart.behind hQueue hMem))

/-- It leaves the accounts of the workers. -/
theorem Custody.running_beside (hCustody : l.Custody) (hApart : l.Apart)
    (hQueue : l.pool.queue = job :: rest) (hMoves : Moves job.index before held acts) :
    ∀ b ∈ l.pool.running, HoldsAll (l.acts ++ acts) b.index b.held := by
  intro b hMem
  have hJob : job ∈ l.pool.queue := by simp [hQueue]
  exact (hCustody.running b hMem).append
    (hMoves.spares (hApart.queue_running job hJob b hMem).symm)

/-- It leaves the accounts of the outcomes. -/
theorem Custody.sent_beside (hCustody : l.Custody) (hApart : l.Apart)
    (hQueue : l.pool.queue = job :: rest) (hMoves : Moves job.index before held acts) :
    ∀ o ∈ l.sent, Settled (l.acts ++ acts) o.index o.held := by
  intro o hMem
  have hJob : job ∈ l.pool.queue := by simp [hQueue]
  exact (hCustody.sent o hMem).append (hMoves.spares (hApart.queue_sent job hJob o hMem).symm)

/-- The account of anybody else is settled as before. -/
theorem Custody.absent_beside (hCustody : l.Custody) (hQueue : l.pool.queue = job :: rest)
    (hMoves : Moves job.index before held acts) {owner : Nat} (hOwner : owner ≠ job.index)
    (hRest : ∀ j ∈ rest, j.index ≠ owner) (hRunning : ∀ b ∈ l.pool.running, b.index ≠ owner)
    (hSent : ∀ o ∈ l.sent, o.index ≠ owner) : Settled (l.acts ++ acts) owner {} := by
  refine (hCustody.absent owner ⟨fun j hMem => ?_, hRunning, hSent⟩).append (hMoves.spares hOwner)
  rw [hQueue] at hMem
  rcases List.mem_cons.mp hMem with rfl | hOld
  · exact hOwner.symm
  · exact hRest j hOld

end Taking

/-! ## Every move -/

theorem custody_task {pool : Pool} {acts : List Act} (hCustody : l.Custody)
    (hApart : l.Apart) (hBalanced : l.Balanced ctx size jobs)
    (hChange : l.pool.Change ctx pool acts) : (l.afterTask pool acts).Custody := by
  cases hChange with
  | retired hFree hQueue =>
      exact
        { queue := by simpa [afterTask] using hCustody.queue
          running := by simpa [afterTask] using hCustody.running
          sent := by simpa [afterTask] using hCustody.sent
          absent := by simpa [afterTask, Absent] using hCustody.absent }
  | @began job rest a told _ hFree hQueue hTurn =>
      have hJob : job ∈ l.pool.queue := by simp [hQueue]
      obtain ⟨hSound, hMoves, hKeeps⟩ := hTurn
      refine ⟨hCustody.queue_behind hApart hQueue hMoves, fun b hMem => ?_, ?_,
        fun owner hAbsent => ?_⟩
      · rcases List.mem_append.mp hMem with hOld | hNew
        · exact hCustody.running_beside hApart hQueue hMoves b hOld
        · rw [List.mem_singleton.mp hNew, hSound.index]
          exact (hCustody.queue job hJob).extend hMoves hKeeps
      · simpa [afterTask] using hCustody.sent_beside hApart hQueue hMoves
      · obtain ⟨hNoJob, hNoWorker, hNoOutcome⟩ := hAbsent
        have hOwner : owner ≠ job.index := fun hEq =>
          hNoWorker a (by simp [afterTask]) (hSound.index.trans hEq.symm)
        refine hCustody.absent_beside hQueue hMoves hOwner hNoJob (fun b hMem => ?_)
          (fun o hMem => ?_)
        · exact hNoWorker b (by simp [afterTask, hMem])
        · exact hNoOutcome o (by simp [afterTask, hMem])
  | @skipped job rest o told _ hFree hQueue hTurn =>
      have hJob : job ∈ l.pool.queue := by simp [hQueue]
      obtain ⟨hSound, hMoves⟩ := hTurn
      refine ⟨hCustody.queue_behind hApart hQueue hMoves,
        hCustody.running_beside hApart hQueue hMoves, fun p hMem => ?_, fun owner hAbsent => ?_⟩
      · simp only [afterTask, List.drop_left] at hMem
        rcases List.mem_append.mp hMem with hOld | hNew
        · exact hCustody.sent_beside hApart hQueue hMoves p hOld
        · rw [List.mem_singleton.mp hNew, hSound.index]
          exact (hCustody.queue job hJob).finish hMoves
      · obtain ⟨hNoJob, hNoWorker, hNoOutcome⟩ := hAbsent
        have hOwner : owner ≠ job.index := fun hEq =>
          hNoOutcome o (by simp [afterTask]) (hSound.index.trans hEq.symm)
        refine hCustody.absent_beside hQueue hMoves hOwner hNoJob hNoWorker (fun p hMem => ?_)
        exact hNoOutcome p (by simp [afterTask, hMem])
  | @advanced a next told _ hFind hTurn =>
      have hMem := Pool.mem_of_worker? hFind
      obtain ⟨job, _, hSound⟩ := hBalanced.runners a hMem
      obtain ⟨hNext, hMoves, hKeeps⟩ := hTurn job hSound
      rw [← hSound.index] at hMoves hKeeps
      have hIndex : next.index = a.index := hNext.index.trans hSound.index.symm
      refine ⟨fun j hJob => ?_, fun b hB => ?_, fun o hO => ?_, fun owner hAbsent => ?_⟩
      · exact (hCustody.queue j hJob).append
          (hMoves.spares (hApart.queue_running j hJob a hMem))
      · rcases Pool.mem_replace hB with rfl | ⟨hOld, hOther⟩
        · rw [hIndex]
          exact (hCustody.running a hMem).extend hMoves hKeeps
        · exact (hCustody.running b hOld).append (hMoves.spares (hIndex ▸ hOther))
      · have hOld : o ∈ l.sent := by simpa [afterTask] using hO
        exact (hCustody.sent o hOld).append
          (hMoves.spares (hApart.running_sent a hMem o hOld).symm)
      · obtain ⟨hNoJob, hNoWorker, hNoOutcome⟩ := hAbsent
        have hWorkers : ∀ b ∈ l.pool.running, b.index ≠ owner := by
          intro b hB hEq
          have hIndices : owner ∈ (l.pool.replace next).map Attempt.index := by
            rw [Pool.map_index_replace, ← hEq]
            exact List.mem_map_of_mem hB
          obtain ⟨c, hC, hSame⟩ := List.mem_map.mp hIndices
          exact hNoWorker c hC hSame
        refine (hCustody.absent owner ⟨hNoJob, hWorkers, fun o hO => ?_⟩).append
          (hMoves.spares (hWorkers a hMem).symm)
        exact hNoOutcome o (by simp [afterTask, hO])
  | @finished a o told _ hFind hTurn =>
      have hMem := Pool.mem_of_worker? hFind
      obtain ⟨job, _, hSound⟩ := hBalanced.runners a hMem
      obtain ⟨hOutcome, hMoves⟩ := hTurn job hSound
      rw [← hSound.index] at hMoves
      have hIndex : o.index = a.index := hOutcome.index.trans hSound.index.symm
      refine ⟨fun j hJob => ?_, fun b hB => ?_, fun p hP => ?_, fun owner hAbsent => ?_⟩
      · exact (hCustody.queue j hJob).append
          (hMoves.spares (hApart.queue_running j hJob a hMem))
      · exact (hCustody.running b (List.mem_of_mem_eraseP hB)).append
          (hMoves.spares (hApart.without hFind hB))
      · simp only [afterTask, List.drop_left] at hP
        rcases List.mem_append.mp hP with hOld | hNew
        · exact (hCustody.sent p hOld).append
            (hMoves.spares (hApart.running_sent a hMem p hOld).symm)
        · rw [List.mem_singleton.mp hNew, hIndex]
          exact (hCustody.running a hMem).finish hMoves
      · obtain ⟨hNoJob, hNoWorker, hNoOutcome⟩ := hAbsent
        have hOwner : a.index ≠ owner := fun hEq =>
          hNoOutcome o (by simp [afterTask]) (hIndex.trans hEq)
        refine (hCustody.absent owner ⟨hNoJob, fun b hB => ?_, fun p hP => ?_⟩).append
          (hMoves.spares hOwner.symm)
        · rcases List.mem_cons.mp ((Pool.perm_without hFind).mem_iff.mpr hB) with rfl | hOther
          · exact hOwner
          · exact hNoWorker b hOther
        · exact hNoOutcome p (by simp [afterTask, hP])

theorem custody_receive {outcome : Outcome} {pool : Pool} (hCustody : l.Custody)
    (hReceive : l.pool.receive = some (outcome, pool)) :
    ({ l with pool, received := l.received ++ [outcome] } : PoolLedger).Custody := by
  unfold Pool.receive at hReceive
  split at hReceive
  · cases hReceive
  · cases hReceive
    exact { hCustody with }

/-- Nothing was opened for the jobs that are dropped. -/
theorem custody_shutdown (hCustody : l.Custody) :
    ({ l with pool := l.pool.discard.2, dropped := l.dropped ++ l.pool.queue } :
      PoolLedger).Custody where
  queue job hMem := by cases hMem
  running := hCustody.running
  sent := hCustody.sent
  absent := by
    intro owner hAbsent
    by_cases hWaiting : ∃ job ∈ l.pool.queue, job.index = owner
    · obtain ⟨job, hJob, rfl⟩ := hWaiting
      exact (hCustody.queue job hJob).settled
    · exact hCustody.absent owner
        ⟨fun job hJob hEq => hWaiting ⟨job, hJob, hEq⟩, hAbsent.2⟩

/-- The end by force closes what the workers hold. -/
theorem custody_close (hCustody : l.Custody) (hApart : l.Apart) : l.close.Custody where
  queue job hMem := by cases hMem
  running a hMem := by cases hMem
  sent o hMem := by
    refine (hCustody.sent o hMem).append (spares_closeAll Attempt.index Attempt.held ?_)
    intro hIndex
    obtain ⟨a, hA, hEq⟩ := List.mem_map.mp hIndex
    exact hApart.running_sent a hA o hMem hEq
  absent := by
    intro owner hAbsent
    by_cases hWorking : ∃ a ∈ l.pool.running, a.index = owner
    · obtain ⟨a, hA, rfl⟩ := hWorking
      exact Settled.closeAll Attempt.index Attempt.held hApart.running hA
        (hCustody.running a hA).settled
    · have hSpares : Spares (closeAll Attempt.index Attempt.held l.pool.running) owner := by
        refine spares_closeAll _ _ fun hIndex => ?_
        obtain ⟨a, hA, hEq⟩ := List.mem_map.mp hIndex
        exact hWorking ⟨a, hA, hEq⟩
      refine Settled.append ?_ hSpares
      by_cases hWaiting : ∃ job ∈ l.pool.queue, job.index = owner
      · obtain ⟨job, hJob, rfl⟩ := hWaiting
        exact (hCustody.queue job hJob).settled
      · exact hCustody.absent owner
          ⟨fun job hJob hEq => hWaiting ⟨job, hJob, hEq⟩,
            fun a hA hEq => hWorking ⟨a, hA, hEq⟩, hAbsent.2.2⟩

theorem custody_step {move : PoolMove} (hCustody : l.Custody) (hApart : l.Apart)
    (hBalanced : l.Balanced ctx size jobs) (hStep : l.step ctx move = some after) :
    after.Custody := by
  cases stepsTo_of_step hStep with
  | task hTask => exact custody_task hCustody hApart hBalanced (Pool.step_change hTask)
  | receive hReceive => exact custody_receive hCustody hReceive
  | shutdown => exact custody_shutdown hCustody
  | settle | expire => exact custody_close hCustody hApart

/-- At any time every handle is held, or was closed once. -/
theorem custody_play {moves : List PoolMove} (hJobs : (jobs.map Job.index).Nodup)
    (hPlay : (start size jobs).play ctx moves = some l) : l.Custody := by
  have hBoth : l.Balanced ctx size jobs ∧ l.Custody := by
    refine playSchedule_keeps (P := fun l => l.Balanced ctx size jobs ∧ l.Custody) moves
      (fun _ _ before next hBefore hStep => ?_)
      ⟨balanced_start ctx size jobs, custody_start size jobs⟩ hPlay
    obtain ⟨hBalanced, hCustody⟩ := hBefore
    exact ⟨balanced_step hBalanced hStep,
      custody_step hCustody (hBalanced.apart hJobs) hBalanced hStep⟩
  exact hBoth.2

end PoolLedger

end RelayRace
