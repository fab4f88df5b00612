import RelayRace.Proofs.Selection.RoundTrace

/-!
# Every job is accounted for

A job that was given to a pool is at any time in exactly one place, and when the
end has been awaited only three places are left: its outcome was received, it
was dropped before anybody took it, or its worker was ended by force.  Nothing
is dropped unless the pool is shut down, nobody is ended by force unless the
grace period runs out, and what was sent is received in any case.

For a round this means that its summary adds up.
-/

namespace RelayRace

namespace PoolLedger

variable {ctx : RoundContext} {size : Nat} {jobs : List Job} {moves : List PoolMove}
  {l after : PoolLedger}

/-! ## The end -/

/-- A pool whose end was awaited: no task is left that could do anything. -/
structure Ended (l : PoolLedger) : Prop where
  closed : l.Closed
  free : l.pool.free = 0

theorem ended_close (l : PoolLedger) : l.close.Ended := ⟨closed_close l, rfl⟩

/-- After the end nothing happens any more. -/
theorem Ended.step {move : PoolMove} (hEnded : l.Ended)
    (hStep : l.step ctx move = some after) : after.Ended := by
  obtain ⟨⟨hQueue, hRunning, hChannel⟩, hFree⟩ := hEnded
  cases stepsTo_of_step hStep with
  | @task _ event _ _ hTask =>
      have hNobody : ∀ index, l.pool.worker? index = none := by
        intro index
        rw [Pool.worker?, hRunning]
        rfl
      cases event with
      | take => simp [Pool.step, Pool.take, hFree] at hTask
      | poll index | answer index given | crash index => simp [Pool.step, hNobody] at hTask
  | receive hReceive => simp [Pool.receive, hChannel] at hReceive
  | shutdown => exact ⟨⟨rfl, hRunning, hChannel⟩, hFree⟩
  | settle | expire => exact ended_close l

/-- The two moves that await the end close the pool. -/
theorem ended_of_awaited {move : PoolMove} (hAwaits : move = .settle ∨ move = .expire)
    (hStep : l.step ctx move = some after) : after.Ended := by
  cases stepsTo_of_step hStep with
  | task _ | receive _ | shutdown => rcases hAwaits with hEq | hEq <;> cases hEq
  | settle | expire => exact ended_close l

/-- Once the end was awaited, the pool is over. -/
theorem ended_play (hPlay : (start size jobs).play ctx moves = some l)
    (hAwaited : .settle ∈ moves ∨ .expire ∈ moves) : l.Ended := by
  obtain ⟨move, hMove, hAwaits⟩ : ∃ move ∈ moves, move = .settle ∨ move = .expire := by
    rcases hAwaited with hSettle | hExpire
    · exact ⟨.settle, hSettle, .inl rfl⟩
    · exact ⟨.expire, hExpire, .inr rfl⟩
  obtain ⟨early, late, rfl⟩ := List.append_of_mem hMove
  rw [play, playSchedule_append, Option.bind_eq_some_iff] at hPlay
  obtain ⟨before, -, hLate⟩ := hPlay
  rw [playSchedule_cons, Option.bind_eq_some_iff] at hLate
  obtain ⟨next, hStep, hRest⟩ := hLate
  exact playSchedule_keeps late (fun _ _ _ _ hBefore hStep => hBefore.step hStep)
    (ended_of_awaited hAwaits hStep) hRest

/-! ## What does not happen by itself -/

/-- When no outcome can come any more, no job is waiting. -/
theorem Balanced.queue_of_exhausted (hBalanced : l.Balanced ctx size jobs)
    (hExhausted : l.pool.isExhausted = true) : l.pool.queue = [] := by
  simp only [Pool.isExhausted, Bool.and_eq_true, List.isEmpty_iff, beq_iff_eq] at hExhausted
  obtain ⟨⟨hFree, hRunning⟩, -⟩ := hExhausted
  by_cases hWaiting : l.pool.queue = []
  · exact hWaiting
  · have hManned := hBalanced.manned hWaiting
    have hJobs : 0 < jobs.length := by
      have hQueue := List.length_pos_iff.mpr hWaiting
      rw [← hBalanced.order]
      simp only [List.length_append]
      omega
    rw [hFree, hRunning, Pool.taskCount, List.length_nil] at hManned
    omega

/-- Nobody is ended by force as long as the grace period has not run out. -/
theorem killed_play (hPlay : (start size jobs).play ctx moves = some l)
    (hPatient : .expire ∉ moves) : l.killed = [] := by
  refine playSchedule_keeps (P := fun l => l.killed = []) moves
    (fun move hMove before next hBefore hStep => ?_) rfl hPlay
  cases stepsTo_of_step hStep with
  | task _ | receive _ | shutdown => exact hBefore
  | settle hExhausted =>
      simp only [Pool.isExhausted, Bool.and_eq_true, List.isEmpty_iff] at hExhausted
      rw [close, hBefore, hExhausted.1.2]
      rfl
  | expire => exact absurd hMove hPatient

/-- Nothing is dropped as long as the pool is not shut down. -/
theorem dropped_play (hPlay : (start size jobs).play ctx moves = some l)
    (hOpen : .shutdown ∉ moves) (hPatient : .expire ∉ moves) : l.dropped = [] := by
  have hBoth : l.Balanced ctx size jobs ∧ l.dropped = [] := by
    refine playSchedule_keeps (P := fun l => l.Balanced ctx size jobs ∧ l.dropped = []) moves
      (fun move hMove before next hBefore hStep => ?_) ⟨balanced_start ctx size jobs, rfl⟩ hPlay
    obtain ⟨hBalanced, hDropped⟩ := hBefore
    refine ⟨balanced_step hBalanced hStep, ?_⟩
    cases stepsTo_of_step hStep with
    | task _ | receive _ => exact hDropped
    | shutdown => exact absurd hMove hOpen
    | settle hExhausted =>
        rw [close, hDropped, hBalanced.queue_of_exhausted hExhausted]
        rfl
    | expire => exact absurd hMove hPatient
  exact hBoth.2

/-! ## The account of all jobs -/

/-- Where the jobs of a pool are after some moves. -/
structure Accounted (ctx : RoundContext) (size : Nat) (jobs : List Job)
    (moves : List PoolMove) (l : PoolLedger) : Prop where
  /-- Every job is in one place, under its own index. -/
  places : (l.received.map Outcome.index ++ l.pool.channel.map Outcome.index ++
    l.pool.running.map Attempt.index ++ l.killed.map Attempt.index ++
    l.dropped.map Job.index ++ l.pool.queue.map Job.index).Perm (jobs.map Job.index)
  /-- Every outcome is the outcome of one of the jobs. -/
  own : ∀ o ∈ l.sent, ∃ job ∈ jobs, o.Sound ctx job
  /-- What was sent is received or waits in the channel, in the order of sending. -/
  collected : l.received ++ l.pool.channel = l.sent
  /-- No more workers are running than the pool is wide. -/
  width : l.pool.running.length ≤ min (max size 1) jobs.length
  /-- Workers start in the order of the jobs, and nobody started on a job that was
  dropped or waits. -/
  inOrder : l.started ++ l.dropped ++ l.pool.queue = jobs
  /-- When the end was awaited, three places are left, and all that was sent is
  received. -/
  ended : .settle ∈ moves ∨ .expire ∈ moves →
    l.received = l.sent ∧ (l.received.map Outcome.index ++ l.killed.map Attempt.index ++
      l.dropped.map Job.index).Perm (jobs.map Job.index)
  /-- Without a shutdown no more outcomes can come only when everybody's was
  received. -/
  exhausted : .shutdown ∉ moves → .expire ∉ moves → l.pool.isExhausted = true →
    (l.received.map Outcome.index).Perm (jobs.map Job.index)
  /-- Jobs are dropped by a shutdown or by force only. -/
  undropped : .shutdown ∉ moves → .expire ∉ moves → l.dropped = []
  /-- Workers are ended by force only when the grace period is over. -/
  unforced : .expire ∉ moves → l.killed = []

/-- The places of all jobs, told from the order in which they were taken and from
what came of those that were. -/
theorem Balanced.places (hBalanced : l.Balanced ctx size jobs) :
    (l.received.map Outcome.index ++ l.pool.channel.map Outcome.index ++
      l.pool.running.map Attempt.index ++ l.killed.map Attempt.index ++
      l.dropped.map Job.index ++ l.pool.queue.map Job.index).Perm (jobs.map Job.index) := by
  have hSent : l.received.map Outcome.index ++ l.pool.channel.map Outcome.index =
      l.sent.map Outcome.index := by
    rw [← List.map_append, hBalanced.received]
  have hFates : (l.sent.map Outcome.index ++ l.pool.running.map Attempt.index ++
      l.killed.map Attempt.index).Perm (l.started.map Job.index) :=
    (List.perm_append_comm.append_right _).trans hBalanced.fates
  have hOrder : l.started.map Job.index ++ l.dropped.map Job.index ++
      l.pool.queue.map Job.index = jobs.map Job.index := by
    rw [← List.map_append, ← List.map_append, hBalanced.order]
  rw [hSent, ← hOrder]
  exact (hFates.append_right _).append_right _

/-- Whatever the tasks of a pool and its owner do, in whatever order, every job
is accounted for. -/
theorem accounted_play (hPlay : (start size jobs).play ctx moves = some l) :
    l.Accounted ctx size jobs moves := by
  have hBalanced := balanced_play hPlay
  exact
    { places := hBalanced.places
      own := hBalanced.outcomes
      collected := hBalanced.received
      width := by
        have hWidth := hBalanced.width
        rw [Pool.taskCount] at hWidth
        omega
      inOrder := hBalanced.order
      ended := by
        intro hAwaited
        obtain ⟨⟨hQueue, hRunning, hChannel⟩, -⟩ := ended_play hPlay hAwaited
        have hPlaces := hBalanced.places
        have hReceived := hBalanced.received
        rw [hChannel, List.append_nil] at hReceived
        refine ⟨hReceived, ?_⟩
        simpa [hQueue, hRunning, hChannel] using hPlaces
      exhausted := by
        intro hOpen hPatient hExhausted
        have hQueue := hBalanced.queue_of_exhausted hExhausted
        have hDropped := dropped_play hPlay hOpen hPatient
        have hKilled := killed_play hPlay hPatient
        have hPlaces := hBalanced.places
        simp only [Pool.isExhausted, Bool.and_eq_true, List.isEmpty_iff] at hExhausted
        simpa [hQueue, hDropped, hKilled, hExhausted.1.2, hExhausted.2] using hPlaces
      undropped := dropped_play hPlay
      unforced := killed_play hPlay }

end PoolLedger

/-! ## The summary of a round -/

namespace RoundTrace

variable {request : SelectionRequest} {start : Coordinator} {t : RoundTrace} {scene : Scene}
  {l : PoolLedger}

/-- A race receives no more outcomes than there are jobs. -/
theorem Raced.length_le (hRaced : Raced request start scene l) :
    l.received.length ≤ (start.jobsIn scene).length := by
  have hLength := hRaced.reached.balanced.places.length_eq
  simp only [List.length_append, List.length_map] at hLength
  omega

/-- A round whose race has received at least `count` outcomes, and that has
perhaps concluded or crashed since. -/
def Collects (request : SelectionRequest) (start : Coordinator) (scene : Scene) (count : Nat)
    (t : RoundTrace) : Prop :=
  ∃ l, count ≤ l.received.length ∧
    ((∃ race, Races request start t scene race l) ∨ Concluded request start t scene l ∨
      Collapsed request start t scene l)

/-- Received outcomes are never taken back. -/
theorem Collects.step {count : Nat} {event : Ambient × RoundEvent} {after : RoundTrace}
    (hCollects : Collects request start scene count t)
    (hStep : t.step request event = some after) : Collects request start scene count after := by
  obtain ⟨l, hCount, ⟨race, hRaces⟩ | hConcluded | hCollapsed⟩ := hCollects
  · obtain ⟨ledger, hGrows, hNext⟩ := hRaces.step hStep
    exact ⟨ledger, Nat.le_trans hCount hGrows.length_le, hNext⟩
  · rw [step_ended hConcluded.phase] at hStep
    cases hStep
  · rw [step_crashed hCollapsed.phase] at hStep
    cases hStep

/-- A race that has everything when it is looked at has everything in the end. -/
theorem collects_play {early rest : List (Ambient × RoundEvent)} {u : RoundTrace}
    {ctx : RoundContext} {race : Race}
    (hPlay : (RoundTrace.start start).play request (early ++ rest) = some t)
    (hEarly : (RoundTrace.start start).play request early = some u)
    (hRacing : u.round.phase = .racing ctx race) :
    ∃ scene, race.dispatched = (start.jobsIn scene).length ∧
      Collects request start scene race.received.length t := by
  rw [play, playSchedule_append, ← play, hEarly, Option.bind_some] at hPlay
  obtain ⟨scene, l, hRaces⟩ := stands_racing hEarly hRacing
  refine ⟨scene, hRaces.dispatched, ?_⟩
  refine playSchedule_keeps rest (fun _ _ _ _ hBefore hStep => hBefore.step hStep) ?_ hPlay
  exact ⟨l, Nat.le_of_eq (congrArg List.length hRaces.tracks.received.symm), .inl ⟨race, hRaces⟩⟩

/-- The summary of a round that is over, with what it counts. -/
structure Summarises (start : Coordinator) (t : RoundTrace) (summary : Summary) : Prop where
  recorded : t.coordinator.statistics = start.statistics.record summary
  completed : summary.completed = t.outcomes.length
  responded : summary.responded = (t.outcomes.filter Outcome.responded).length
  responded_le : summary.responded ≤ summary.completed
  completed_le : summary.completed ≤ summary.dispatched

theorem Concluded.summarises (hConcluded : Concluded request start t scene l) :
    ∃ summary, Summarises start t summary ∧
      summary.dispatched = (start.jobsIn scene).length := by
  obtain ⟨summary, hDispatched, hCompleted, hResponded, hCoordinator⟩ := hConcluded.coordinator
  refine ⟨summary, ?_, hDispatched⟩
  exact
    { recorded := congrArg Coordinator.statistics hCoordinator
      completed := hCompleted
      responded := hResponded
      responded_le := by
        rw [hResponded, hCompleted]
        exact List.length_filter_le _ _
      completed_le := by
        rw [hDispatched, hCompleted, hConcluded.outcomes]
        exact hConcluded.raced.length_le }

/-- A round is recorded with one summary. -/
theorem Summarises.unique {left right : Summary} (hLeft : Summarises start t left)
    (hRight : Summarises start t right) : left = right := by
  have hLast := congrArg Statistics.last (hLeft.recorded.symm.trans hRight.recorded)
  exact Option.some.inj hLast

/-- Every round that is over is recorded. -/
theorem summarises_ended {schedule : List (Ambient × RoundEvent)} {winner : Option Winner}
    (hPlay : (RoundTrace.start start).play request schedule = some t)
    (hEnded : t.round.phase = .ended winner) : ∃ summary, Summarises start t summary := by
  rcases stands_ended hPlay hEnded with ⟨hGaveUp, -⟩ | ⟨scene, l, hConcluded, -⟩
  · refine ⟨{ aborted := true }, ?_⟩
    exact
      { recorded := by rw [hGaveUp.coordinator]
        completed := by rw [hGaveUp.outcomes]; rfl
        responded := by rw [hGaveUp.outcomes]; rfl
        responded_le := Nat.le_refl _
        completed_le := Nat.le_refl _ }
  · obtain ⟨summary, hSummary, -⟩ := hConcluded.summarises
    exact ⟨summary, hSummary⟩

/-- When a round is over its summary is recorded, and a race that had an outcome
from everyone is counted so. -/
theorem summary_ended {schedule : List (Ambient × RoundEvent)} {winner : Option Winner}
    (hPlay : (RoundTrace.start start).play request schedule = some t)
    (hEnded : t.round.phase = .ended winner) :
    ∃ summary, Summarises start t summary ∧
      ∀ early rest u ctx race, schedule = early ++ rest →
        (RoundTrace.start start).play request early = some u →
        u.round.phase = .racing ctx race →
        summary.dispatched = race.dispatched ∧
          (race.dispatched ≤ race.received.length → summary.completed = summary.dispatched) := by
  have hLater : ∀ early rest u ctx race, schedule = early ++ rest →
      (RoundTrace.start start).play request early = some u →
      u.round.phase = .racing ctx race →
      ∃ scene l, race.dispatched = (start.jobsIn scene).length ∧
        race.received.length ≤ l.received.length ∧ Concluded request start t scene l := by
    rintro early rest u ctx race rfl hEarly hRacing
    obtain ⟨scene, hDispatched, l, hCount, ⟨next, hRaces⟩ | hConcluded | hCollapsed⟩ :=
      collects_play hPlay hEarly hRacing
    · rw [hRaces.phase] at hEnded
      cases hEnded
    · exact ⟨scene, l, hDispatched, hCount, hConcluded⟩
    · rw [hCollapsed.phase] at hEnded
      cases hEnded
  obtain ⟨summary, hSummary⟩ := summarises_ended hPlay hEnded
  refine ⟨summary, hSummary, fun early rest u ctx race hSplit hEarly hRacing => ?_⟩
  obtain ⟨scene, l, hRace, hCount, hSame⟩ := hLater early rest u ctx race hSplit hEarly hRacing
  obtain ⟨other, hOther, hDispatched⟩ := hSame.summarises
  rw [hOther.unique hSummary] at hDispatched
  refine ⟨hDispatched.trans hRace.symm, fun hAll => ?_⟩
  have hLe := hSummary.completed_le
  rw [hDispatched, ← hRace] at hLe ⊢
  rw [hSummary.completed, hSame.outcomes] at hLe ⊢
  omega

/-- Each job of a pool is received under its own index, dropped before it began
or ended by force, whatever the interleaving; and the summary of a round adds
up: no more responded than completed, no more completed than were dispatched,
and as many when an outcome from everyone was there before the end. -/
theorem every_job_accounted_for :
    (∀ (ctx : RoundContext) (size : Nat) (jobs : List Job) (moves : List PoolMove)
        (l : PoolLedger), (PoolLedger.start size jobs).play ctx moves = some l →
        l.Accounted ctx size jobs moves) ∧
      ∀ (request : SelectionRequest) (start : Coordinator)
        (schedule : List (Ambient × RoundEvent)) (t : RoundTrace) (winner : Option Winner),
        (RoundTrace.start start).play request schedule = some t →
        t.round.phase = .ended winner →
        ∃ summary, Summarises start t summary ∧
          ∀ early rest u ctx race, schedule = early ++ rest →
            (RoundTrace.start start).play request early = some u →
            u.round.phase = .racing ctx race →
            summary.dispatched = race.dispatched ∧
              (race.dispatched ≤ race.received.length →
                summary.completed = summary.dispatched) :=
  ⟨fun _ _ _ _ _ hPlay => PoolLedger.accounted_play hPlay,
    fun _ _ _ _ _ hPlay hEnded => summary_ended hPlay hEnded⟩

/-- A pool of two tasks and three jobs whose end comes by force: the outcome that
was sent just before is received, the worker that hangs is ended, and the job
that nobody took is dropped.  And a round with a responder and a crash, both of
which are counted. -/
theorem received_killed_dropped_and_counted :
    (∃ l moves,
      (PoolLedger.start 2 [⟨0, Sample.plain⟩, ⟨1, Sample.covered⟩, ⟨2, Sample.plain⟩]).play
          { targets := Protocol.all } moves = some l ∧
        l.received.map Outcome.index = [1] ∧ l.killed.map Attempt.index = [0] ∧
        l.dropped.map Job.index = [2] ∧ l.received = l.sent) ∧
      ∃ t summary,
        (RoundTrace.start Sample.coordinator).play {}
            (Sample.schedule (Sample.probing ++ Sample.coveredResponds ++ Sample.plainCrashes ++
              (Sample.waits ++ Sample.retires))) = some t ∧
          Summarises Sample.coordinator t summary ∧ summary.dispatched = 2 ∧
          summary.completed = 2 := by
  constructor
  · let m : Moment := ⟨0, false⟩
    let moves : List PoolMove :=
      [.task m .take, .task m .take, .task m (.answer 1 (.started (.ok 4000))),
        .task m (.answer 1 (.dialed none)), .task m (.answer 1 (.shaken (.ok ()))), .shutdown,
        .expire]
    have hRun : ((PoolLedger.start 2
        [⟨0, Sample.plain⟩, ⟨1, Sample.covered⟩, ⟨2, Sample.plain⟩]).play
          { targets := Protocol.all } moves).map (fun l => (l.received.map Outcome.index,
            l.killed.map Attempt.index, l.dropped.map Job.index)) = some ([1], [0], [2]) := by
      decide +kernel
    obtain ⟨l, hPlay, hPlaces⟩ := Option.map_eq_some_iff.mp hRun
    simp only [Prod.mk.injEq] at hPlaces
    have hAccounted := every_job_accounted_for.1 _ _ _ _ l hPlay
    have hCollected := (hAccounted.ended (.inr (by simp [moves]))).1
    exact ⟨l, moves, hPlay, hPlaces.1, hPlaces.2.1, hPlaces.2.2, hCollected⟩
  · have hEarly : ((RoundTrace.start Sample.coordinator).play {}
        (Sample.schedule (Sample.probing ++ Sample.coveredResponds ++ Sample.plainCrashes))).map
          (fun u => match u.round.phase with
            | .racing _ race => (race.dispatched, race.received.length)
            | _ => (0, 0)) = some (2, 2) := by decide +kernel
    have hRun : ((RoundTrace.start Sample.coordinator).play {}
        (Sample.schedule (Sample.probing ++ Sample.coveredResponds ++ Sample.plainCrashes ++
          (Sample.waits ++ Sample.retires)))).map (fun t => t.round.phase) =
        some (.ended (some ⟨1, Sample.covered.wroteBack .unfrontedMeekOssh, .unfrontedMeekOssh,
          false, .ofMillis 40, true⟩)) := by decide +kernel
    obtain ⟨u, hPrefix, hCounts⟩ := Option.map_eq_some_iff.mp hEarly
    obtain ⟨t, hPlay, hEnded⟩ := Option.map_eq_some_iff.mp hRun
    obtain ⟨summary, hSummary, hWhole⟩ := every_job_accounted_for.2 _ _ _ _ _ hPlay hEnded
    cases hRacing : u.round.phase with
    | racing ctx race =>
        rw [hRacing] at hCounts
        obtain ⟨hTwo, hBoth⟩ := Prod.mk.inj hCounts
        obtain ⟨hDispatched, hAll⟩ :=
          hWhole _ _ u ctx race (Sample.schedule_append _ _) hPrefix hRacing
        have hCompleted := hAll (by omega)
        exact ⟨t, summary, hPlay, hSummary, by omega, by omega⟩
    | asking | sleeping _ | ended _ | crashed =>
        rw [hRacing] at hCounts
        cases hCounts

end RoundTrace

end RelayRace
