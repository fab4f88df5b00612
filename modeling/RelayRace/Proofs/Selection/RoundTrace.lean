import RelayRace.Proofs.Random.Shuffle
import RelayRace.Proofs.Selection.RaceLedger
import RelayRace.Proofs.Selection.Reorderings
import RelayRace.Selection.Round

/-!
# Rounds from beginning to end

A trace keeps a round together with all that it did, the outcomes that its race
has received, and the last reading of the abort signal.  It is played by a
schedule of events, each with the time and the signals of its moment, so a
statement about every schedule is one about every timing.

`RoundTrace.Stands` says what a round can have come to, as a function of the
coordinator that began it: until the race is over, neither the stored list nor
anything else that lasts is touched but for the draws of the dispatch, and a
round that concludes does so from exactly the outcomes that the ledger of its
race has received.
-/

namespace RelayRace

/-! ## What a round works on, told from its beginning -/

namespace Coordinator

/-- The order in which a round goes through the stored list, and the generator
after it was drawn. -/
def probes (c : Coordinator) : List Candidate × Generator :=
  probeOrder c.generator c.settings.poolSize c.list.entries

/-- The coordinator once a round has drawn that order. -/
def probing (c : Coordinator) : Coordinator := { c with generator := c.probes.2 }

/-- The jobs of a round that finds a network in this scene. -/
def jobsIn (c : Coordinator) (scene : Scene) : List Job := jobs (Round.filterOf c scene) c.probes.1

/-- How a round concludes from its outcomes. -/
def conclusion (c : Coordinator) (abort : Bool) (outcomes : List Outcome) : Conclusion :=
  Conclusion.of c.list c.probes.2 c.list.entries.head? abort outcomes

end Coordinator

/-! ## The jobs of a round -/

theorem map_index_numberFrom (candidates : List Candidate) :
    ∀ index, (numberFrom index candidates).map Job.index =
      List.range' index candidates.length := by
  induction candidates with
  | nil => exact fun _ => rfl
  | cons candidate rest ih =>
      intro index
      rw [numberFrom, List.map_cons, ih, List.length_cons, List.range'_succ]

theorem map_candidate_numberFrom (candidates : List Candidate) :
    ∀ index, (numberFrom index candidates).map Job.candidate = candidates := by
  induction candidates with
  | nil => exact fun _ => rfl
  | cons candidate rest ih =>
      intro index
      rw [numberFrom, List.map_cons, ih]

/-- A round goes through all entries, each once. -/
theorem perm_probeOrder (g : Generator) (poolSize : Nat) (snapshot : List Candidate) :
    (probeOrder g poolSize snapshot).1.Perm snapshot := by
  unfold probeOrder
  split
  · exact g.perm_shuffleTail _
  · exact .refl _

/-- The jobs of a round are made of the eligible entries in the order of the round. -/
theorem Coordinator.map_candidate_jobsIn (c : Coordinator) (scene : Scene) :
    (c.jobsIn scene).map Job.candidate = c.probes.1.filter (Round.filterOf c scene).admits :=
  map_candidate_numberFrom _ _

/-- Jobs of one round are told apart by their indices. -/
theorem Coordinator.nodup_jobsIn (c : Coordinator) (scene : Scene) :
    ((c.jobsIn scene).map Job.index).Nodup := by
  rw [jobsIn, jobs, map_index_numberFrom]
  exact List.nodup_range'

/-! ## Traces -/

/-- A round under way with all that it did. -/
structure RoundTrace where
  coordinator : Coordinator
  round : Round := {}
  acts : List Act := []
  /-- The outcomes that its race has received. -/
  outcomes : List Outcome := []
  /-- How the abort signal read at the last event. -/
  aborted : Bool := false

/-- The outcomes that a round has received after an event. -/
def Round.collected (c : Coordinator) (amb : Ambient) (round : Round) :
    RoundEvent → List Outcome
  | .look _ | .wake => []
  | .race event =>
      match round.phase with
      | .racing ctx race =>
          match race.step c.settings ctx amb event with
          | some (next, _) => next.received
          | none => []
      | .asking | .sleeping _ | .ended _ | .crashed => []

/-- Whether a round is over. -/
def Round.isOver (round : Round) : Bool :=
  match round.phase with
  | .ended _ => true
  | .asking | .sleeping _ | .racing .. | .crashed => false

theorem Round.ended_of_isOver {round : Round} (hOver : round.isOver = true) :
    ∃ winner, round.phase = .ended winner := by
  cases hPhase : round.phase with
  | ended winner => exact ⟨winner, rfl⟩
  | asking | sleeping _ | racing _ _ | crashed =>
      rw [isOver, hPhase] at hOver
      cases hOver

namespace RoundTrace

/-- The trace of a round that has not done anything yet. -/
def start (c : Coordinator) : RoundTrace := { coordinator := c }

/-- One event; none when it cannot happen now. -/
def step (request : SelectionRequest) (t : RoundTrace) (event : Ambient × RoundEvent) :
    Option RoundTrace :=
  match t.round.step t.coordinator request event.1 event.2 with
  | some (coordinator, round, acts) =>
      some
        { coordinator, round
          acts := t.acts ++ acts
          outcomes := t.round.collected t.coordinator event.1 event.2
          aborted := event.1.abort }
  | none => none

/-- The trace after a schedule. -/
def play (request : SelectionRequest) (t : RoundTrace) (schedule : List (Ambient × RoundEvent)) :
    Option RoundTrace :=
  playSchedule (step request) t schedule

/-! ## What a round can have come to -/

/-- Acts that leave all handles and the order of the stored list alone. -/
structure Idle (acts : List Act) : Prop where
  quiet : Quiet acts
  order : reorderings acts = []

/-- A round that looks for a network has changed nothing. -/
structure Searches (start : Coordinator) (t : RoundTrace) : Prop where
  phase : t.round.phase = .asking ∨ ∃ sleep, t.round.phase = .sleeping sleep
  coordinator : t.coordinator = start
  idle : Idle t.acts
  outcomes : t.outcomes = []

/-- A round that was aborted before it found a network. -/
structure GaveUp (start : Coordinator) (t : RoundTrace) : Prop where
  phase : t.round.phase = .ended none
  coordinator : t.coordinator =
    { start with statistics := start.statistics.record { aborted := true } }
  idle : Idle t.acts
  outcomes : t.outcomes = []
  aborted : t.aborted = true

/-- A round that crashed when it asked for the region. -/
structure Crashed (start : Coordinator) (t : RoundTrace) : Prop where
  phase : t.round.phase = .crashed
  coordinator : t.coordinator = start.probing
  idle : Idle t.acts
  outcomes : t.outcomes = []

/-- The ledgers that the race of a round in this scene can come to. -/
structure Raced (request : SelectionRequest) (start : Coordinator) (scene : Scene)
    (l : PoolLedger) : Prop where
  reached : l.Reached (Round.contextOf start request scene) start.settings.poolSize
    (start.jobsIn scene)
  order : reorderings l.acts = []

/-- A round whose probes are out. -/
structure Races (request : SelectionRequest) (start : Coordinator) (t : RoundTrace)
    (scene : Scene) (race : Race) (l : PoolLedger) : Prop where
  phase : t.round.phase = .racing (Round.contextOf start request scene) race
  under : race.phase ≠ .over
  first : t.round.first = start.list.entries.head?
  coordinator : t.coordinator = start.probing
  dispatched : race.dispatched = (start.jobsIn scene).length
  raced : Raced request start scene l
  tracks : l.Tracks race
  acts : ∃ before, Idle before ∧ t.acts = before ++ l.acts
  outcomes : t.outcomes = l.received

/-- A round that has concluded. -/
structure Concluded (request : SelectionRequest) (start : Coordinator) (t : RoundTrace)
    (scene : Scene) (l : PoolLedger) : Prop where
  phase : t.round.phase = .ended (start.conclusion t.aborted t.outcomes).winner
  raced : Raced request start scene l
  closed : l.Closed
  outcomes : t.outcomes = l.received
  acts : ∃ before, Idle before ∧
    t.acts = before ++ l.acts ++ (start.conclusion t.aborted t.outcomes).acts
  coordinator : ∃ summary : Summary,
    summary.dispatched = (start.jobsIn scene).length ∧
      summary.completed = t.outcomes.length ∧
      summary.responded = (t.outcomes.filter Outcome.responded).length ∧
      t.coordinator =
        { start with
          list := (start.conclusion t.aborted t.outcomes).list
          generator := (start.conclusion t.aborted t.outcomes).generator
          statistics := start.statistics.record summary }

/-- A round whose race crashed. -/
structure Collapsed (request : SelectionRequest) (start : Coordinator) (t : RoundTrace)
    (scene : Scene) (l : PoolLedger) : Prop where
  phase : t.round.phase = .crashed
  coordinator : t.coordinator = start.probing
  raced : Raced request start scene l
  closed : l.Closed
  outcomes : t.outcomes = l.received
  acts : ∃ before, Idle before ∧ t.acts = before ++ l.acts ++ Conclusion.releaseAll t.outcomes

/-- What a round can have come to, told from the coordinator that began it. -/
inductive Stands (request : SelectionRequest) (start : Coordinator) (t : RoundTrace) : Prop where
  | searches : Searches start t → Stands request start t
  | gaveUp : GaveUp start t → Stands request start t
  | crashed : Crashed start t → Stands request start t
  | collapsed {scene : Scene} {l : PoolLedger} :
      Collapsed request start t scene l → Stands request start t
  | races {scene : Scene} {race : Race} {l : PoolLedger} :
      Races request start t scene race l → Stands request start t
  | concluded {scene : Scene} {l : PoolLedger} :
      Concluded request start t scene l → Stands request start t

/-! ## What a race has received -/

section Received

variable {request : SelectionRequest} {start : Coordinator} {scene : Scene} {l : PoolLedger}

/-- A job of a round is made of an entry of the list that it began with. -/
theorem mem_entries_of_jobsIn {job : Job} (hMem : job ∈ start.jobsIn scene) :
    job.candidate ∈ start.list.entries := by
  have hCandidate : job.candidate ∈ (start.jobsIn scene).map Job.candidate :=
    List.mem_map_of_mem hMem
  rw [start.map_candidate_jobsIn] at hCandidate
  exact (perm_probeOrder _ _ _).mem_iff.mp (List.mem_filter.mp hCandidate).1

/-- What was received is the outcome of one of the jobs. -/
theorem Raced.sound (hRaced : Raced request start scene l) :
    ∀ o ∈ l.received, ∃ job ∈ start.jobsIn scene,
      o.Sound (Round.contextOf start request scene) job := by
  have hBalanced := hRaced.reached.balanced
  intro o hMem
  refine hBalanced.outcomes o ?_
  rw [← hBalanced.received]
  exact List.mem_append_left _ hMem

/-- Every outcome that responded can be made into a winner. -/
theorem Raced.gives (hRaced : Raced request start scene l) :
    ∀ o ∈ l.received, o.responded = true → ∃ w, o.Gives w := by
  intro o hMem hResponded
  obtain ⟨job, -, hSound⟩ := hRaced.sound o hMem
  exact hSound.gives hResponded

theorem Concluded.gives {t : RoundTrace} (hConcluded : Concluded request start t scene l) :
    ∀ o ∈ t.outcomes, o.responded = true → ∃ w, o.Gives w := by
  rw [hConcluded.outcomes]
  exact hConcluded.raced.gives

/-- No two outcomes of a round have one index. -/
theorem Raced.nodup (hRaced : Raced request start scene l) :
    (l.received.map Outcome.index).Nodup := by
  have hBalanced := hRaced.reached.balanced
  have hSent := (hBalanced.apart (start.nodup_jobsIn scene)).sent
  rw [← hBalanced.received, List.map_append] at hSent
  exact (List.nodup_append.mp hSent).1

end Received

/-! ## Idle acts -/

theorem idle_nil : Idle [] := ⟨quiet_nil, rfl⟩

theorem Idle.append {acts more : List Act} (hActs : Idle acts) (hMore : Idle more) :
    Idle (acts ++ more) where
  quiet := hActs.quiet.append hMore.quiet
  order := by rw [reorderings_append, hActs.order, hMore.order]; rfl

theorem idle_awaitsNotice (round : Round) : Idle (.checkedConnectivity :: round.awaitsNotice) := by
  unfold Round.awaitsNotice
  split
  · exact ⟨fun h => by simp, rfl⟩
  · exact ⟨fun h => by simp, rfl⟩

theorem idle_setUp (scene : Scene) :
    Idle (.checkedConnectivity ::
      ([.refreshedResolvers, .readList] ++ Round.setUpNotices scene)) := by
  unfold Round.setUpNotices
  cases scene.proxy with
  | none => exact ⟨fun h => by simp, rfl⟩
  | some proxy => exact ⟨fun h => by simp, rfl⟩

/-! ## Endings -/

variable {request : SelectionRequest} {start : Coordinator} {t after : RoundTrace}

/-- Whether or not there is a winner, the counts of the summary are recorded. -/
theorem finish_coordinator (c : Coordinator) (round : Round) (summary : Summary)
    (winner : Option Winner) :
    ∃ recorded : Summary,
      recorded.dispatched = summary.dispatched ∧ recorded.completed = summary.completed ∧
        recorded.responded = summary.responded ∧
        (Round.finish c round summary winner).1 =
          { c with statistics := c.statistics.record recorded } := by
  cases winner with
  | none => exact ⟨summary, rfl, rfl, rfl, rfl⟩
  | some w =>
      refine ⟨{ summary with
        winner := some w.candidate.ipAddress
        protocol := some w.protocol
        responseTime := some w.responseTime }, rfl, rfl, rfl, rfl⟩

/-- A sleep is called off only when the signal is raised. -/
theorem aborted_of_look {deadline now : Instant} {poll : Duration} {aborted : Bool}
    (hLook : Sleep.look deadline poll now aborted = .aborted) : aborted = true := by
  unfold Sleep.look at hLook
  split at hLook
  · assumption
  · split at hLook <;> cases hLook

/-- A look at the signal in a sleep ends the round or changes nothing. -/
theorem stands_afterLook (round : Round) (amb : Ambient) {look : Sleep.Look} {acts : List Act}
    (hAborted : look = .aborted → amb.abort = true) (hActs : Idle acts) :
    Stands request start
      { coordinator := (Round.afterLook start round amb look).1
        round := (Round.afterLook start round amb look).2
        acts
        outcomes := []
        aborted := amb.abort } := by
  cases look with
  | aborted =>
      have hAbort := hAborted rfl
      exact .gaveUp
        { phase := rfl
          coordinator := by simp [Round.afterLook, Round.giveUp, Round.finish, hAbort]
          idle := hActs
          outcomes := rfl
          aborted := hAbort }
  | rested => exact .searches ⟨.inl rfl, rfl, hActs, rfl⟩
  | asleep sleep => exact .searches ⟨.inr ⟨sleep, rfl⟩, rfl, hActs, rfl⟩

/-- A race that is over is concluded. -/
theorem concluded_of_closed (round : Round) (amb : Ambient) {scene : Scene} {l : PoolLedger}
    {before : List Act} (hFirst : round.first = start.list.entries.head?)
    (hRaced : Raced request start scene l) (hClosed : l.Closed) (hBefore : Idle before)
    {received : List Outcome} (hReceived : received = l.received) :
    Concluded request start
      { coordinator :=
          (Round.conclude start.probing round amb (start.jobsIn scene).length received).1
        round := (Round.conclude start.probing round amb (start.jobsIn scene).length received).2.1
        acts := before ++ l.acts ++
          (Round.conclude start.probing round amb (start.jobsIn scene).length received).2.2
        outcomes := received
        aborted := amb.abort } scene l where
  phase := by
    show RoundPhase.ended (Conclusion.of _ _ round.first amb.abort received).winner = _
    rw [hFirst]
    rfl
  raced := hRaced
  closed := hClosed
  outcomes := hReceived
  acts := by
    refine ⟨before, hBefore, ?_⟩
    show _ ++ (Conclusion.of _ _ round.first amb.abort received).acts = _
    rw [hFirst]
    rfl
  coordinator := by
    obtain ⟨summary, hDispatched, hCompleted, hResponded, hFinish⟩ :=
      finish_coordinator
        { start.probing with
          list := (start.conclusion amb.abort received).list
          generator := (start.conclusion amb.abort received).generator }
        round
        { dispatched := (start.jobsIn scene).length
          completed := received.length
          responded := (received.filter Outcome.responded).length
          aborted := amb.abort }
        (start.conclusion amb.abort received).winner
    refine ⟨summary, hDispatched, hCompleted, hResponded, ?_⟩
    refine Eq.trans ?_ hFinish
    simp only [Round.conclude, hFirst]
    rfl

/-! ## One event -/

/-- What an accepted event does to a trace. -/
theorem step_eq_some {amb : Ambient} {event : RoundEvent}
    (hStep : t.step request (amb, event) = some after) :
    ∃ coordinator round acts,
      t.round.step t.coordinator request amb event = some (coordinator, round, acts) ∧
        after =
          { coordinator, round
            acts := t.acts ++ acts
            outcomes := t.round.collected t.coordinator amb event
            aborted := amb.abort } := by
  unfold step at hStep
  split at hStep
  · rename_i coordinator round acts hRound
    cases hStep
    exact ⟨coordinator, round, acts, hRound, rfl⟩
  · cases hStep

/-- With nobody to probe a round concludes at once. -/
theorem dispatch_nil {round : Round} {amb : Ambient} {scene : Scene}
    (hRegion : scene.regionCrashes = false) (hJobs : start.jobsIn scene = []) :
    Round.dispatch start request amb round scene =
      ((Round.conclude start.probing { round with first := start.list.entries.head? } amb 0 []).1,
        (Round.conclude start.probing { round with first := start.list.entries.head? } amb 0
          []).2.1,
        ([.refreshedResolvers, .readList] ++ Round.setUpNotices scene) ++
          (Round.conclude start.probing { round with first := start.list.entries.head? } amb 0
            []).2.2) := by
  have hEmpty : jobs (Round.filterOf start.probing scene) start.probes.1 = [] := hJobs
  rw [Coordinator.probes, Coordinator.probing, Coordinator.probes] at hEmpty
  simp only [Round.dispatch, hRegion, Bool.false_eq_true, if_false, hEmpty]
  rfl

/-- With somebody to probe a race begins. -/
theorem dispatch_cons {round : Round} {amb : Ambient} {scene : Scene} {job : Job}
    {rest : List Job} (hRegion : scene.regionCrashes = false)
    (hJobs : start.jobsIn scene = job :: rest) :
    Round.dispatch start request amb round scene =
      (start.probing,
        { round with
          first := start.list.entries.head?
          phase := .racing (Round.contextOf start request scene)
            (Race.start start.settings amb.now (start.jobsIn scene)) },
        [.refreshedResolvers, .readList] ++ Round.setUpNotices scene) := by
  rw [hJobs]
  have hSome : jobs (Round.filterOf start.probing scene) start.probes.1 = job :: rest := hJobs
  rw [Coordinator.probes, Coordinator.probing, Coordinator.probes] at hSome
  simp only [Round.dispatch, hRegion, Bool.false_eq_true, if_false, hSome]
  rfl

/-- What a round has come to that has just sent its probes out: its race begins, or
there is nobody to probe and it has concluded. -/
inductive Launched (request : SelectionRequest) (start : Coordinator) (amb : Ambient)
    (scene : Scene) (t : RoundTrace) : Prop where
  | races : start.jobsIn scene ≠ [] →
      Races request start t scene (Race.start start.settings amb.now (start.jobsIn scene))
        (PoolLedger.start start.settings.poolSize (start.jobsIn scene)) →
      Launched request start amb scene t
  | deserted : start.jobsIn scene = [] →
      Concluded request start t scene (PoolLedger.start start.settings.poolSize []) →
      Launched request start amb scene t

theorem launched_dispatch {round : Round} {amb : Ambient} {scene : Scene} {acts : List Act}
    (hActs : Idle acts) (hRegion : scene.regionCrashes = false) :
    Launched request start amb scene
      { coordinator := (Round.dispatch start request amb round scene).1
        round := (Round.dispatch start request amb round scene).2.1
        acts := acts ++ .checkedConnectivity ::
          (Round.dispatch start request amb round scene).2.2
        outcomes := []
        aborted := amb.abort } := by
  have hReached := PoolLedger.reached_start (Round.contextOf start request scene)
    start.settings.poolSize (start.jobsIn scene)
  have hRaced : Raced request start scene
      (PoolLedger.start start.settings.poolSize (start.jobsIn scene)) := ⟨hReached, rfl⟩
  have hSetUp := hActs.append (idle_setUp scene)
  cases hJobs : start.jobsIn scene with
  | nil =>
      rw [hJobs] at hRaced
      rw [dispatch_nil hRegion hJobs]
      have hConcluded :=
        concluded_of_closed { round with first := start.list.entries.head? } amb rfl hRaced
          ⟨rfl, rfl, rfl⟩ hSetUp rfl
      rw [hJobs] at hConcluded
      exact .deserted hJobs (by simpa [PoolLedger.start] using hConcluded)
  | cons job rest =>
      rw [dispatch_cons hRegion hJobs]
      refine .races (by simp [hJobs]) ?_
      exact
        { phase := rfl
          under := by intro hOver; cases hOver
          first := rfl
          coordinator := rfl
          dispatched := rfl
          raced := hRaced
          tracks := PoolLedger.tracks_start _ _ _
          acts := ⟨_, hSetUp, by simp [PoolLedger.start]⟩
          outcomes := rfl }

/-- Sending the probes out crashes, leads to a race, or concludes at once. -/
theorem stands_dispatch {round : Round} {amb : Ambient} {scene : Scene} {acts : List Act}
    (hActs : Idle acts) :
    Stands request start
      { coordinator := (Round.dispatch start request amb round scene).1
        round := (Round.dispatch start request amb round scene).2.1
        acts := acts ++ .checkedConnectivity ::
          (Round.dispatch start request amb round scene).2.2
        outcomes := []
        aborted := amb.abort } := by
  by_cases hCrashes : scene.regionCrashes = true
  · refine .crashed ?_
    simp only [Round.dispatch, hCrashes, if_true]
    exact ⟨rfl, rfl, hActs.append ⟨fun h => by simp, rfl⟩, rfl⟩
  · cases launched_dispatch hActs (by simpa using hCrashes) with
    | races _ hRaces => exact .races hRaces
    | deserted _ hConcluded => exact .concluded hConcluded

/-- A look at the environment gives up, sends the probes out, or rests. -/
theorem stands_look (round : Round) (amb : Ambient) (scene : Scene) {acts : List Act}
    (hActs : Idle acts) :
    Stands request start
      { coordinator := (Round.look start request amb round scene).1
        round := (Round.look start request amb round scene).2.1
        acts := acts ++ (Round.look start request amb round scene).2.2
        outcomes := []
        aborted := amb.abort } := by
  by_cases hOnline : scene.online = true
  · by_cases hAbort : amb.abort = true
    · have hLook : Round.look start request amb round scene =
          ((Round.giveUp start round amb).1, (Round.giveUp start round amb).2,
            [.checkedConnectivity]) := by
        simp only [Round.look, hOnline, hAbort, if_true]
      rw [hLook]
      have hLooked : Idle (acts ++ [.checkedConnectivity]) :=
        hActs.append ⟨fun h => by simp, rfl⟩
      exact stands_afterLook round amb (fun _ : Sleep.Look.aborted = .aborted => hAbort) hLooked
    · have hLook : Round.look start request amb round scene =
          ((Round.dispatch start request amb round scene).1,
            (Round.dispatch start request amb round scene).2.1,
            .checkedConnectivity :: (Round.dispatch start request amb round scene).2.2) := by
        simp only [Round.look, hOnline, hAbort, if_true, Bool.false_eq_true, if_false]
      rw [hLook]
      exact stands_dispatch hActs
  · have hLook : Round.look start request amb round scene =
        ((Round.afterLook start { round with awaitsTold := true } amb
            (Sleep.start amb.now start.settings.connectivityPoll start.settings.connectPoll
              amb.abort)).1,
          (Round.afterLook start { round with awaitsTold := true } amb
            (Sleep.start amb.now start.settings.connectivityPoll start.settings.connectPoll
              amb.abort)).2,
          .checkedConnectivity :: round.awaitsNotice) := by
      simp only [Round.look, hOnline, Bool.false_eq_true, if_false]
    rw [hLook]
    exact stands_afterLook _ amb aborted_of_look (hActs.append (idle_awaitsNotice round))

theorem Searches.step {amb : Ambient} {event : RoundEvent} (hSearches : Searches start t)
    (hStep : t.step request (amb, event) = some after) : Stands request start after := by
  obtain ⟨coordinator, round, acts, hRound, rfl⟩ := step_eq_some hStep
  obtain ⟨hPhase, rfl, hIdle, -⟩ := hSearches
  rcases hPhase with hAsking | ⟨sleep, hSleeping⟩
  · cases event with
    | look scene =>
        simp only [Round.step, hAsking, Option.some.injEq] at hRound
        have hStands : Stands request t.coordinator _ := stands_look t.round amb scene hIdle
        rw [hRound] at hStands
        exact hStands
    | wake => simp [Round.step, hAsking] at hRound
    | race event => simp [Round.step, hAsking] at hRound
  · cases event with
    | look scene => simp [Round.step, hSleeping] at hRound
    | wake =>
        simp only [Round.step, hSleeping] at hRound
        split at hRound
        · cases hRound
          rw [List.append_nil]
          exact stands_afterLook t.round amb aborted_of_look hIdle
        · cases hRound
    | race event => simp [Round.step, hSleeping] at hRound

/-- An event of a race leaves it under way, concludes the round or crashes it, and
the ledger follows. -/
theorem Races.follow {scene : Scene} {race : Race} {l : PoolLedger} {amb : Ambient}
    {event : Race.Event} (hRaces : Races request start t scene race l)
    (hStep : t.step request (amb, .race event) = some after) :
    let ledger := l.follow start.settings (Round.contextOf start request scene) race amb event
    l.received <+: ledger.received ∧
      ((∃ next, Races request start after scene next ledger) ∨
        Concluded request start after scene ledger ∨
          Collapsed request start after scene ledger) := by
  obtain ⟨coordinator, round, acts, hRound, rfl⟩ := step_eq_some hStep
  obtain ⟨before, hBefore, hActs⟩ := hRaces.acts
  obtain ⟨hPhase, -, hFirst, hCoordinator, hDispatched, hRaced, hTracks, -, -⟩ := hRaces
  simp only [Round.step, hPhase] at hRound
  split at hRound
  · rename_i next raceActs hRace
    have hRun : race.step start.settings (Round.contextOf start request scene) amb event =
        some (next, raceActs) := by
      rw [← hRace, hCoordinator]
      rfl
    have hKeepsUp := hTracks.step hRaced.reached hRun
    have hCollected : t.round.collected t.coordinator amb (.race event) = next.received := by
      simp only [Round.collected, hPhase, hRace]
    have hNext : Raced request start scene
        (l.follow start.settings (Round.contextOf start request scene) race amb event) :=
      { reached := hKeepsUp.reached
        order := by
          rw [hKeepsUp.acts, reorderings_append, hRaced.order,
            Race.reorderings_step hRace]
          rfl }
    have hLength := (Race.step_keeps hRace).2.trans hDispatched
    have hReceived := hKeepsUp.tracks.received
    refine ⟨?_, ?_⟩
    · rw [hTracks.received, hReceived]
      exact (Race.step_keeps hRace).1
    rw [hCollected, hActs]
    match hOver : next.phase with
    | .over =>
        have hClosed := hKeepsUp.closed hOver
        cases hCrashed : next.crashed with
        | true =>
            simp only [Round.afterRace, hOver, hCrashed, if_true] at hRound
            cases hRound
            refine .inr (.inr ?_)
            exact
              { phase := rfl
                coordinator := hCoordinator
                raced := hNext
                closed := hClosed
                outcomes := hReceived.symm
                acts := ⟨before, hBefore, by rw [hKeepsUp.acts]; simp only [List.append_assoc]⟩ }
        | false =>
            simp only [Round.afterRace, hOver, hCrashed, Bool.false_eq_true, if_false] at hRound
            cases hRound
            have hConcluded := concluded_of_closed t.round amb hFirst hNext hClosed hBefore
              hReceived.symm
            rw [← hLength, ← hCoordinator, hKeepsUp.acts] at hConcluded
            exact .inr (.inl (by simpa only [List.append_assoc] using hConcluded))
    | .waiting | .winding _ =>
        simp only [Round.afterRace, hOver] at hRound
        cases hRound
        refine .inl ⟨next, ?_⟩
        exact
          { phase := rfl
            under := by
              rw [hOver]
              intro hEq
              cases hEq
            first := hFirst
            coordinator := hCoordinator
            dispatched := hLength
            raced := hNext
            tracks := hKeepsUp.tracks
            acts := ⟨before, hBefore, by rw [hKeepsUp.acts, List.append_assoc]⟩
            outcomes := hReceived.symm }
  · cases hRound

/-- Only an event of the race happens to a round whose probes are out. -/
theorem Races.event_eq {scene : Scene} {race : Race} {l : PoolLedger} {amb : Ambient}
    {event : RoundEvent} (hRaces : Races request start t scene race l)
    (hStep : t.step request (amb, event) = some after) :
    ∃ raceEvent, event = .race raceEvent := by
  cases event with
  | race raceEvent => exact ⟨raceEvent, rfl⟩
  | look _ | wake => simp [RoundTrace.step, Round.step, hRaces.phase] at hStep

/-- Whatever happens to a round whose probes are out, no received outcome is taken
back. -/
theorem Races.step {scene : Scene} {race : Race} {l : PoolLedger} {amb : Ambient}
    {event : RoundEvent} (hRaces : Races request start t scene race l)
    (hStep : t.step request (amb, event) = some after) :
    ∃ ledger, l.received <+: ledger.received ∧
      ((∃ next, Races request start after scene next ledger) ∨
        Concluded request start after scene ledger ∨
          Collapsed request start after scene ledger) := by
  obtain ⟨raceEvent, rfl⟩ := hRaces.event_eq hStep
  exact ⟨_, hRaces.follow hStep⟩

/-- A round that is over takes no further event. -/
theorem step_ended {winner : Option Winner} (hPhase : t.round.phase = .ended winner)
    (event : Ambient × RoundEvent) : t.step request event = none := by
  obtain ⟨amb, event⟩ := event
  cases event <;> simp [step, Round.step, hPhase]

theorem step_crashed (hPhase : t.round.phase = .crashed) (event : Ambient × RoundEvent) :
    t.step request event = none := by
  obtain ⟨amb, event⟩ := event
  cases event <;> simp [step, Round.step, hPhase]

theorem Stands.step {event : Ambient × RoundEvent} (hStands : Stands request start t)
    (hStep : t.step request event = some after) : Stands request start after := by
  cases hStands with
  | searches hSearches => exact hSearches.step hStep
  | races hRaces =>
      obtain ⟨ledger, -, ⟨next, hNext⟩ | hConcluded | hCollapsed⟩ := hRaces.step hStep
      · exact .races hNext
      · exact .concluded hConcluded
      · exact .collapsed hCollapsed
  | gaveUp hGaveUp =>
      rw [step_ended hGaveUp.phase] at hStep
      cases hStep
  | crashed hCrashed =>
      rw [step_crashed hCrashed.phase] at hStep
      cases hStep
  | collapsed hCollapsed =>
      rw [step_crashed hCollapsed.phase] at hStep
      cases hStep
  | concluded hConcluded =>
      rw [step_ended hConcluded.phase] at hStep
      cases hStep

/-- Whatever happens to a round, and whenever, it stands in one of six ways. -/
theorem stands_play {schedule : List (Ambient × RoundEvent)}
    (hPlay : (RoundTrace.start start).play request schedule = some t) :
    Stands request start t :=
  playSchedule_keeps schedule (fun _ _ _ _ hBefore hStep => hBefore.step hStep)
    (.searches ⟨.inl rfl, rfl, idle_nil, rfl⟩) hPlay

/-- A round whose race is under way has sent its probes out. -/
theorem stands_racing {schedule : List (Ambient × RoundEvent)} {ctx : RoundContext} {race : Race}
    (hPlay : (RoundTrace.start start).play request schedule = some t)
    (hRacing : t.round.phase = .racing ctx race) :
    ∃ scene l, Races request start t scene race l := by
  cases stands_play hPlay with
  | searches hSearches =>
      rcases hSearches.phase with hPhase | ⟨sleep, hPhase⟩
      · rw [hPhase] at hRacing
        cases hRacing
      · rw [hPhase] at hRacing
        cases hRacing
  | gaveUp hGaveUp =>
      rw [hGaveUp.phase] at hRacing
      cases hRacing
  | crashed hCrashed =>
      rw [hCrashed.phase] at hRacing
      cases hRacing
  | collapsed hCollapsed =>
      rw [hCollapsed.phase] at hRacing
      cases hRacing
  | @races scene race l hRaces =>
      rw [hRaces.phase] at hRacing
      cases hRacing
      exact ⟨scene, l, hRaces⟩
  | concluded hConcluded =>
      rw [hConcluded.phase] at hRacing
      cases hRacing

/-- A round that is over gave up without a network, or concluded. -/
theorem stands_ended {schedule : List (Ambient × RoundEvent)} {winner : Option Winner}
    (hPlay : (RoundTrace.start start).play request schedule = some t)
    (hEnded : t.round.phase = .ended winner) :
    GaveUp start t ∧ winner = none ∨
      ∃ scene l, Concluded request start t scene l ∧
        winner = (start.conclusion t.aborted t.outcomes).winner := by
  cases stands_play hPlay with
  | searches hSearches =>
      rcases hSearches.phase with hPhase | ⟨sleep, hPhase⟩
      · rw [hPhase] at hEnded
        cases hEnded
      · rw [hPhase] at hEnded
        cases hEnded
  | gaveUp hGaveUp =>
      rw [hGaveUp.phase] at hEnded
      cases hEnded
      exact .inl ⟨hGaveUp, rfl⟩
  | crashed hCrashed =>
      rw [hCrashed.phase] at hEnded
      cases hEnded
  | collapsed hCollapsed =>
      rw [hCollapsed.phase] at hEnded
      cases hEnded
  | races hRaces =>
      rw [hRaces.phase] at hEnded
      cases hEnded
  | @concluded scene l hConcluded =>
      rw [hConcluded.phase] at hEnded
      cases hEnded
      exact .inr ⟨scene, l, hConcluded, rfl⟩

end RoundTrace

/-! ## A small list

Two relays, one reached directly and one through a sub-server, and what may
happen when both are probed. -/

namespace Sample

/-- A relay that is reached directly. -/
def plain : Candidate :=
  { ipAddress := "10.0.0.1", capabilities := [.ossh], sshObfuscatedPort := some 22 }

/-- A relay that is reached through a sub-server. -/
def covered : Candidate :=
  { ipAddress := "10.0.0.2"
    capabilities := [.ssh, .unfrontedMeek]
    sshPort := some 22
    meekServerPort := some 80 }

/-- A coordinator with both relays in its list. -/
def coordinator : Coordinator :=
  { settings := {}
    targets := .standard
    list := { entries := [plain, covered] }
    generator := .ofSeed 7 }

/-- A time in milliseconds at which no signal is raised. -/
def moment (millis : Nat) : Ambient := { now := millis * Duration.perMilli }

/-- A round that finds a network at once, and in whose race this happens. -/
def schedule (events : List (Nat × Race.Event)) : List (Ambient × RoundEvent) :=
  (moment 0, .look {}) :: events.map fun event => (moment event.1, .race event.2)

theorem schedule_append (events more : List (Nat × Race.Event)) :
    schedule (events ++ more) =
      schedule events ++ more.map fun event => (moment event.1, .race event.2) := by
  simp [schedule]

/-- Both relays are probed, and the direct one gets as far as the handshake. -/
def probing : List (Nat × Race.Event) :=
  [(0, .pool .take), (0, .pool .take), (10, .pool (.answer 0 (.resolved (some ⟨.loopback, 22⟩)))),
    (20, .pool (.answer 0 (.dialed none)))]

/-- The relay behind the sub-server responds, and its outcome is received. -/
def coveredResponds : List (Nat × Race.Event) :=
  [(30, .pool (.answer 1 (.started (.ok 4000)))), (35, .pool (.answer 1 (.dialed none))),
    (40, .pool (.answer 1 (.shaken (.ok ())))), (40, .receive)]

/-- The direct relay responds, and its outcome is received. -/
def plainResponds (millis : Nat) : List (Nat × Race.Event) :=
  [(millis, .pool (.answer 0 (.shaken (.ok ())))), (millis, .receive)]

/-- The direct relay's worker crashes, and its outcome is received. -/
def plainCrashes : List (Nat × Race.Event) := [(45, .pool (.crash 0)), (45, .receive)]

/-- The wait ends at the third tick. -/
def waits : List (Nat × Race.Event) := [(50, .tick), (100, .tick), (150, .tick)]

/-- The tasks find no further job, and the race is over. -/
def retires : List (Nat × Race.Event) := [(160, .pool .take), (160, .pool .take), (160, .settle)]

end Sample

end RelayRace
