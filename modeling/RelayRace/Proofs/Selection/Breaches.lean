import RelayRace.Proofs.Probe.Reports
import RelayRace.Proofs.Selection.Conclusion
import RelayRace.Proofs.Selection.PoolLedger
import RelayRace.Proofs.Selection.RaceStep
import RelayRace.Selection.Round

/-!
# The failures of a pool and its log

A pool tells the log of failed attempts and forgets them.  `Pool.breach?` is the
attempt that an event makes fail, read off the steps of attempts, and what an event
writes is the report of that failure and nothing else but the line of a worker that
crashed (`Tells`).  So the log of a round is the account of its failed attempts
in the order in which they failed.

An attempt never changes its protocol, and notes once, when it begins, whether it
goes through the proxy.
-/

namespace RelayRace

/-! ## Failed attempts -/

/-- An attempt that failed, as it was then, and how. -/
structure Breach where
  attempt : Attempt
  failure : Failure
  deriving DecidableEq, Repr

/-- The failure of an attempt as it is reported. -/
def Breach.report (b : Breach) : FailedProbe := ⟨b.attempt.candidate.ipAddress, b.failure⟩

namespace Progress

/-- The attempt that a step is about. -/
def attempt : Progress → Attempt
  | .waiting a | .broken a _ | .connected a => a

/-- The failure that a step comes to, if it comes to one. -/
def breach? : Progress → Option Breach
  | .broken a failure => some ⟨a, failure⟩
  | .waiting _ | .connected _ => none

theorem attempt_of_breach? {progress : Progress} {b : Breach}
    (hBreach : progress.breach? = some b) : b.attempt = progress.attempt := by
  cases progress with
  | broken a failure =>
      cases hBreach
      rfl
  | waiting a | connected a => cases hBreach

end Progress

/-! ## Lines -/

/-- Whether a line is one that a report writes. -/
def Notice.isReport : Notice → Bool
  | .probeFailed .. | .proxyConnectError .. | .networkUnreachable .. => true
  | .selecting .. | .rotated .. | .fetchFailed .. | .fetchedRecently | .fetched ..
  | .awaitingConnectivity | .regionSelected .. | .proxyChaining .. | .viaProxy ..
  | .probeCrashed .. | .responseCheck .. | .preferredServers .. | .selected .. => false

/-- The reports among the lines of some acts. -/
def reportLines (acts : List Act) : List Notice := (notices acts).filter Notice.isReport

@[simp] theorem notices_append (acts more : List Act) :
    notices (acts ++ more) = notices acts ++ notices more :=
  List.filterMap_append

@[simp] theorem notices_map_noted (lines : List Notice) : notices (lines.map .noted) = lines := by
  simp [notices, List.filterMap_map]

@[simp] theorem Holdings.notices_closing (held : Holdings) (owner : Nat) :
    notices (held.closing owner) = [] := by
  simp [notices, Holdings.closing, List.filterMap_map]

@[simp] theorem reportLines_append (acts more : List Act) :
    reportLines (acts ++ more) = reportLines acts ++ reportLines more := by
  rw [reportLines, notices_append, List.filter_append]
  rfl

namespace RoundContext

variable (ctx : RoundContext)

/-- Every line of a report is one. -/
theorem isReport_of_report {told : Bool} {address : String} {failure : Failure} :
    ∀ line ∈ (ctx.report told address failure).1, line.isReport = true := by
  intro line hMem
  unfold report at hMem
  split at hMem
  · cases hMem
  · split at hMem
    · split at hMem
      · cases hMem
      · split at hMem <;> cases List.mem_singleton.mp hMem <;> rfl
    · cases List.mem_singleton.mp hMem
      rfl

/-- The log after an event in which this attempt failed, if one did. -/
def tell (log : RoundLog) : Option Breach → RoundLog
  | some b => ctx.record log b.report
  | none => log

end RoundContext

/-! ## The steps of an attempt -/

/-- A step of an attempt on a path, that is, over a protocol and through the proxy
or not.  It stays on its path, and logs nothing. -/
structure Progress.OnPath (protocol : Protocol) (usedProxy : Bool)
    (step : Progress × List Act) : Prop where
  protocol : step.1.attempt.protocol = protocol
  usedProxy : step.1.attempt.usedProxy = usedProxy
  mute : notices step.2 = []

namespace Attempt

variable {ctx : RoundContext} {m : Moment} {a : Attempt} {protocol : Protocol}
  {usedProxy : Bool} {acts : List Act} {step : Progress × List Act}

theorem onPath_enter (stage : Stage) (inquiry : Inquiry) :
    Progress.OnPath a.protocol a.usedProxy (a.enter ctx m stage inquiry) := by
  unfold enter
  split
  · exact ⟨rfl, rfl, rfl⟩
  · exact ⟨rfl, rfl, rfl⟩

theorem onPath_after (hMute : notices acts = []) (hStep : Progress.OnPath protocol usedProxy step) :
    Progress.OnPath protocol usedProxy (after acts step) :=
  ⟨hStep.protocol, hStep.usedProxy, by rw [after, notices_append, hMute, hStep.mute]; rfl⟩

theorem onPath_needsTunnel (hStep : Progress.OnPath protocol usedProxy step) :
    Progress.OnPath protocol usedProxy (needsTunnel step) := by
  obtain ⟨progress, acts⟩ := step
  cases progress with
  | broken a failure =>
      refine ⟨hStep.protocol, hStep.usedProxy, ?_⟩
      rw [needsTunnel, notices_append, hStep.mute]
      rfl
  | waiting a | connected a => exact hStep

theorem onPath_dial (endpoint : Endpoint) :
    Progress.OnPath a.protocol a.usedProxy (a.dial ctx m endpoint) := by
  unfold dial
  split
  · exact onPath_enter _ _
  · split
    · exact ⟨rfl, rfl, rfl⟩
    · exact onPath_after rfl (onPath_enter _ _)

theorem onPath_dialedDirect :
    Progress.OnPath a.protocol a.usedProxy (a.holdSocket.dialedDirect ctx m) := by
  unfold dialedDirect
  split
  · exact onPath_needsTunnel (@onPath_enter ctx m a.holdSocket _ _)
  · exact @onPath_enter ctx m a.holdSocket _ _

theorem onPath_noteFront :
    Progress.OnPath a.protocol a.usedProxy (a.holdSocket.noteFront.shake ctx m) := by
  obtain ⟨-, -, hProtocol, -, hUsedProxy⟩ := a.holdSocket.noteFront_fields
  have hShake : Progress.OnPath a.holdSocket.noteFront.protocol a.holdSocket.noteFront.usedProxy
      (a.holdSocket.noteFront.shake ctx m) := onPath_enter _ _
  rwa [hProtocol, hUsedProxy] at hShake

theorem onPath_answer (given : Answer) :
    Progress.OnPath a.protocol a.usedProxy (a.answer ctx m given) := by
  unfold answer
  split
  case h_1 endpoint _ => exact onPath_dial endpoint
  case h_3 => exact onPath_after rfl onPath_dialedDirect
  case h_5 => exact onPath_enter _ _
  case h_6 => exact onPath_needsTunnel ⟨rfl, rfl, rfl⟩
  case h_7 => exact onPath_after rfl (onPath_enter _ _)
  case h_9 => exact onPath_after rfl onPath_noteFront
  all_goals exact ⟨rfl, rfl, rfl⟩

theorem onPath_poll : Progress.OnPath a.protocol a.usedProxy (a.poll ctx m) := by
  unfold poll
  split
  · split
    · exact onPath_needsTunnel ⟨rfl, rfl, rfl⟩
    · exact ⟨rfl, rfl, rfl⟩
  · exact ⟨rfl, rfl, rfl⟩

/-- Whether an attempt is noted as one that goes through the proxy exactly if it is a
direct one and there is a proxy. -/
def Routed (ctx : RoundContext) (a : Attempt) : Prop :=
  a.usedProxy = (!a.protocol.usesSubServer && ctx.proxy.isSome)

end Attempt

/-- What holds of the failure that a step over this protocol may come to. -/
structure Progress.Fails (ctx : RoundContext) (protocol : Protocol)
    (step : Progress × List Act) : Prop where
  protocol : step.1.attempt.protocol = protocol
  /-- An attempt that fails before it has taken its way does so for want of something
  that the candidate lacks. -/
  routed : ∀ b, step.1.breach? = some b → b.failure.ProxyRelated → b.attempt.Routed ctx
  mute : notices step.2 = []

theorem Progress.OnPath.fails {ctx : RoundContext} {a : Attempt} {step : Progress × List Act}
    (hStep : Progress.OnPath a.protocol a.usedProxy step) (hRouted : a.Routed ctx) :
    Progress.Fails ctx a.protocol step where
  protocol := hStep.protocol
  routed b hBreach _ := by
    rw [Progress.attempt_of_breach? hBreach, Attempt.Routed, hStep.protocol, hStep.usedProxy]
    exact hRouted
  mute := hStep.mute

namespace Attempt

variable {ctx : RoundContext} {m : Moment} {a : Attempt}

theorem fails_beginDirect (hDirect : a.protocol.usesSubServer = false) :
    Progress.Fails ctx a.protocol (a.beginDirect ctx m) := by
  have hRouted : ({ a with usedProxy := ctx.proxy.isSome } : Attempt).Routed ctx := by
    simp [Routed, hDirect]
  exact (onPath_enter _ _).fails hRouted

theorem fails_beginSubServer (hFresh : a.usedProxy = false)
    (hSub : a.protocol.usesSubServer = true) :
    Progress.Fails ctx a.protocol (a.beginSubServer ctx m) := by
  have hRouted : a.Routed ctx := by
    simp [Routed, hSub, hFresh]
  unfold beginSubServer
  split
  · exact (⟨rfl, rfl, rfl⟩ : Progress.OnPath a.protocol a.usedProxy _).fails hRouted
  · have hHeld : ({ a with held := { a.held with subServer := true } } : Attempt).Routed ctx :=
      hRouted
    exact (onPath_after rfl (onPath_enter _ _)).fails hHeld

theorem fails_start (hFresh : a.usedProxy = false) :
    Progress.Fails ctx a.protocol (a.start ctx m) := by
  unfold start
  split
  · refine ⟨rfl, fun b hBreach hRelated => ?_, rfl⟩
    cases hBreach
    cases hRelated
  · dsimp only
    split
    · rename_i port _ hSub
      exact @fails_beginSubServer ctx m { a with port } hFresh hSub
    · rename_i port _ hDirect
      exact @fails_beginDirect ctx m { a with port } (by simpa using hDirect)

end Attempt

/-! ## The turns of a worker -/

/-- What some acts and the flag after them add to the log, given the attempt that
failed in them, if one did. -/
structure Tells (ctx : RoundContext) (log : RoundLog) (breach : Option Breach) (told : Bool)
    (acts : List Act) : Prop where
  told : told = (ctx.tell log breach).told
  lines : log.lines ++ reportLines acts = (ctx.tell log breach).lines
  /-- The only other line is that of a worker that crashed. -/
  others : ∀ line ∈ notices acts, line.isReport = true ∨ ∃ address, line = .probeCrashed address

/-- Acts without a line tell of no failure. -/
theorem tells_mute {ctx : RoundContext} {log : RoundLog} {acts : List Act}
    (hMute : notices acts = []) : Tells ctx log none log.told acts where
  told := rfl
  lines := by
    rw [reportLines, hMute, List.filter_nil, List.append_nil]
    rfl
  others line hMem := by
    rw [hMute] at hMem
    cases hMem

/-- The attempt that a worker makes of a job over a protocol. -/
def Job.attempt (job : Job) (protocol : Protocol) (now : Instant) : Attempt where
  index := job.index
  dispatched := job.candidate
  candidate := { job.candidate with connType := some protocol }
  protocol
  began := now
  due := now

/-- The failure of the attempt at a job that fails as soon as it begins. -/
def Job.breach? (ctx : RoundContext) (m : Moment) (job : Job) : Option Breach :=
  match TargetSequence.choose ctx.targets job.candidate with
  | some protocol => ((job.attempt protocol m.now).start ctx m).1.breach?
  | none => none

namespace Worker

variable {ctx : RoundContext} {m : Moment} {log : RoundLog}

theorem tells_settle :
    ∀ {step : Progress × List Act}, notices step.2 = [] →
      Tells ctx log step.1.breach? (settle ctx m log.told step).told
        (settle ctx m log.told step).acts
  | (.waiting _, _), hMute => tells_mute hMute
  | (.connected _, _), hMute => tells_mute hMute
  | (.broken a failure, acts), hMute => by
      have hLines : notices (settle ctx m log.told (.broken a failure, acts)).acts =
          (ctx.report log.told a.candidate.ipAddress failure).1 := by
        have hQuiet : notices acts = [] := hMute
        simp [settle, hQuiet]
      have hReports : ∀ line ∈ notices (settle ctx m log.told (.broken a failure, acts)).acts,
          line.isReport = true := by
        rw [hLines]
        exact ctx.isReport_of_report
      refine ⟨rfl, ?_, fun line hMem => .inl (hReports line hMem)⟩
      rw [reportLines, List.filter_eq_self.mpr hReports, hLines]
      rfl

theorem tells_start (job : Job) :
    Tells ctx log (job.breach? ctx m) (start ctx m log.told job).told
      (start ctx m log.told job).acts := by
  cases hChosen : TargetSequence.choose ctx.targets job.candidate with
  | none =>
      simp only [start, Job.breach?, hChosen]
      exact tells_mute rfl
  | some protocol =>
      have hFails : Progress.Fails ctx protocol ((job.attempt protocol m.now).start ctx m) :=
        @Attempt.fails_start ctx m (job.attempt protocol m.now) rfl
      simp only [start, Job.breach?, hChosen]
      exact tells_settle hFails.mute

theorem tells_answer (a : Attempt) (given : Answer) :
    Tells ctx log (a.answer ctx m given).1.breach? (answer ctx m log.told a given).told
      (answer ctx m log.told a given).acts :=
  tells_settle (Attempt.onPath_answer given).mute

theorem tells_poll (a : Attempt) :
    Tells ctx log (a.poll ctx m).1.breach? (poll ctx m log.told a).told
      (poll ctx m log.told a).acts :=
  tells_settle Attempt.onPath_poll.mute

theorem tells_crash (a : Attempt) :
    Tells ctx log none (crash m log.told a).told (crash m log.told a).acts := by
  have hLines : notices (crash m log.told a).acts = [.probeCrashed a.dispatched.ipAddress] := by
    simp only [crash, notices_append, Holdings.notices_closing]
    rfl
  refine ⟨rfl, ?_, fun line hMem => .inr ?_⟩
  · rw [reportLines, hLines]
    exact List.append_nil _
  · rw [hLines] at hMem
    exact ⟨_, List.mem_singleton.mp hMem⟩

end Worker

/-! ## The events of a pool -/

namespace Pool

variable {ctx : RoundContext} {m : Moment} {pool after : Pool} {acts : List Act} {log : RoundLog}

/-- The attempt that an event makes fail, if it makes one fail. -/
def breach? (ctx : RoundContext) (m : Moment) (pool : Pool) : PoolEvent → Option Breach
  | .take => pool.queue.head?.bind fun job => job.breach? ctx m
  | .poll index => (pool.worker? index).bind fun a => (a.poll ctx m).1.breach?
  | .answer index given => (pool.worker? index).bind fun a => (a.answer ctx m given).1.breach?
  | .crash _ => none

theorem tells_apply {index : Nat} {breach : Option Breach} {turn : Turn}
    (hTurn : Tells ctx log breach turn.told turn.acts)
    (hApply : pool.apply index turn = (after, acts)) : Tells ctx log breach after.told acts := by
  obtain ⟨standing, told, turnActs⟩ := turn
  cases standing with
  | running a =>
      cases hApply
      exact hTurn
  | ended o =>
      cases hApply
      exact hTurn

theorem tells_take (hTold : log.told = pool.told) (hTake : pool.take ctx m = some (after, acts)) :
    Tells ctx log (pool.breach? ctx m .take) after.told acts := by
  unfold take at hTake
  split at hTake
  · cases hTake
  · split at hTake
    · rename_i hQueue
      cases hTake
      rw [breach?, hQueue, ← hTold]
      exact tells_mute rfl
    · rename_i job rest hQueue
      have hTurn : Tells ctx log (job.breach? ctx m) (Worker.start ctx m pool.told job).told
          (Worker.start ctx m pool.told job).acts := by
        rw [← hTold]
        exact Worker.tells_start job
      rw [breach?, hQueue]
      generalize Worker.start ctx m pool.told job = turn at hTake hTurn
      obtain ⟨standing, told, turnActs⟩ := turn
      cases standing with
      | running a =>
          cases hTake
          exact hTurn
      | ended o =>
          cases hTake
          exact hTurn

/-- Every event of a pool adds to the log the report of the attempt that failed in it. -/
theorem tells_step {event : PoolEvent} (hTold : log.told = pool.told)
    (hStep : pool.step ctx m event = some (after, acts)) :
    Tells ctx log (pool.breach? ctx m event) after.told acts := by
  cases event with
  | take => exact tells_take hTold hStep
  | poll index =>
      simp only [step] at hStep
      split at hStep
      · rename_i a hFind
        split at hStep
        · rw [breach?, hFind]
          rw [← hTold] at hStep
          exact tells_apply (Worker.tells_poll a) (Option.some.inj hStep)
        · cases hStep
      · cases hStep
  | answer index given =>
      simp only [step] at hStep
      split at hStep
      · rename_i a hFind
        rw [breach?, hFind]
        rw [← hTold] at hStep
        exact tells_apply (Worker.tells_answer a given) (Option.some.inj hStep)
      · cases hStep
  | crash index =>
      simp only [step] at hStep
      split at hStep
      · rename_i a hFind
        rw [← hTold] at hStep
        exact tells_apply (Worker.tells_crash a) (Option.some.inj hStep)
      · cases hStep

end Pool

/-! ## Whose failures they are -/

/-- What holds of a failed attempt at a job. -/
structure Breach.Sound (ctx : RoundContext) (job : Job) (b : Breach) : Prop where
  serves : b.attempt.Serves ctx job
  /-- If it failed in a way in which a broken proxy shows itself, it had noted whether it
  goes through the proxy. -/
  routed : b.failure.ProxyRelated → b.attempt.Routed ctx

theorem Progress.Lawful.sound {ctx : RoundContext} {job : Job} {before : Holdings}
    {protocol : Protocol} :
    ∀ {step : Progress × List Act}, Progress.Lawful ctx job before step →
      Progress.Fails ctx protocol step → ∀ b, step.1.breach? = some b → b.Sound ctx job
  | (.broken a failure, _), hLawful, hFails, b, hBreach => by
      cases hBreach
      exact ⟨hLawful.1, hFails.routed _ rfl⟩
  | (.waiting _, _), _, _, _, hBreach => by cases hBreach
  | (.connected _, _), _, _, _, hBreach => by cases hBreach

namespace Pool

variable {ctx : RoundContext} {m : Moment} {pool : Pool}

/-- Whoever fails in a pool was at work on one of its jobs, or took it and failed at
once. -/
theorem sound_breach {event : PoolEvent} {b : Breach} {jobs : List Job}
    (hRunning : ∀ a ∈ pool.running, ∃ job ∈ jobs, a.Sound ctx job)
    (hQueue : ∀ job ∈ pool.queue, job ∈ jobs)
    (hBreach : pool.breach? ctx m event = some b) : ∃ job ∈ jobs, b.Sound ctx job := by
  cases event with
  | take =>
      obtain ⟨job, hHead, hJob⟩ := Option.bind_eq_some_iff.mp hBreach
      refine ⟨job, hQueue job (List.mem_of_head? hHead), ?_⟩
      unfold Job.breach? at hJob
      split at hJob
      · rename_i protocol hChosen
        have hBegun : (job.attempt protocol m.now).Begun ctx job :=
          ⟨rfl, rfl, hChosen, rfl, rfl, rfl⟩
        exact (Attempt.lawful_start hBegun).sound (Attempt.fails_start rfl) b hJob
      · cases hJob
  | poll index =>
      obtain ⟨a, hFind, hPoll⟩ := Option.bind_eq_some_iff.mp hBreach
      obtain ⟨job, hJob, hSound⟩ := hRunning a (mem_of_worker? hFind)
      exact ⟨job, hJob, (Attempt.lawful_poll hSound).sound
        (Attempt.onPath_poll.fails hSound.usedProxy) b hPoll⟩
  | answer index given =>
      obtain ⟨a, hFind, hAnswer⟩ := Option.bind_eq_some_iff.mp hBreach
      obtain ⟨job, hJob, hSound⟩ := hRunning a (mem_of_worker? hFind)
      exact ⟨job, hJob, (Attempt.lawful_answer hSound given).sound
        ((Attempt.onPath_answer given).fails hSound.usedProxy) b hAnswer⟩
  | crash index => cases hBreach

end Pool

/-! ## The events of a race -/

namespace Race

variable {settings : Settings} {ctx : RoundContext} {amb : Ambient} {race next : Race}
  {acts : List Act} {log : RoundLog}

/-- The attempt that an event of a race makes fail, if it makes one fail. -/
def breach? (ctx : RoundContext) (race : Race) (amb : Ambient) : Event → Option Breach
  | .pool event => race.pool.breach? ctx (race.moment amb) event
  | .receive | .tick | .settle | .expire => none

theorem sound_breach {event : Event} {b : Breach} {jobs : List Job}
    (hRunning : ∀ a ∈ race.pool.running, ∃ job ∈ jobs, a.Sound ctx job)
    (hQueue : ∀ job ∈ race.pool.queue, job ∈ jobs)
    (hBreach : race.breach? ctx amb event = some b) : ∃ job ∈ jobs, b.Sound ctx job := by
  cases event with
  | pool event => exact Pool.sound_breach hRunning hQueue hBreach
  | receive | tick | settle | expire => cases hBreach

theorem notices_kill (pool : Pool) : notices pool.kill.2 = [] := by
  unfold Pool.kill
  induction pool.running with
  | nil => rfl
  | cons a rest ih =>
      rw [List.flatMap_cons, notices_append, Worker.kill, Holdings.notices_closing]
      exact ih

/-- Every event of a race adds to the log the report of the attempt that failed in it. -/
theorem tells_step {event : Event} (hTold : log.told = race.pool.told)
    (hStep : race.step settings ctx amb event = some (next, acts)) :
    Tells ctx log (race.breach? ctx amb event) next.pool.told acts := by
  cases stepsTo_of_step hStep with
  | pool _ hTask => exact Pool.tells_step hTold hTask
  | @receive outcome pool _ hReceive =>
      have hSame : pool.told = race.pool.told := by
        unfold Pool.receive at hReceive
        split at hReceive <;> cases hReceive
        rfl
      show Tells ctx log none pool.told []
      rw [hSame, ← hTold]
      exact tells_mute rfl
  | winds | waits =>
      show Tells ctx log none race.pool.told []
      rw [← hTold]
      exact tells_mute rfl
  | crashes | settles | expires =>
      show Tells ctx log none race.pool.told race.pool.kill.2
      rw [← hTold]
      exact tells_mute (notices_kill race.pool)

end Race

/-! ## The events of a round -/

namespace Round

variable {c next : Coordinator} {request : SelectionRequest} {amb : Ambient}
  {round later : Round} {event : RoundEvent} {acts : List Act}

/-- The attempt that an event of a round makes fail, if it makes one fail. -/
def breach? (round : Round) (amb : Ambient) : RoundEvent → Option Breach
  | .look _ | .wake => none
  | .race event =>
      match round.phase with
      | .racing ctx race => race.breach? ctx amb event
      | .asking | .sleeping _ | .ended _ | .crashed => none

/-- A round that is set up tells of the region and the proxy. -/
theorem of_mem_setUpNotices {scene : Scene} {act : Act} (hMem : act ∈ setUpNotices scene) :
    act = .noted (.regionSelected scene.region) ∨
      act = .noted (.proxyChaining scene.proxy.isSome) ∨
        ∃ host port, act = .noted (.viaProxy host port) := by
  rcases List.mem_append.mp hMem with hTold | hVia
  · simp only [List.mem_cons, List.not_mem_nil, or_false] at hTold
    exact hTold.imp_right .inl
  · cases hProxy : scene.proxy with
    | none =>
        rw [hProxy] at hVia
        cases hVia
    | some proxy =>
        rw [hProxy] at hVia
        exact .inr (.inr ⟨_, _, List.mem_singleton.mp hVia⟩)

/-- What a round does when it sends its probes out: it brings the resolvers in line and
reads the list, tells how it is set up unless it crashes, and concludes if there is
nobody to probe. -/
theorem acts_dispatch (c : Coordinator) (request : SelectionRequest) (amb : Ambient)
    (round : Round) (scene : Scene) :
    ∃ setUp last, (dispatch c request amb round scene).2.2 =
        .refreshedResolvers :: .readList :: (setUp ++ last) ∧
      (∀ act ∈ setUp, act ∈ setUpNotices scene) ∧ ∀ act ∈ last, act.OfConclusion := by
  unfold dispatch
  generalize probeOrder c.generator c.settings.poolSize c.list.entries = order
  obtain ⟨ordered, generator⟩ := order
  cases scene.regionCrashes with
  | true => exact ⟨[], [], rfl, by simp, by simp⟩
  | false =>
      simp only [Bool.false_eq_true, if_false]
      split
      · exact ⟨setUpNotices scene, _, rfl, fun _ hMem => hMem,
          Conclusion.ofConclusion_of _ _ _ _ _⟩
      · exact ⟨setUpNotices scene, [], (List.append_nil _).symm ▸ rfl, fun _ hMem => hMem,
          by simp⟩

/-- What an event of a round whose probes are out comes to: its race takes a step, and
the round goes on racing, or it is over for good and what else it does are acts of a
conclusion. -/
structure Races (c : Coordinator) (amb : Ambient) (ctx : RoundContext) (race : Race)
    (event : RoundEvent) (later : Round) (acts : List Act) (raceEvent : Race.Event) (after : Race)
    (raceActs more : List Act) : Prop where
  event : event = .race raceEvent
  step : race.step c.settings ctx amb raceEvent = some (after, raceActs)
  acts : acts = raceActs ++ more
  more : ∀ act ∈ more, act.OfConclusion
  later : later.phase = .racing ctx after ∨ later.phase = .crashed ∨
    ∃ winner, later.phase = .ended winner

theorem races_of_step {ctx : RoundContext} {race : Race} (hRacing : round.phase = .racing ctx race)
    (hStep : round.step c request amb event = some (next, later, acts)) :
    ∃ raceEvent after raceActs more,
      Races c amb ctx race event later acts raceEvent after raceActs more := by
  cases event with
  | look scene => simp [step, hRacing] at hStep
  | wake => simp [step, hRacing] at hStep
  | race raceEvent =>
      simp only [step, hRacing] at hStep
      split at hStep
      · rename_i after raceActs hRace
        refine ⟨raceEvent, after, raceActs, ?_⟩
        match hOver : after.phase with
        | .over =>
            cases hCrashed : after.crashed with
            | true =>
                simp only [afterRace, hOver, hCrashed, if_true, Option.some.injEq] at hStep
                cases hStep
                exact ⟨_, rfl, hRace, rfl, Conclusion.ofConclusion_releaseAll _, .inr (.inl rfl)⟩
            | false =>
                simp only [afterRace, hOver, hCrashed, Bool.false_eq_true, if_false,
                  Option.some.injEq] at hStep
                cases hStep
                exact ⟨_, rfl, hRace, rfl, Conclusion.ofConclusion_of _ _ _ _ _,
                  .inr (.inr ⟨_, rfl⟩)⟩
        | .waiting | .winding _ =>
            simp only [afterRace, hOver, Option.some.injEq] at hStep
            cases hStep
            have hNone : ∀ act ∈ ([] : List Act), act.OfConclusion := by simp
            exact ⟨[], rfl, hRace, (List.append_nil _).symm, hNone, .inl rfl⟩
      · cases hStep

end Round

end RelayRace
