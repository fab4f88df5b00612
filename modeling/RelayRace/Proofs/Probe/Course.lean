import RelayRace.Proofs.Probe.Worker
import RelayRace.Proofs.Schedule
import RelayRace.Selection.Pool

/-!
# The course of one probe

A worker is started on a job, takes one turn for each thing that happens to it,
and ends with an outcome.  `Probe.play` is that course under a schedule of
answers, looks at the signal and crashes.  Every event brings its own moment, so
a schedule also says when the signal is raised, and it says whether another probe
has told of a shared failure by then.  The turns are the ones that the pool lets
its workers take (`Pool.step_worker`), so what holds of every course holds of
every probe of a round.

The invariant is that of the attempt together with the account of its handles
(`Probe.Lawful`).  It gives what an outcome may claim by what it holds
(`Outcome.Matches`).
-/

namespace RelayRace

/-! ## Turns -/

/-- What can happen to a worker at work. -/
inductive WorkerEvent where
  /-- He looks at his signal. -/
  | look
  /-- He gets the answer that he waits for. -/
  | answer (given : Answer)
  /-- He crashes. -/
  | crash

namespace WorkerEvent

/-- The turn that a worker takes; none when he is not due yet. -/
def turn? (ctx : RoundContext) (m : Moment) (told : Bool) (a : Attempt) :
    WorkerEvent → Option Turn
  | .look => if a.due ≤ m.now then some (Worker.poll ctx m told a) else none
  | .answer given => some (Worker.answer ctx m told a given)
  | .crash => some (Worker.crash m told a)

/-- The same event in a pool. -/
def ofPool (index : Nat) : WorkerEvent → PoolEvent
  | .look => .poll index
  | .answer given => .answer index given
  | .crash => .crash index

theorem lawful_turn {ctx : RoundContext} {job : Job} {m : Moment} {told : Bool} {a : Attempt}
    (hSound : a.Sound ctx job) {event : WorkerEvent} {turn : Turn}
    (hTurn : event.turn? ctx m told a = some turn) : Turn.Lawful ctx job a.held turn := by
  cases event with
  | look =>
      simp only [turn?, Option.ite_none_right_eq_some, Option.some.injEq] at hTurn
      rw [← hTurn.2]
      exact Worker.lawful_poll hSound
  | answer given =>
      cases hTurn
      exact Worker.lawful_answer hSound given
  | crash =>
      cases hTurn
      exact Worker.lawful_crash hSound

end WorkerEvent

/-- A worker in a pool takes the turns that he takes by himself. -/
theorem Pool.step_worker {ctx : RoundContext} {m : Moment} {pool : Pool} {index : Nat} {a : Attempt}
    (hWorker : pool.worker? index = some a) (event : WorkerEvent) :
    pool.step ctx m (event.ofPool index) =
      (event.turn? ctx m pool.told a).map (pool.apply index) := by
  cases event with
  | look =>
      simp only [WorkerEvent.ofPool, WorkerEvent.turn?, Pool.step, hWorker]
      split <;> rfl
  | answer given =>
      simp only [WorkerEvent.ofPool, WorkerEvent.turn?, Pool.step, hWorker, Option.map_some]
  | crash =>
      simp only [WorkerEvent.ofPool, WorkerEvent.turn?, Pool.step, hWorker, Option.map_some]

/-! ## Courses -/

/-- An event of a course: when it happens and whether the signal is raised then,
whether a shared failure was told before, and what happens. -/
structure ProbeEvent where
  moment : Moment
  told : Bool := false
  kind : WorkerEvent

/-- A probe: how its worker stands, and what he has done. -/
structure Probe where
  standing : Standing
  acts : List Act
  deriving DecidableEq, Repr

namespace Probe

/-- A probe after its worker's first turn. -/
def start (ctx : RoundContext) (m : Moment) (told : Bool) (job : Job) : Probe :=
  let turn := Worker.start ctx m told job
  ⟨turn.standing, turn.acts⟩

/-- One event; none when it cannot happen. -/
def step (ctx : RoundContext) (probe : Probe) (event : ProbeEvent) : Option Probe :=
  match probe.standing with
  | .running a =>
      (event.kind.turn? ctx event.moment event.told a).map fun turn =>
        ⟨turn.standing, probe.acts ++ turn.acts⟩
  | .ended _ => none

/-- A course under a schedule; none when one of its events cannot happen. -/
def play (ctx : RoundContext) (probe : Probe) (schedule : List ProbeEvent) : Option Probe :=
  playSchedule (step ctx) probe schedule

variable {ctx : RoundContext} {m : Moment} {told : Bool} {job : Job} {probe next : Probe}

/-- An event happens to a worker at work, who takes a turn. -/
theorem step_inv {event : ProbeEvent} (hStep : probe.step ctx event = some next) :
    ∃ a turn, probe.standing = .running a ∧
      event.kind.turn? ctx event.moment event.told a = some turn ∧
      next = ⟨turn.standing, probe.acts ++ turn.acts⟩ := by
  unfold step at hStep
  split at hStep
  case h_1 a hRunning =>
    obtain ⟨turn, hTurn, hNext⟩ := Option.map_eq_some_iff.mp hStep
    exact ⟨a, turn, hRunning, hTurn, hNext.symm⟩
  case h_2 => cases hStep

/-- A probe at work holds all that it opened, and an outcome holds what was not
closed. -/
def Lawful (ctx : RoundContext) (job : Job) (probe : Probe) : Prop :=
  match probe.standing with
  | .running a => a.Sound ctx job ∧ HoldsAll probe.acts job.index a.held
  | .ended o => o.Sound ctx job ∧ Settled probe.acts job.index o.held

/-- A lawful turn after acts that hold all that was opened. -/
theorem lawful_of_turn {acts : List Act} {held : Holdings} {turn : Turn}
    (hHolds : HoldsAll acts job.index held) (hTurn : Turn.Lawful ctx job held turn) :
    Lawful ctx job ⟨turn.standing, acts ++ turn.acts⟩ := by
  unfold Turn.Lawful at hTurn
  unfold Lawful
  cases hStanding : turn.standing with
  | running a =>
      rw [hStanding] at hTurn
      exact ⟨hTurn.1, hHolds.extend hTurn.2.1 hTurn.2.2⟩
  | ended o =>
      rw [hStanding] at hTurn
      exact ⟨hTurn.1, hHolds.finish hTurn.2⟩

theorem lawful_start : (start ctx m told job).Lawful ctx job := by
  have hNothing : HoldsAll [] job.index {} := by
    intro kind
    simp
  exact lawful_of_turn hNothing Worker.lawful_start

theorem lawful_step {event : ProbeEvent} (hLawful : probe.Lawful ctx job)
    (hStep : probe.step ctx event = some next) : next.Lawful ctx job := by
  obtain ⟨a, turn, hRunning, hTurn, rfl⟩ := step_inv hStep
  have hSound : a.Sound ctx job ∧ HoldsAll probe.acts job.index a.held := by
    unfold Lawful at hLawful
    rw [hRunning] at hLawful
    exact hLawful
  exact lawful_of_turn hSound.2 (WorkerEvent.lawful_turn hSound.1 hTurn)

/-- Every course is lawful to its end. -/
theorem lawful_play {schedule : List ProbeEvent}
    (hPlay : (start ctx m told job).play ctx schedule = some probe) : probe.Lawful ctx job :=
  playSchedule_keeps schedule
    (fun _ _ _ _ hBefore hStep => lawful_step hBefore hStep) lawful_start hPlay

end Probe

/-! ## Outcomes and what they hold -/

namespace Outcome

/-- What an outcome that responded over a protocol tells and carries. -/
structure Carries (ctx : RoundContext) (job : Job) (o : Outcome) (protocol : Protocol) : Prop where
  /-- The protocol is the first of the targets that the candidate supports. -/
  chosen : TargetSequence.choose ctx.targets job.candidate = some protocol
  named : o.protocol = some protocol
  socket : o.held.socket = true
  connection : o.held.connection = true
  subServer : o.held.subServer = true ↔ protocol.usesSubServer = true
  usedProxy : o.usedProxy = true ↔ protocol = .ossh ∧ ∃ proxy, ctx.proxy = some proxy
  /-- The protocol is written back, and nothing else unless there is a front. -/
  unfronted : protocol ≠ .frontedMeekOssh →
    o.candidate = { job.candidate with connType := some protocol }
  /-- Behind a front the fronting domain is written back as well. -/
  fronted : protocol = .frontedMeekOssh → ∃ domain,
    job.candidate.meekFrontingDomain = some domain ∧
      o.candidate = { job.candidate with connType := some protocol, front := some domain }
  /-- The outcome makes a winner, and nothing is closed on the way. -/
  winner : o.select = (some {
    index := o.index
    candidate := o.candidate
    protocol
    usedProxy := o.usedProxy
    responseTime := o.elapsed
    hasSubServer := protocol.usesSubServer }, [])

/-- What an outcome tells agrees with what it holds. -/
structure Matches (ctx : RoundContext) (job : Job) (o : Outcome) : Prop where
  index : o.index = job.index
  responded : o.responded = true ↔ o.error = none
  responder : o.responded = true → ∃ protocol, o.Carries ctx job protocol
  /-- Without a response nothing is held, and there is no winner to be made. -/
  loser : o.responded = false → o.held = {} ∧ o.select = (none, [])

/-- A candidate that is reached through a front names its domain. -/
theorem domain_of_chosen {targets : List Protocol} {candidate : Candidate}
    (hChosen : TargetSequence.choose targets candidate = some .frontedMeekOssh) :
    ∃ domain, candidate.meekFrontingDomain = some domain := by
  have hSupports : candidate.supports .frontedMeekOssh = true := List.find?_some hChosen
  rw [Candidate.supports, Bool.and_eq_true] at hSupports
  exact Option.isSome_iff_exists.mp hSupports.2

theorem Sound.carries {ctx : RoundContext} {job : Job} {o : Outcome} (hSound : o.Sound ctx job)
    (hResponded : o.responded = true) : ∃ protocol, o.Carries ctx job protocol := by
  obtain ⟨protocol, hChosen, hProtocol, hCandidate, hHeld, hProxy, -⟩ :=
    hSound.responder hResponded
  refine ⟨protocol, ?_⟩
  exact
    { chosen := hChosen
      named := hProtocol
      socket := by rw [hHeld]
      connection := by rw [hHeld]
      subServer := by rw [hHeld]
      usedProxy := by
        rw [hProxy, ← Option.isSome_iff_exists]
        cases protocol <;> simp [Protocol.usesSubServer]
      unfronted := fun hUnfronted => by
        rw [hCandidate]
        cases protocol with
        | ossh | unfrontedMeekOssh => rfl
        | frontedMeekOssh => exact absurd rfl hUnfronted
      fronted := fun hFronted => by
        subst hFronted
        obtain ⟨domain, hDomain⟩ := domain_of_chosen hChosen
        refine ⟨domain, hDomain, ?_⟩
        rw [hCandidate, ← hDomain]
        rfl
      winner := by simp [Outcome.select, hProtocol, hResponded, hHeld] }

theorem Sound.matches {ctx : RoundContext} {job : Job} {o : Outcome} (hSound : o.Sound ctx job) :
    o.Matches ctx job where
  index := hSound.index
  responded := by
    cases hResponded : o.responded with
    | true =>
        obtain ⟨-, -, -, -, -, -, hError⟩ := hSound.responder hResponded
        simp [hError]
    | false =>
        obtain ⟨-, hError⟩ := hSound.loser hResponded
        obtain ⟨words, hWords⟩ := Option.isSome_iff_exists.mp hError
        simp [hWords]
  responder := hSound.carries
  loser hResponded := by
    obtain ⟨hHeld, -⟩ := hSound.loser hResponded
    refine ⟨hHeld, ?_⟩
    have hNothing : o.held.closing o.index = [] := by rw [hHeld]; rfl
    unfold select
    split
    · simp [hResponded, hNothing]
    · rw [hNothing]

end Outcome

namespace Probe

/-- However a probe goes, its outcome tells what it holds: a responder has all
that a winner needs, and whoever did not respond has nothing.  Every handle that
was opened on the way is held or was closed, each once. -/
theorem outcome_matches_holdings {ctx : RoundContext} {m : Moment} {told : Bool} {job : Job}
    {schedule : List ProbeEvent} {probe : Probe} {o : Outcome}
    (hPlay : (start ctx m told job).play ctx schedule = some probe)
    (hEnded : probe.standing = .ended o) :
    o.Matches ctx job ∧ Settled probe.acts job.index o.held := by
  have hLawful : probe.Lawful ctx job := lawful_play hPlay
  unfold Lawful at hLawful
  rw [hEnded] at hLawful
  exact ⟨hLawful.1.matches, hLawful.2⟩

end Probe

/-! ## A course -/

namespace Sample

/-- A relay that is reached through a web front. -/
def behindFront : Candidate :=
  { ipAddress := "10.0.0.3"
    capabilities := [.ssh, .frontedMeek]
    sshPort := some 22
    meekFrontingDomain := some "front.example" }

/-- A round with a proxy. -/
def proxied : RoundContext := { targets := Protocol.all, proxy := some ⟨"proxy", 80, none⟩ }

/-- The sub-server starts, the connection to it stands, and the handshake succeeds. -/
def frontedCourse : List ProbeEvent :=
  [⟨⟨10, false⟩, false, .answer (.started (.ok 4000))⟩,
    ⟨⟨20, false⟩, false, .answer (.dialed none)⟩,
    ⟨⟨30, false⟩, false, .answer (.shaken (.ok ()))⟩]

end Sample

/-- The relay behind the front responds, although there is a proxy, and its
outcome holds all three handles. -/
theorem Probe.fronted_responder_matches :
    ∃ probe o,
      (Probe.start Sample.proxied ⟨0, false⟩ false ⟨0, Sample.behindFront⟩).play Sample.proxied
          Sample.frontedCourse = some probe ∧
        probe.standing = .ended o ∧ o.responded = true ∧
        o.Matches Sample.proxied ⟨0, Sample.behindFront⟩ ∧ Settled probe.acts 0 o.held := by
  have hRun : ((Probe.start Sample.proxied ⟨0, false⟩ false ⟨0, Sample.behindFront⟩).play
      Sample.proxied Sample.frontedCourse).map Probe.standing = some (.ended
        { index := 0
          candidate := { Sample.behindFront with
            connType := some .frontedMeekOssh
            front := some "front.example" }
          protocol := some .frontedMeekOssh
          responded := true
          elapsed := ⟨30⟩
          held := { socket := true, subServer := true, connection := true } }) := by
    decide +kernel
  obtain ⟨probe, hPlay, hEnded⟩ := Option.map_eq_some_iff.mp hRun
  obtain ⟨hMatches, hSettled⟩ := Probe.outcome_matches_holdings hPlay hEnded
  exact ⟨probe, _, hPlay, hEnded, rfl, hMatches, hSettled⟩

end RelayRace
