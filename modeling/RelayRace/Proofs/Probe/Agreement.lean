import RelayRace.Proofs.Probe.Inquiries
import RelayRace.Proofs.Selection.Dispatch
import RelayRace.Proofs.Selection.RoundTrace

/-!
# The filter and the connector

The filter of a round decides whom it probes, and the connector decides again what
it can do with a candidate.  Both choose the protocol in the same way, so a candidate
that was let through always has one, and a port to test it on.  Where the connector
wants more, a probe is turned away before anything is made or asked for
(`Probe.play_turnedAway`); every other one goes through its whole course as suits its
protocol (`Probe.suited_play`).

An outcome tells of its failure in words.  No two kinds of failure have the same
words, so an outcome that tells of a missing protocol was handed that very failure
by whoever was asked.
-/

namespace RelayRace

/-! ## Failures by their words -/

namespace Failure

/-- The first letters of the words for a failure. -/
def opening : Failure → List Char
  | .unresolved .. => ['C', 'a', 'n', 'n']
  | .proxyTunnel .. => ['P', 'r', 'o', 'x']
  | .connect .. => ['C', 'o', 'n', 'n']
  | .handshake .. => ['H', 'a', 'n', 'd']
  | .subServer .. => ['O', 'b', 'f', 'u']
  | .noProtocol .. => ['N', 'o', ' ', 't']
  | .noTestPort .. => ['N', 'o', ' ', 'r']
  | .aborted => ['O', 'p', 'e', 'r']
  | .store .. => ['S', 'e', 'r', 'v']
  | .remoteFetch .. => ['R', 'e', 'm', 'o']
  | .configuration .. => ['C', 'o', 'n', 'f']
  | .inputOutput .. => ['I', '/', 'O', ' ']
  | .internal .. => ['I', 'n', 't', 'e']

theorem opening_prefix (failure : Failure) : failure.opening <+: failure.message.toList := by
  cases failure with
  | aborted => decide
  | _ =>
      unfold message opening
      simp only [String.toList_append, List.append_assoc]
      exact List.IsPrefix.trans (by decide) (List.prefix_append _ _)

theorem length_opening (failure : Failure) : failure.opening.length = 4 := by
  cases failure <;> rfl

theorem opening_eq_of_message {failure other : Failure}
    (hMessage : failure.message = other.message) : failure.opening = other.opening := by
  have hOther : other.opening <+: failure.message.toList := by
    rw [hMessage]
    exact other.opening_prefix
  have hLength : failure.opening.length = other.opening.length := by
    rw [failure.length_opening, other.length_opening]
  have hPrefix : failure.opening <+: other.opening :=
    List.prefix_of_prefix_length_le failure.opening_prefix hOther (Nat.le_of_eq hLength)
  exact hPrefix.eq_of_length hLength

/-- No other failure is worded like the one of a missing protocol. -/
theorem eq_noProtocol_of_message {failure : Failure} {address : String}
    (hMessage : failure.message = (noProtocol address).message) :
    failure = .noProtocol address := by
  have hOpening : failure.opening = ['N', 'o', ' ', 't'] := opening_eq_of_message hMessage
  cases failure with
  | noProtocol other => rw [(String.append_right_inj _).mp hMessage]
  | _ => simp [opening] at hOpening

/-- No other failure is worded like the one of a missing port. -/
theorem eq_noTestPort_of_message {failure : Failure} {address : String}
    (hMessage : failure.message = (noTestPort address).message) :
    failure = .noTestPort address := by
  have hOpening : failure.opening = ['N', 'o', ' ', 'r'] := opening_eq_of_message hMessage
  cases failure with
  | noTestPort other => rw [(String.append_right_inj _).mp hMessage]
  | _ => simp [opening] at hOpening

end Failure

/-! ## The turns of a worker -/

/-- How the outcome of a candidate that passed the checks came about. -/
inductive Outcome.Explained (protocol : Protocol) (heard : Answer → Prop) (crashes : Prop)
    (o : Outcome) : Prop
  | responded (hError : o.error = none) (hProtocol : o.protocol = some protocol)
  | failed {failure : Failure} (hForeign : failure.Foreign heard)
      (hError : o.error = some failure.message) (hProtocol : o.protocol = some protocol)
  | crashed (hCrashes : crashes) (hError : o.error = some "probe worker panicked")

/-- What holds of a worker's turn at a candidate that passed the checks. -/
structure Turn.Suited (ctx : RoundContext) (job : Job) (protocol : Protocol) (port : UInt16)
    (heard : Answer → Prop) (crashes : Prop) (turn : Turn) : Prop where
  running : ∀ next, turn.standing = .running next → next.IsFor ctx job protocol port
  ended : ∀ o, turn.standing = .ended o → o.Explained protocol heard crashes
  acts : ∀ act ∈ turn.acts, act.Suits ctx job protocol port heard

namespace Worker

variable {ctx : RoundContext} {job : Job} {protocol : Protocol} {port : UInt16}
  {heard : Answer → Prop} {crashes : Prop} {m : Moment} {told : Bool} {a : Attempt}

theorem suits_closing (held : Holdings) (owner : Nat) :
    ∀ act ∈ held.closing owner, act.Suits ctx job protocol port heard := by
  intro act hMem
  obtain ⟨handle, -, rfl⟩ := List.mem_map.mp hMem
  trivial

theorem suits_noted (lines : List Notice) :
    ∀ act ∈ lines.map Act.noted, act.Suits ctx job protocol port heard := by
  intro act hMem
  obtain ⟨line, -, rfl⟩ := List.mem_map.mp hMem
  trivial

theorem suited_settle {before : Holdings}
    (hChosen : TargetSequence.choose ctx.targets job.candidate = some protocol) :
    ∀ {step : Progress × List Act}, Progress.Lawful ctx job before step →
      Progress.Suited ctx job protocol port heard step →
        Turn.Suited ctx job protocol port heard crashes (settle ctx m told step)
  | (.waiting next, _), ⟨hSound, _⟩, hSuited => by
      refine ⟨fun other hRunning => ?_, fun _ hEnded => (by cases hEnded), hSuited.acts⟩
      cases hRunning
      have hSame : some next.protocol = some protocol := hSound.chosen.symm.trans hChosen
      exact ⟨hSound, Option.some.inj hSame, hSuited.waits _ rfl⟩
  | (.connected next, _), ⟨hConnected, _⟩, hSuited => by
      refine ⟨fun _ hRunning => (by cases hRunning), fun o hEnded => ?_, hSuited.acts⟩
      cases hEnded
      exact .responded rfl (hConnected.chosen.symm.trans hChosen)
  | (.broken broken failure, acts), ⟨hServes, _⟩, hSuited => by
      refine ⟨fun _ hRunning => (by cases hRunning), fun o hEnded => ?_, ?_⟩
      · cases hEnded
        exact .failed (hSuited.breaks _ _ rfl) rfl (hServes.chosen.symm.trans hChosen)
      · show ∀ act ∈ acts ++ _ ++ broken.held.closing broken.index,
          act.Suits ctx job protocol port heard
        exact List.forall_mem_append.mpr
          ⟨List.forall_mem_append.mpr ⟨hSuited.acts, suits_noted _⟩, suits_closing _ _⟩

end Worker

/-- A turn at a worker who is for a protocol and a port, by what he hears and whether
he crashes. -/
theorem WorkerEvent.suited_turn {ctx : RoundContext} {job : Job} {protocol : Protocol}
    {port : UInt16} {heard : Answer → Prop} {crashes : Prop} {m : Moment} {told : Bool}
    {a : Attempt} (hFor : a.IsFor ctx job protocol port) {event : WorkerEvent} {turn : Turn}
    (hHeard : ∀ given, event = .answer given → heard given) (hCrashes : event = .crash → crashes)
    (hTurn : event.turn? ctx m told a = some turn) :
    Turn.Suited ctx job protocol port heard crashes turn := by
  have hChosen : TargetSequence.choose ctx.targets job.candidate = some protocol := by
    rw [hFor.sound.chosen, hFor.protocol]
  cases event with
  | look =>
      simp only [turn?, Option.ite_none_right_eq_some, Option.some.injEq] at hTurn
      rw [← hTurn.2]
      exact Worker.suited_settle hChosen (Attempt.lawful_poll hFor.sound)
        (Attempt.suited_poll hFor.port)
  | answer given =>
      cases hTurn
      exact Worker.suited_settle hChosen (Attempt.lawful_answer hFor.sound given)
        (Attempt.suited_answer hFor (hHeard given rfl))
  | crash =>
      cases hTurn
      refine ⟨fun _ hRunning => (by cases hRunning), fun o hEnded => ?_, ?_⟩
      · cases hEnded
        exact .crashed (hCrashes rfl) rfl
      · show ∀ act ∈ a.held.closing a.index ++ [Act.noted _], act.Suits ctx job protocol port heard
        refine List.forall_mem_append.mpr ⟨Worker.suits_closing _ _, ?_⟩
        exact Worker.suits_noted [_]

/-- A missing port is told of in a line of its own. -/
theorem RoundContext.report_noTestPort (ctx : RoundContext) (told : Bool) (address : String) :
    ctx.report told address (.noTestPort address) =
      ([.probeFailed address (.noTestPort address)], told) := by
  simp [report, isShared, blamesProxy, Failure.isAborted, Failure.isProxyRelated,
    Failure.isUnreachable, Failure.cause?]

/-! ## The course of a probe -/

/-- A schedule brings an answer. -/
def Brings (schedule : List ProbeEvent) (given : Answer) : Prop :=
  ∃ event ∈ schedule, event.kind = .answer given

/-- A schedule makes the worker crash. -/
def BringsCrash (schedule : List ProbeEvent) : Prop := ∃ event ∈ schedule, event.kind = .crash

namespace Probe

/-- What holds of a probe whose candidate passed the checks. -/
structure Suited (ctx : RoundContext) (job : Job) (protocol : Protocol) (port : UInt16)
    (heard : Answer → Prop) (crashes : Prop) (probe : Probe) : Prop where
  running : ∀ a, probe.standing = .running a → a.IsFor ctx job protocol port
  ended : ∀ o, probe.standing = .ended o → o.Explained protocol heard crashes
  acts : ∀ act ∈ probe.acts, act.Suits ctx job protocol port heard

/-- A probe that passed the checks in its worker's first turn. -/
structure Begins (ctx : RoundContext) (job : Job) (protocol : Protocol) (m : Moment)
    (probe : Probe) : Prop where
  /-- It waits for its first answer. -/
  waits : m.aborted = false →
    ∃ a inquiry, probe.standing = .running a ∧ .asked job.index inquiry ∈ probe.acts
  /-- Under a raised signal it is called off, and not for a check. -/
  calledOff : m.aborted = true →
    ∃ o, probe.standing = .ended o ∧ o.error = some Failure.aborted.message
  /-- Its sub-server is made, if its protocol runs through one. -/
  makes : protocol.usesSubServer = true →
    ∃ target, .made job.index target ctx.protector.isSome ∈ probe.acts

variable {ctx : RoundContext} {job : Job} {protocol : Protocol} {port : UInt16}
  {heard : Answer → Prop} {crashes : Prop} {m : Moment} {told : Bool} {probe next : Probe}
  {schedule : List ProbeEvent}

theorem suited_of_turn {acts : List Act} {turn : Turn}
    (hActs : ∀ act ∈ acts, act.Suits ctx job protocol port heard)
    (hTurn : Turn.Suited ctx job protocol port heard crashes turn) :
    Suited ctx job protocol port heard crashes ⟨turn.standing, acts ++ turn.acts⟩ :=
  ⟨hTurn.running, hTurn.ended, List.forall_mem_append.mpr ⟨hActs, hTurn.acts⟩⟩

theorem suited_step {event : ProbeEvent}
    (hHeard : ∀ given, event.kind = .answer given → heard given)
    (hCrashes : event.kind = .crash → crashes)
    (hSuited : probe.Suited ctx job protocol port heard crashes)
    (hStep : probe.step ctx event = some next) :
    next.Suited ctx job protocol port heard crashes := by
  obtain ⟨a, turn, hRunning, hTurn, rfl⟩ := step_inv hStep
  have hFor : a.IsFor ctx job protocol port := hSuited.running a hRunning
  exact suited_of_turn hSuited.acts (WorkerEvent.suited_turn hFor hHeard hCrashes hTurn)

/-- What a step of an attempt began, the worker's turn has begun. -/
theorem begins_settle {step : Progress × List Act}
    (hBegins : Progress.Begins ctx job protocol m step) :
    Begins ctx job protocol m
      ⟨(Worker.settle ctx m told step).standing, (Worker.settle ctx m told step).acts⟩ := by
  have hKept : ∀ act ∈ step.2, act ∈ (Worker.settle ctx m told step).acts := by
    obtain ⟨progress, acts⟩ := step
    cases progress with
    | waiting a | connected a => exact fun _ hMem => hMem
    | broken a failure =>
        exact fun _ hMem => List.mem_append_left _ (List.mem_append_left _ hMem)
  refine ⟨fun hLowered => ?_, fun hRaised => ?_, fun hSub => ?_⟩
  · obtain ⟨a, inquiry, hWaits, hAsked⟩ := hBegins.waits hLowered
    refine ⟨a, inquiry, ?_, hKept _ hAsked⟩
    obtain ⟨progress, acts⟩ := step
    cases hWaits
    rfl
  · obtain ⟨a, hBroken⟩ := hBegins.calledOff hRaised
    obtain ⟨progress, acts⟩ := step
    cases hBroken
    exact ⟨_, rfl, rfl⟩
  · obtain ⟨target, hMade⟩ := hBegins.makes hSub
    exact ⟨target, hKept _ hMade⟩

/-- A candidate that is supported and has its ports passes every check. -/
theorem suited_start
    (hChosen : TargetSequence.choose ctx.targets job.candidate = some protocol)
    (hPort : job.candidate.testPort? = some port)
    (hWeb : ¬ job.candidate.LacksWebPort protocol) :
    (start ctx m told job).Suited ctx job protocol port heard crashes := by
  have hBegun : (Attempt.ofJob m job protocol).Begun ctx job := Attempt.begun_ofJob m hChosen
  have hSuited : Progress.Suited ctx job protocol port heard
      ((Attempt.ofJob m job protocol).start ctx m) :=
    (Attempt.suited_start hBegun rfl hPort (List.find?_some hChosen) hWeb).1
  have hNothing : ∀ act ∈ ([] : List Act), act.Suits ctx job protocol port heard := by simp
  simp only [start, Worker.start_of_chosen hChosen]
  exact suited_of_turn hNothing
    (Worker.suited_settle hChosen (Attempt.lawful_start hBegun) hSuited)

theorem begins_start
    (hChosen : TargetSequence.choose ctx.targets job.candidate = some protocol)
    (hPort : job.candidate.testPort? = some port)
    (hWeb : ¬ job.candidate.LacksWebPort protocol) :
    (start ctx m told job).Begins ctx job protocol m := by
  have hBegun : (Attempt.ofJob m job protocol).Begun ctx job := Attempt.begun_ofJob m hChosen
  have hPasses : Progress.Suited ctx job protocol port (fun _ => False)
        ((Attempt.ofJob m job protocol).start ctx m) ∧
      Progress.Begins ctx job protocol m ((Attempt.ofJob m job protocol).start ctx m) :=
    Attempt.suited_start hBegun rfl hPort (List.find?_some hChosen) hWeb
  simp only [start, Worker.start_of_chosen hChosen]
  exact begins_settle hPasses.2

theorem suited_play
    (hChosen : TargetSequence.choose ctx.targets job.candidate = some protocol)
    (hPort : job.candidate.testPort? = some port)
    (hWeb : ¬ job.candidate.LacksWebPort protocol)
    (hPlay : (start ctx m told job).play ctx schedule = some probe) :
    probe.Suited ctx job protocol port (Brings schedule) (BringsCrash schedule) :=
  playSchedule_keeps schedule
    (fun event hEvent _ _ hBefore hStep =>
      suited_step (fun _ hGiven => ⟨event, hEvent, hGiven⟩) (fun hCrash => ⟨event, hEvent, hCrash⟩)
        hBefore hStep)
    (suited_start hChosen hPort hWeb) hPlay

/-- Nothing happens to a probe that ended. -/
theorem play_of_ended {o : Outcome} (hEnded : probe.standing = .ended o)
    (hPlay : probe.play ctx schedule = some next) : schedule = [] ∧ next = probe := by
  cases schedule with
  | nil =>
      cases hPlay
      exact ⟨rfl, rfl⟩
  | cons event rest =>
      rw [play, playSchedule_cons, Option.bind_eq_some_iff] at hPlay
      obtain ⟨middle, hStep, -⟩ := hPlay
      obtain ⟨a, -, hRunning, -⟩ := step_inv hStep
      rw [hEnded] at hRunning
      cases hRunning

/-- The probe of a candidate that was turned away for want of a web port: nothing
was made or asked for, and nothing more can happen. -/
structure TurnedAway (job : Job) (protocol : Protocol) (schedule : List ProbeEvent)
    (probe : Probe) : Prop where
  still : schedule = []
  ended : ∃ o, probe.standing = .ended o ∧ o.protocol = some protocol ∧
    o.error = some (Failure.noTestPort job.candidate.ipAddress).message
  acts : probe.acts =
    [.noted (.probeFailed job.candidate.ipAddress (.noTestPort job.candidate.ipAddress))]

theorem play_turnedAway
    (hChosen : TargetSequence.choose ctx.targets job.candidate = some protocol)
    (hPort : job.candidate.testPort? = some port)
    (hWeb : job.candidate.LacksWebPort protocol)
    (hPlay : (start ctx m told job).play ctx schedule = some probe) :
    probe.TurnedAway job protocol schedule := by
  obtain ⟨rfl, hNone⟩ := hWeb
  have hTurn : Worker.start ctx m told job = Worker.settle ctx m told
      (.broken { Attempt.ofJob m job .unfrontedMeekOssh with port }
        (.noTestPort job.candidate.ipAddress), []) := by
    rw [Worker.start_of_chosen hChosen, Attempt.start_of_lacking hPort hNone]
  have hReport := ctx.report_noTestPort told job.candidate.ipAddress
  have hStart : start ctx m told job =
      ⟨.ended (Worker.failedOutcome m { Attempt.ofJob m job .unfrontedMeekOssh with port }
          (.noTestPort job.candidate.ipAddress)),
        [.noted (.probeFailed job.candidate.ipAddress
          (.noTestPort job.candidate.ipAddress))]⟩ := by
    simp only [start, hTurn]
    simp [Worker.settle, Attempt.ofJob, hReport, Holdings.closing, Holdings.handles]
  obtain ⟨hOver, rfl⟩ := play_of_ended (by rw [hStart]) hPlay
  rw [hStart]
  exact ⟨hOver, ⟨_, rfl, rfl, rfl⟩, rfl⟩

/-- What a probe of an admitted candidate has to do with the filter that admitted it. -/
structure Agrees (ctx : RoundContext) (job : Job) (protocol : Protocol) (port : UInt16)
    (m : Moment) (told : Bool) (schedule : List ProbeEvent) (probe : Probe) : Prop where
  /-- The worker goes by the protocol of the filter. -/
  goesBy : ∀ a, probe.standing = .running a → a.protocol = protocol
  /-- He tells of that protocol in the end, unless he crashed. -/
  tellsOf : ∀ o, probe.standing = .ended o → o.protocol = some protocol ∨ BringsCrash schedule
  /-- Without the web port that is needed he ends for want of a port. -/
  turnedAway : job.candidate.LacksWebPort protocol → probe.TurnedAway job protocol schedule
  /-- In every other case he passes all checks. -/
  passes : ¬ job.candidate.LacksWebPort protocol → (start ctx m told job).Begins ctx job protocol m
  /-- Whatever he asks for suits the protocol, the port and what he was answered. -/
  asks : ∀ owner inquiry, .asked owner inquiry ∈ probe.acts →
    inquiry.Suits ctx job protocol port (Brings schedule)
  /-- A sub-server is made only for a protocol that uses one, and given what it needs. -/
  makes : ∀ owner target guarded, .made owner target guarded ∈ probe.acts →
    protocol.usesSubServer = true ∧ target.Serves ctx job.candidate protocol port
  /-- The direct protocol dials the test port, if no proxy stands between and names are
  resolved with the port that was given. -/
  dials : protocol = .ossh → ctx.proxy = none →
    (∀ endpoint, Brings schedule (.resolved (some endpoint)) → endpoint.port = port) →
    ∀ owner endpoint, .asked owner (.dial endpoint) ∈ probe.acts → endpoint.port = port
  /-- A missing protocol is only told of by whoever was handed that failure. -/
  noProtocol : ∀ o address, probe.standing = .ended o →
    o.error = some (Failure.noProtocol address).message →
    ∃ given, Brings schedule given ∧ given.failure? = some (.noProtocol address)
  /-- A missing port is told of by whoever was turned away, or was handed that failure. -/
  noTestPort : ∀ o address, probe.standing = .ended o →
    o.error = some (Failure.noTestPort address).message →
    job.candidate.LacksWebPort protocol ∨
      ∃ given, Brings schedule given ∧ given.failure? = some (.noTestPort address)

/-- Of the failures with the words of a missing protocol or port, an outcome that came
about after the checks has only what was handed over. -/
theorem handed_of_explained {o : Outcome} (hExplained : o.Explained protocol heard crashes)
    {failure : Failure} (hError : o.error = some failure.message)
    (hOnly : ∀ other : Failure, other.message = failure.message → other = failure)
    (hOpening : failure.opening.head? = some 'N') (hOwn : ¬ failure.OfNetwork) :
    ∃ given, heard given ∧ given.failure? = some failure := by
  cases hExplained with
  | responded hNone =>
      rw [hNone] at hError
      cases hError
  | @failed other hForeign hOther =>
      have hSame : other.message = failure.message := by
        rw [hOther] at hError
        exact Option.some.inj hError
      rw [hOnly other hSame] at hForeign
      exact hForeign.resolve_left hOwn
  | crashed _ hCrashed =>
      -- The words for a crash begin with a small letter.
      rw [hCrashed] at hError
      obtain ⟨rest, hWords⟩ := failure.opening_prefix
      rw [← Option.some.inj hError] at hWords
      have hHead : (failure.opening ++ rest).head? = some 'N' := by
        rw [List.head?_append, hOpening]
        rfl
      rw [hWords] at hHead
      exact absurd hHead (by decide)

theorem agrees_of_passed
    (hChosen : TargetSequence.choose ctx.targets job.candidate = some protocol)
    (hPort : job.candidate.testPort? = some port) (hWeb : ¬ job.candidate.LacksWebPort protocol)
    (hPlay : (start ctx m told job).play ctx schedule = some probe) :
    probe.Agrees ctx job protocol port m told schedule := by
  have hSuited : probe.Suited ctx job protocol port (Brings schedule) (BringsCrash schedule) :=
    suited_play hChosen hPort hWeb hPlay
  exact
    { goesBy := fun a hRunning => (hSuited.running a hRunning).protocol
      tellsOf := fun o hEnded => by
        cases hSuited.ended o hEnded with
        | responded _ hProtocol | failed _ _ hProtocol => exact .inl hProtocol
        | crashed hCrashes _ => exact .inr hCrashes
      turnedAway := fun hLacks => absurd hLacks hWeb
      passes := fun _ => begins_start hChosen hPort hWeb
      asks := fun _ _ hAsked => hSuited.acts _ hAsked
      makes := fun _ _ _ hMade => hSuited.acts _ hMade
      dials := fun hDirect hNoProxy hKeeps _ endpoint hAsked => by
        cases hSuited.acts _ hAsked with
        | dial _ hHeard => exact hKeeps endpoint hHeard
        | dialSubServer hSub _ =>
            rw [hDirect] at hSub
            cases hSub
      noProtocol := fun o address hEnded hError =>
        handed_of_explained (hSuited.ended o hEnded) hError
          (fun _ => Failure.eq_noProtocol_of_message) rfl (fun hOwn => by cases hOwn)
      noTestPort := fun o address hEnded hError =>
        .inr (handed_of_explained (hSuited.ended o hEnded) hError
          (fun _ => Failure.eq_noTestPort_of_message) rfl (fun hOwn => by cases hOwn)) }

theorem agrees_of_turnedAway (hWeb : job.candidate.LacksWebPort protocol)
    (hAway : probe.TurnedAway job protocol schedule) :
    probe.Agrees ctx job protocol port m told schedule := by
  obtain ⟨o, hEnded, hProtocol, hError⟩ := hAway.ended
  have hOnly : ∀ other, probe.standing = .ended other → other = o := by
    intro other hOther
    rw [hEnded] at hOther
    cases hOther
    rfl
  have hQuiet : ∀ act ∈ probe.acts, ∃ line, act = .noted line := by
    intro act hMem
    rw [hAway.acts, List.mem_singleton] at hMem
    exact ⟨_, hMem⟩
  exact
    { goesBy := fun a hRunning => by
        rw [hEnded] at hRunning
        cases hRunning
      tellsOf := fun other hOther => .inl (by rw [hOnly other hOther, hProtocol])
      turnedAway := fun _ => hAway
      passes := fun hPasses => absurd hWeb hPasses
      asks := fun _ _ hAsked => by
        obtain ⟨_, hLine⟩ := hQuiet _ hAsked
        cases hLine
      makes := fun _ _ _ hMade => by
        obtain ⟨_, hLine⟩ := hQuiet _ hMade
        cases hLine
      dials := fun _ _ _ _ _ hAsked => by
        obtain ⟨_, hLine⟩ := hQuiet _ hAsked
        cases hLine
      noProtocol := fun other address hOther hWords => by
        rw [hOnly other hOther, hError] at hWords
        cases Failure.eq_noProtocol_of_message (Option.some.inj hWords)
      noTestPort := fun _ _ _ _ => .inl hWeb }

/-- A probe of a candidate that the filter of the round admits goes by the filter's
protocol and passes every check of the connector, with one exception: a disguised
connection without a front wants a web port, and without it the probe ends before
anything is made or asked for. -/
theorem connector_follows_filter {filter : Filter} {ctx : RoundContext} {job : Job}
    (hTargets : ctx.targets = filter.targets) (hAdmits : filter.admits job.candidate = true) :
    ∃ protocol port,
      TargetSequence.choose filter.targets job.candidate = some protocol ∧
        job.candidate.testPort? = some port ∧
        (protocol = .ossh → job.candidate.sshObfuscatedPort = some port) ∧
        ∀ m told schedule probe, (start ctx m told job).play ctx schedule = some probe →
          probe.Agrees ctx job protocol port m told schedule := by
  simp only [Filter.admits, Bool.and_eq_true] at hAdmits
  obtain ⟨⟨⟨hSomePort, -⟩, -⟩, hSome⟩ := hAdmits
  obtain ⟨port, hPort⟩ := Option.isSome_iff_exists.mp hSomePort
  obtain ⟨protocol, hChosen⟩ := Option.isSome_iff_exists.mp hSome
  refine ⟨protocol, port, hChosen, hPort, fun hDirect => ?_, fun m told schedule probe hPlay => ?_⟩
  · have hSupports : job.candidate.supports protocol = true := List.find?_some hChosen
    have hObfuscated : job.candidate.has .ossh = true := by
      rw [hDirect, Candidate.supports, Bool.and_eq_true] at hSupports
      exact hSupports.1
    rwa [Candidate.testPort?, if_pos hObfuscated] at hPort
  · rw [← hTargets] at hChosen
    by_cases hWeb : job.candidate.LacksWebPort protocol
    · exact agrees_of_turnedAway hWeb (play_turnedAway hChosen hPort hWeb hPlay)
    · exact agrees_of_passed hChosen hPort hWeb hPlay

end Probe

/-! ## Admitted candidates -/

namespace Sample

/-- A filter that asks for no region. -/
def anywhere : Filter := ⟨Capability.sufficientForTunnel, none, Protocol.all⟩

/-- The sub-server hands over a failure of the connector's. -/
def handedOver : List ProbeEvent :=
  [⟨⟨10, false⟩, false, .answer (.started (.error (.noProtocol "10.0.0.2")))⟩]

/-- The proxy is found, dialed, and asked for a tunnel. -/
def throughProxy : List ProbeEvent :=
  [⟨⟨10, false⟩, false, .answer (.resolved (some ⟨.loopback, 80⟩))⟩,
    ⟨⟨20, false⟩, false, .answer (.dialed none)⟩]

end Sample

namespace Probe

/-- The relay behind the sub-server is admitted, and its probe agrees with that. -/
theorem covered_probe_agrees :
    Sample.anywhere.admits Sample.covered = true ∧
      ∃ probe,
        (start { targets := Protocol.all } ⟨0, false⟩ false ⟨1, Sample.covered⟩).play
            { targets := Protocol.all } Sample.frontedCourse = some probe ∧
          probe.Agrees { targets := Protocol.all } ⟨1, Sample.covered⟩ .unfrontedMeekOssh 22
            ⟨0, false⟩ false Sample.frontedCourse := by
  have hAdmits : Sample.anywhere.admits Sample.covered = true := by decide +kernel
  have hRuns : ((start { targets := Protocol.all } ⟨0, false⟩ false ⟨1, Sample.covered⟩).play
      { targets := Protocol.all } Sample.frontedCourse).isSome = true := by decide +kernel
  obtain ⟨probe, hPlay⟩ := Option.isSome_iff_exists.mp hRuns
  obtain ⟨protocol, port, hChosen, hPort, -, hAgrees⟩ :=
    @connector_follows_filter Sample.anywhere { targets := Protocol.all } ⟨1, Sample.covered⟩ rfl
      hAdmits
  have hUnfronted : TargetSequence.choose Sample.anywhere.targets Sample.covered =
      some .unfrontedMeekOssh := by decide +kernel
  have hPlain : Sample.covered.testPort? = some 22 := by decide +kernel
  cases hChosen.symm.trans hUnfronted
  cases hPort.symm.trans hPlain
  exact ⟨hAdmits, probe, hPlay, hAgrees _ _ _ probe hPlay⟩

/-- Two things that the filter cannot see to: a failure of the connector's that the
sub-server hands over is what the probe ends with, although its candidate was admitted
and has its web port; and when there is a proxy, what the direct protocol dials is the
proxy's port, and the candidate's is where the tunnel leads. -/
theorem handed_over_or_through_proxy :
    (Sample.anywhere.admits Sample.covered = true ∧
        ¬ Sample.covered.LacksWebPort .unfrontedMeekOssh ∧
        ∃ probe o,
          (start { targets := Protocol.all } ⟨0, false⟩ false ⟨1, Sample.covered⟩).play
              { targets := Protocol.all } Sample.handedOver = some probe ∧
            probe.standing = .ended o ∧
            o.error = some (Failure.noProtocol Sample.covered.ipAddress).message) ∧
      Sample.anywhere.admits Sample.plain = true ∧
        Sample.plain.sshObfuscatedPort = some 22 ∧
        ∃ probe,
          (start Sample.proxied ⟨0, false⟩ false ⟨0, Sample.plain⟩).play Sample.proxied
              Sample.throughProxy = some probe ∧
            probe.acts = [.asked 0 (.resolve "proxy" 80), .asked 0 (.dial ⟨.loopback, 80⟩),
              .opened ⟨.socket, 0⟩, .asked 0 (.tunnel "10.0.0.1" 22 none)] := by
  have hHanded : ((start { targets := Protocol.all } ⟨0, false⟩ false ⟨1, Sample.covered⟩).play
      { targets := Protocol.all } Sample.handedOver).map Probe.standing = some (.ended
        { index := 1
          candidate := { Sample.covered with connType := some .unfrontedMeekOssh }
          protocol := some .unfrontedMeekOssh
          elapsed := ⟨10⟩
          error := some (Failure.noProtocol Sample.covered.ipAddress).message }) := by
    decide +kernel
  have hProxied : ((start Sample.proxied ⟨0, false⟩ false ⟨0, Sample.plain⟩).play Sample.proxied
      Sample.throughProxy).map Probe.acts =
        some [.asked 0 (.resolve "proxy" 80), .asked 0 (.dial ⟨.loopback, 80⟩),
          .opened ⟨.socket, 0⟩, .asked 0 (.tunnel "10.0.0.1" 22 none)] := by
    decide +kernel
  obtain ⟨probe, hPlay, hEnded⟩ := Option.map_eq_some_iff.mp hHanded
  refine ⟨⟨by decide +kernel, fun hLacks => absurd hLacks.2 (by decide), probe, _, hPlay, hEnded,
    rfl⟩, by decide +kernel, rfl, ?_⟩
  exact Option.map_eq_some_iff.mp hProxied

end Probe

end RelayRace
