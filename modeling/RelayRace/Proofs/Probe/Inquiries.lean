import RelayRace.Proofs.Probe.Course

/-!
# What a probe may ask for

Once an attempt has passed the checks of the connector, it is led by its protocol,
its test port and the answers that it heard.  `Inquiry.Suits` says what it may ask
for, and `Progress.Suited` is the invariant: whatever it asks for suits, and when it
breaks off, that is for a reason of the network or for one that was handed to it.

The checks go further than the question whether a candidate supports a protocol in
one point only.  A relay that is disguised without a front needs a web port
(`Candidate.LacksWebPort`).
-/

namespace RelayRace

open Text

/-! ## Reasons to break off -/

namespace Failure

/-- The failures that the connector finds by itself once its checks are passed. -/
inductive OfNetwork : Failure → Prop
  | unresolved (host : String) (port : UInt16) : OfNetwork (.unresolved host port)
  | connect (endpoint : Endpoint) (cause : IoFault) : OfNetwork (.connect endpoint cause)
  | refused (cause : IoFault) : OfNetwork (.inputOutput cause)
  | aborted : OfNetwork .aborted

end Failure

/-- The failure that an answer hands over. -/
def Answer.failure? : Answer → Option Failure
  | .tunnelled (.error failure) | .started (.error failure) | .shaken (.error failure) =>
      some failure
  | .resolved _ | .dialed _ | .tunnelled (.ok _) | .started (.ok _) | .shaken (.ok _) => none

/-! ## What suits an attempt -/

/-- How a sub-server is to reach a candidate. -/
inductive Dial.Reaches (candidate : Candidate) : Protocol → Dial → Prop
  /-- Through the front; without a host of its own the front is asked for itself. -/
  | fronted {domain host : String} (hDomain : candidate.meekFrontingDomain = some domain)
      (hHost : candidate.meekFrontingHost = some host ∨
        candidate.meekFrontingHost = none ∧ host = domain) :
      Reaches candidate .frontedMeekOssh (.fronted domain host)
  /-- Straight to the candidate's address and web port. -/
  | direct {port : UInt16} (hPort : candidate.meekServerPort = some port) :
      Reaches candidate .unfrontedMeekOssh (.direct candidate.ipAddress port)

/-- What a sub-server for a candidate is to be given. -/
structure SubServerTarget.Serves (ctx : RoundContext) (candidate : Candidate)
    (protocol : Protocol) (port : UInt16) (target : SubServerTarget) : Prop where
  /-- The relay is named by its address and its test port. -/
  relay : target.relay = candidate.ipAddress ++ ":" ++ decimal port.toNat
  dial : target.dial.Reaches candidate protocol
  cookieKey : target.cookieKey = candidate.meekCookieKey
  obfuscatedKey : target.obfuscatedKey = candidate.meekObfuscatedKey
  sessionId : target.sessionId = ctx.session.id

section Suited

variable (ctx : RoundContext) (job : Job) (protocol : Protocol) (port : UInt16)
  (heard : Answer → Prop)

/-- What an attempt on a job over a protocol may ask for, given its test port and
the answers that it heard. -/
inductive Inquiry.Suits : Inquiry → Prop
  | resolveRelay (hDirect : protocol = .ossh) (hNoProxy : ctx.proxy = none) :
      Suits (.resolve job.candidate.ipAddress port)
  | resolveProxy (hDirect : protocol = .ossh) {proxy : ProxySettings}
      (hProxy : ctx.proxy = some proxy) : Suits (.resolve proxy.host proxy.port)
  /-- What is dialed directly is what the name was resolved to. -/
  | dial (hDirect : protocol = .ossh) {endpoint : Endpoint}
      (hHeard : heard (.resolved (some endpoint))) : Suits (.dial endpoint)
  /-- Through a proxy the test port is what the tunnel leads to. -/
  | tunnel (hDirect : protocol = .ossh) {proxy : ProxySettings}
      (hProxy : ctx.proxy = some proxy) :
      Suits (.tunnel job.candidate.ipAddress port proxy.credentials)
  | start (hSub : protocol.usesSubServer = true) {target : SubServerTarget}
      (hServes : target.Serves ctx job.candidate protocol port) : Suits (.start target)
  | dialSubServer (hSub : protocol.usesSubServer = true) {own : UInt16}
      (hHeard : heard (.started (.ok own))) : Suits (.dial ⟨.loopback, own⟩)
  | establish : Suits (.establish (job.candidate.wroteBack protocol) ctx.session)

/-- An act that asks for what suits and makes no sub-server but the right one. -/
def Act.Suits : Act → Prop
  | .asked _ inquiry => inquiry.Suits ctx job protocol port heard
  | .made _ target _ =>
      protocol.usesSubServer = true ∧ target.Serves ctx job.candidate protocol port
  | _ => True

/-- A reason to break off that is none of the connector's checks. -/
def Failure.Foreign (failure : Failure) : Prop :=
  failure.OfNetwork ∨ ∃ given, heard given ∧ given.failure? = some failure

/-- What holds of a step of an attempt that passed the checks. -/
structure Progress.Suited (step : Progress × List Act) : Prop where
  /-- The test port is kept. -/
  waits : ∀ next, step.1 = .waiting next → next.port = port
  breaks : ∀ broken failure, step.1 = .broken broken failure → failure.Foreign heard
  acts : ∀ act ∈ step.2, act.Suits ctx job protocol port heard

end Suited

/-! ## The steps of an attempt -/

namespace Attempt

variable {ctx : RoundContext} {job : Job} {protocol : Protocol} {port : UInt16}
  {heard : Answer → Prop} {m : Moment} {a : Attempt} {acts : List Act}
  {step : Progress × List Act}

theorem suited_enter {stage : Stage} {inquiry : Inquiry} (hPort : a.port = port)
    (hInquiry : inquiry.Suits ctx job protocol port heard) :
    Progress.Suited ctx job protocol port heard (a.enter ctx m stage inquiry) := by
  unfold enter
  split
  · refine ⟨fun _ hWaits => (by cases hWaits), fun _ failure hBroken => ?_, by simp⟩
    cases hBroken
    exact .inl .aborted
  · refine ⟨fun next hWaits => ?_, fun _ _ hBroken => (by cases hBroken), ?_⟩
    · cases hWaits
      exact hPort
    · intro act hMem
      rw [List.mem_singleton.mp hMem]
      exact hInquiry

theorem suited_after (hActs : ∀ act ∈ acts, act.Suits ctx job protocol port heard)
    (hStep : Progress.Suited ctx job protocol port heard step) :
    Progress.Suited ctx job protocol port heard (after acts step) :=
  ⟨hStep.waits, hStep.breaks, List.forall_mem_append.mpr ⟨hActs, hStep.acts⟩⟩

theorem suited_broken {failure : Failure} (hForeign : failure.Foreign heard)
    (hActs : ∀ act ∈ acts, act.Suits ctx job protocol port heard) :
    Progress.Suited ctx job protocol port heard (.broken a failure, acts) := by
  refine ⟨fun _ hWaits => (by cases hWaits), fun _ other hBroken => ?_, hActs⟩
  cases hBroken
  exact hForeign

theorem suited_needsTunnel (hStep : Progress.Suited ctx job protocol port heard step) :
    Progress.Suited ctx job protocol port heard (needsTunnel step) := by
  obtain ⟨progress, acts⟩ := step
  cases progress with
  | broken broken failure =>
      refine suited_broken (hStep.breaks broken failure rfl) (List.forall_mem_append.mpr ?_)
      refine ⟨hStep.acts, fun act hMem => ?_⟩
      rw [List.mem_singleton.mp hMem]
      trivial
  | waiting next | connected next => exact hStep

theorem suited_dial (hPort : a.port = port) (hDirect : protocol = .ossh) {endpoint : Endpoint}
    (hHeard : heard (.resolved (some endpoint))) :
    Progress.Suited ctx job protocol port heard (a.dial ctx m endpoint) := by
  have hEnter : Progress.Suited ctx job protocol port heard
      (a.enter ctx m (.dialing endpoint) (.dial endpoint)) :=
    suited_enter hPort (.dial hDirect hHeard)
  have hGuarded : ∀ act ∈ [Act.guarded a.index], act.Suits ctx job protocol port heard := by
    intro act hMem
    rw [List.mem_singleton.mp hMem]
    trivial
  unfold dial
  split
  · exact hEnter
  · split
    · exact suited_broken (.inl (.refused _)) hGuarded
    · exact suited_after hGuarded hEnter

theorem suited_socketOpened (a : Attempt) :
    ∀ act ∈ a.socketOpened, act.Suits ctx job protocol port heard := by
  intro act hMem
  rw [List.mem_singleton.mp hMem]
  trivial

/-- An attempt is for a protocol and a test port: it is sound, and these are its own. -/
structure IsFor (ctx : RoundContext) (job : Job) (protocol : Protocol) (port : UInt16)
    (a : Attempt) : Prop where
  sound : a.Sound ctx job
  protocol : a.protocol = protocol
  port : a.port = port

theorem IsFor.direct (hFor : a.IsFor ctx job protocol port)
    (hDirect : a.protocol.usesSubServer = false) : protocol = .ossh := by
  rw [hFor.protocol] at hDirect
  cases protocol with
  | ossh => rfl
  | unfrontedMeekOssh | frontedMeekOssh => cases hDirect

theorem suited_dialedDirect {endpoint : Endpoint} (hFor : a.IsFor ctx job protocol port)
    (hStage : a.stage = .dialing endpoint) :
    Progress.Suited ctx job protocol port heard (a.holdSocket.dialedDirect ctx m) := by
  have hUses : a.protocol.usesSubServer = false := by
    simpa [Stage.Fits, hStage] using hFor.sound.fits
  have hDirect : protocol = .ossh := hFor.direct hUses
  have hCandidate : a.candidate = job.candidate.wroteBack protocol := by
    rw [hFor.sound.candidate, hStage, ← hFor.protocol]
    exact (job.candidate.wroteBack_of_direct hUses).symm
  have hPort : a.holdSocket.port = port := hFor.port
  unfold dialedDirect
  split
  case h_1 proxy hProxy =>
    have hTunnel : (Inquiry.tunnel a.candidate.ipAddress a.port proxy.credentials).Suits ctx job
        protocol port heard := by
      rw [hFor.sound.serves.candidate.ipAddress_eq, hFor.port]
      exact .tunnel hDirect hProxy
    exact suited_needsTunnel (suited_enter hPort hTunnel)
  case h_2 =>
    have hEstablish : (Inquiry.establish a.candidate ctx.session).Suits ctx job protocol port
        heard := by
      rw [hCandidate]
      exact .establish
    exact suited_enter hPort hEstablish

/-- Whatever an attempt is answered that it waits for, it goes on as suits. -/
theorem suited_answer (hFor : a.IsFor ctx job protocol port) {given : Answer}
    (hHeard : heard given) :
    Progress.Suited ctx job protocol port heard (a.answer ctx m given) := by
  have hNothing : ∀ act ∈ ([] : List Act), act.Suits ctx job protocol port heard := by simp
  have hHanded : ∀ failure, given.failure? = some failure → failure.Foreign heard :=
    fun failure hFailure => .inr ⟨given, hHeard, hFailure⟩
  unfold answer
  split
  case h_1 endpoint hStage =>
    have hUses : a.protocol.usesSubServer = false := by
      simpa [Stage.Fits, hStage] using hFor.sound.fits
    exact suited_dial hFor.port (hFor.direct hUses) hHeard
  case h_2 => exact suited_broken (.inl (.unresolved _ _)) hNothing
  case h_3 hStage =>
    exact suited_after (suited_socketOpened a) (suited_dialedDirect hFor hStage)
  case h_4 => exact suited_broken (.inl (.connect _ _)) hNothing
  case h_5 hStage =>
    have hUses : a.protocol.usesSubServer = false := by
      simpa [Stage.Fits, hStage] using hFor.sound.fits
    have hCandidate : a.candidate = job.candidate.wroteBack protocol := by
      rw [hFor.sound.candidate, hStage, ← hFor.protocol]
      exact (job.candidate.wroteBack_of_direct hUses).symm
    have hEstablish : (Inquiry.establish a.candidate ctx.session).Suits ctx job protocol port
        heard := by
      rw [hCandidate]
      exact .establish
    exact suited_enter hFor.port hEstablish
  case h_6 => exact suited_needsTunnel (suited_broken (hHanded _ rfl) hNothing)
  case h_7 own hStage =>
    have hSub : protocol.usesSubServer = true := by
      simpa [Stage.Fits, hStage, hFor.protocol] using hFor.sound.fits
    refine suited_after (fun act hMem => ?_)
      (suited_enter hFor.port (.dialSubServer hSub hHeard))
    rw [List.mem_singleton.mp hMem]
    trivial
  case h_8 => exact suited_broken (hHanded _ rfl) hNothing
  case h_9 endpoint hStage =>
    have hCandidate : a.candidate = { job.candidate with connType := some a.protocol } := by
      rw [hFor.sound.candidate, hStage]
      rfl
    have hEstablish : (Inquiry.establish a.holdSocket.noteFront.candidate ctx.session).Suits ctx
        job protocol port heard := by
      rw [noteFront_candidate a.holdSocket hCandidate]
      show (Inquiry.establish (job.candidate.wroteBack a.protocol) ctx.session).Suits ctx job
        protocol port heard
      rw [hFor.protocol]
      exact .establish
    have hPort : a.holdSocket.noteFront.port = port := by
      rw [← hFor.port]
      unfold noteFront
      split <;> rfl
    exact suited_after (suited_socketOpened a) (suited_enter hPort hEstablish)
  case h_10 => exact suited_broken (.inl (.connect _ _)) hNothing
  case h_11 =>
    refine ⟨fun _ hWaits => (by cases hWaits), fun _ _ hBroken => (by cases hBroken), ?_⟩
    intro act hMem
    rw [List.mem_singleton.mp hMem]
    trivial
  case h_12 => exact suited_broken (hHanded _ rfl) hNothing
  case h_13 =>
    refine ⟨fun next hWaits => ?_, fun _ _ hBroken => (by cases hBroken), hNothing⟩
    cases hWaits
    exact hFor.port

theorem suited_poll (hPort : a.port = port) :
    Progress.Suited ctx job protocol port heard (a.poll ctx m) := by
  have hBroken : Progress.Suited ctx job protocol port heard (.broken a .aborted, []) :=
    suited_broken (.inl .aborted) (by simp)
  unfold poll
  split
  · split
    · exact suited_needsTunnel hBroken
    · exact hBroken
  · refine ⟨fun next hWaits => ?_, fun _ _ hOther => (by cases hOther), by simp⟩
    cases hWaits
    exact hPort

end Attempt

/-! ## How an attempt begins -/

/-- The attempt that a worker makes of a job, before its first step. -/
def Attempt.ofJob (m : Moment) (job : Job) (protocol : Protocol) : Attempt where
  index := job.index
  dispatched := job.candidate
  candidate := { job.candidate with connType := some protocol }
  protocol
  began := m.now
  due := m.now

theorem Attempt.begun_ofJob {ctx : RoundContext} {job : Job} {protocol : Protocol} (m : Moment)
    (hChosen : TargetSequence.choose ctx.targets job.candidate = some protocol) :
    (Attempt.ofJob m job protocol).Begun ctx job :=
  ⟨rfl, rfl, hChosen, rfl, rfl, rfl⟩

theorem Worker.start_of_chosen {ctx : RoundContext} {job : Job} {protocol : Protocol} {m : Moment}
    {told : Bool} (hChosen : TargetSequence.choose ctx.targets job.candidate = some protocol) :
    Worker.start ctx m told job =
      Worker.settle ctx m told ((Attempt.ofJob m job protocol).start ctx m) := by
  simp only [Worker.start, hChosen]
  rfl

/-- Whether a candidate is to be reached by its web port and has none. -/
def Candidate.LacksWebPort (candidate : Candidate) (protocol : Protocol) : Prop :=
  protocol = .unfrontedMeekOssh ∧ candidate.meekServerPort = none

namespace Dial

/-- A candidate that supports a protocol can be reached by its sub-server unless
the web port is wanting. -/
theorem reaches_of_supports {candidate : Candidate} {protocol : Protocol}
    (hSub : protocol.usesSubServer = true) (hSupports : candidate.supports protocol = true)
    (hPort : ¬ candidate.LacksWebPort protocol) :
    ∃ dial, Dial.of candidate protocol = .ok dial ∧ dial.Reaches candidate protocol := by
  cases protocol with
  | ossh => cases hSub
  | unfrontedMeekOssh =>
      cases hWeb : candidate.meekServerPort with
      | none => exact absurd ⟨rfl, hWeb⟩ hPort
      | some web => exact ⟨_, by simp only [Dial.of, hWeb], .direct hWeb⟩
  | frontedMeekOssh =>
      rw [Candidate.supports, Bool.and_eq_true] at hSupports
      obtain ⟨domain, hDomain⟩ := Option.isSome_iff_exists.mp hSupports.2
      refine ⟨.fronted domain (candidate.meekFrontingHost.getD domain), ?_, .fronted hDomain ?_⟩
      · simp only [Dial.of, hDomain]
      · cases candidate.meekFrontingHost with
        | none => exact .inr ⟨rfl, rfl⟩
        | some host => exact .inl rfl

end Dial

/-- A first step that passed every check: the attempt waits for its first answer,
or it was called off on the way there. -/
structure Progress.Begins (ctx : RoundContext) (job : Job) (protocol : Protocol) (m : Moment)
    (step : Progress × List Act) : Prop where
  waits : m.aborted = false →
    ∃ a inquiry, step.1 = .waiting a ∧ .asked job.index inquiry ∈ step.2
  calledOff : m.aborted = true → ∃ a, step.1 = .broken a .aborted
  makes : protocol.usesSubServer = true →
    ∃ target, .made job.index target ctx.protector.isSome ∈ step.2

namespace Attempt

variable {ctx : RoundContext} {job : Job} {protocol : Protocol} {port : UInt16}
  {heard : Answer → Prop} {m : Moment} {a : Attempt}

theorem begins_enter {acts : List Act} {stage : Stage} {inquiry : Inquiry}
    (hIndex : a.index = job.index)
    (hMakes : protocol.usesSubServer = true →
      ∃ target, .made job.index target ctx.protector.isSome ∈ acts) :
    Progress.Begins ctx job protocol m (after acts (a.enter ctx m stage inquiry)) where
  waits hLowered := by
    simp [after, enter, hLowered, hIndex]
  calledOff hRaised := by
    simp [after, enter, hRaised]
  makes hSub := by
    obtain ⟨target, hMade⟩ := hMakes hSub
    exact ⟨target, List.mem_append_left _ hMade⟩

/-- The direct protocol begins with the address of its destination. -/
theorem beginDirect_eq :
    a.beginDirect ctx m =
      after [] (({ a with usedProxy := ctx.proxy.isSome } : Attempt).enter ctx m .resolving
        (.resolve (a.destination ctx).1 (a.destination ctx).2)) := rfl

/-- The destination is the proxy, or the candidate on its test port. -/
theorem suits_destination (hCandidate : a.candidate.ipAddress = job.candidate.ipAddress)
    (hPort : a.port = port) (hDirect : protocol = .ossh) :
    (Inquiry.resolve (a.destination ctx).1 (a.destination ctx).2).Suits ctx job protocol port
      heard := by
  unfold destination
  split
  case h_1 proxy hProxy => exact .resolveProxy hDirect hProxy
  case h_2 hNoProxy =>
    rw [hCandidate, hPort]
    exact .resolveRelay hDirect hNoProxy

/-- Without the web port the attempt ends at that check. -/
theorem start_of_lacking (hPort : job.candidate.testPort? = some port)
    (hNone : job.candidate.meekServerPort = none) :
    (ofJob m job .unfrontedMeekOssh).start ctx m =
      (.broken { ofJob m job .unfrontedMeekOssh with port }
        (.noTestPort job.candidate.ipAddress), []) := by
  have hTest : (ofJob m job .unfrontedMeekOssh).candidate.testPort? = some port := hPort
  have hUses : (ofJob m job .unfrontedMeekOssh).protocol.usesSubServer = true := rfl
  have hDial : Dial.of (ofJob m job .unfrontedMeekOssh).candidate
      (ofJob m job .unfrontedMeekOssh).protocol = .error (.noTestPort job.candidate.ipAddress) := by
    simp only [Dial.of, ofJob, hNone]
  simp only [start, hTest, hUses, if_true, beginSubServer, hDial]

/-- An attempt on a candidate that supports its protocol and has the ports for it
passes every check. -/
theorem suited_start (hBegun : a.Begun ctx job) (hProtocol : a.protocol = protocol)
    (hPort : job.candidate.testPort? = some port)
    (hSupports : job.candidate.supports protocol = true)
    (hWeb : ¬ job.candidate.LacksWebPort protocol) :
    Progress.Suited ctx job protocol port heard (a.start ctx m) ∧
      Progress.Begins ctx job protocol m (a.start ctx m) := by
  have hTest : a.candidate.testPort? = some port := by
    rw [hBegun.candidate]
    exact hPort
  have hAddress : a.candidate.ipAddress = job.candidate.ipAddress := by rw [hBegun.candidate]
  simp only [start, hTest]
  by_cases hSub : a.protocol.usesSubServer = true
  · rw [if_pos hSub]
    rw [hProtocol] at hSub
    obtain ⟨dial, hDial, hReaches⟩ := Dial.reaches_of_supports hSub hSupports hWeb
    have hSame : Dial.of a.candidate a.protocol = .ok dial := by
      rw [hBegun.candidate, hProtocol, ← hDial]
      rfl
    have hServes : (SubServerTarget.of a.candidate port dial ctx.session).Serves ctx job.candidate
        protocol port := by
      rw [hBegun.candidate]
      exact ⟨rfl, hReaches, rfl, rfl, rfl⟩
    simp only [beginSubServer, hSame]
    refine ⟨suited_after ?_ (suited_enter rfl (.start hSub hServes)), begins_enter hBegun.index ?_⟩
    · intro act hMem
      rw [List.mem_cons, List.mem_singleton] at hMem
      rcases hMem with rfl | rfl
      · exact ⟨hSub, hServes⟩
      · trivial
    · intro _
      exact ⟨_, by rw [← hBegun.index]; exact List.mem_cons_self⟩
  · rw [if_neg hSub]
    rw [hProtocol] at hSub
    have hDirect : protocol = .ossh := by
      cases protocol with
      | ossh => rfl
      | unfrontedMeekOssh | frontedMeekOssh => exact absurd rfl hSub
    rw [beginDirect_eq]
    refine ⟨suited_after (by simp) (suited_enter rfl ?_),
      begins_enter hBegun.index fun hUses => absurd hUses hSub⟩
    exact suits_destination hAddress rfl hDirect

end Attempt

end RelayRace
