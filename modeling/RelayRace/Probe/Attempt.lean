import RelayRace.Probe.Act
import RelayRace.Probe.Context

/-!
# Attempts

An attempt connects to one candidate over one protocol and shakes hands with it.
It goes through stages, and in each it waits for one answer. On entering a
stage, and at every poll after that, it looks at its signal and breaks off when
it is raised; so the answer that it waits for can still arrive after the signal
was raised, but no further stage is entered.

The direct protocol resolves a host, dials it, and asks for a tunnel when there
is a proxy. The others start a sub-server and dial that on this host. Both end
with the handshake.

The steps are written as functions from the attempt and what happened to the
attempt that goes on, or to the failure or the success that ends it. Whatever is
opened is held from that moment on, so that whoever ends the attempt can close
it.
-/

namespace RelayRace

/-! ## Holdings -/

/-- Which handles are held. -/
structure Holdings where
  socket : Bool := false
  subServer : Bool := false
  connection : Bool := false
  deriving DecidableEq, Repr

namespace Holdings

/-- Whether anything is held. -/
def isOpen (h : Holdings) : Bool := h.socket || h.subServer || h.connection

/-- The held handles in the order in which they are closed. -/
def handles (h : Holdings) (owner : Nat) : List Handle :=
  (if h.connection then [⟨.connection, owner⟩] else []) ++
    (if h.subServer then [⟨.subServer, owner⟩] else []) ++
    (if h.socket then [⟨.socket, owner⟩] else [])

/-- The acts that close everything that is held. -/
def closing (h : Holdings) (owner : Nat) : List Act := (h.handles owner).map .closed

/-- Closes everything that is held; then nothing is, so that doing it again
closes nothing. -/
def release (h : Holdings) (owner : Nat) : Holdings × List Act := ({}, h.closing owner)

end Holdings

/-! ## Attempts under way -/

/-- What an attempt waits for. -/
inductive Stage where
  | resolving
  | dialing (endpoint : Endpoint)
  | tunnelling
  | starting
  | dialingSubServer (endpoint : Endpoint)
  | handshaking
  deriving DecidableEq, Repr

/-- An attempt under way. -/
structure Attempt where
  /-- The dispatch index of the probe. -/
  index : Nat
  /-- The candidate as it was dispatched. -/
  dispatched : Candidate
  /-- The candidate with what the attempt wrote back. -/
  candidate : Candidate
  protocol : Protocol
  /-- The test port of the candidate. -/
  port : UInt16 := 0
  /-- When the probe began. -/
  began : Instant
  stage : Stage := .resolving
  /-- When the signal is looked at next. -/
  due : Instant
  usedProxy : Bool := false
  held : Holdings := {}
  deriving DecidableEq, Repr

/-- What came of a step: the attempt goes on, it failed, or it is connected. -/
inductive Progress where
  | waiting (attempt : Attempt)
  | broken (attempt : Attempt) (failure : Failure)
  | connected (attempt : Attempt)
  deriving DecidableEq, Repr

/-- What is true when a probe takes a step: the time, and whether its signal
reads as raised. -/
structure Moment where
  now : Instant
  aborted : Bool
  deriving DecidableEq, Repr

/-- What a stage may be answered with. -/
inductive Answer where
  /-- The address of a host, if it has one. -/
  | resolved (endpoint : Option Endpoint)
  /-- How dialing went wrong, if it did. -/
  | dialed (fault : Option IoFault)
  | tunnelled (result : Except Failure Unit)
  /-- The port of the sub-server. -/
  | started (result : Except Failure UInt16)
  | shaken (result : Except Failure Unit)

namespace Attempt

/-- The host and the port that are resolved: the proxy, or the candidate. -/
def destination (ctx : RoundContext) (a : Attempt) : String × UInt16 :=
  match ctx.proxy with
  | some proxy => (proxy.host, proxy.port)
  | none => (a.candidate.ipAddress, a.port)

/-- Enters a stage unless the signal is raised. -/
def enter (ctx : RoundContext) (m : Moment) (a : Attempt) (stage : Stage) (inquiry : Inquiry) :
    Progress × List Act :=
  if m.aborted then (.broken a .aborted, [])
  else
    (.waiting { a with stage, due := m.now + ctx.poll.nanos }, [.asked a.index inquiry])

/-- Puts acts before those of a step. -/
def after (acts : List Act) (step : Progress × List Act) : Progress × List Act :=
  (step.1, acts ++ step.2)

/-! ## The stages -/

/-- Begins a direct attempt. -/
def beginDirect (ctx : RoundContext) (m : Moment) (a : Attempt) : Progress × List Act :=
  let a := { a with usedProxy := ctx.proxy.isSome }
  let (host, port) := a.destination ctx
  a.enter ctx m .resolving (.resolve host port)

/-- Begins an attempt through a sub-server, which is made before anything is
waited for. -/
def beginSubServer (ctx : RoundContext) (m : Moment) (a : Attempt) : Progress × List Act :=
  match Dial.of a.candidate a.protocol with
  | .error failure => (.broken a failure, [])
  | .ok dial =>
      let target := SubServerTarget.of a.candidate a.port dial ctx.session
      let a := { a with held := { a.held with subServer := true } }
      after
        [.made a.index target ctx.protector.isSome, .opened ⟨.subServer, a.index⟩]
        (a.enter ctx m .starting (.start target))

/-- Begins an attempt. -/
def start (ctx : RoundContext) (m : Moment) (a : Attempt) : Progress × List Act :=
  match a.candidate.testPort? with
  | none => (.broken a (.noTestPort a.candidate.ipAddress), [])
  | some port =>
      let a := { a with port }
      if a.protocol.usesSubServer then a.beginSubServer ctx m else a.beginDirect ctx m

/-- Dials a resolved endpoint, once its socket has been protected. -/
def dial (ctx : RoundContext) (m : Moment) (a : Attempt) (endpoint : Endpoint) :
    Progress × List Act :=
  match ctx.protector with
  | none => a.enter ctx m (.dialing endpoint) (.dial endpoint)
  | some protector =>
      match protector.refusal with
      | some fault => (.broken a (.inputOutput fault), [.guarded a.index])
      | none => after [.guarded a.index] (a.enter ctx m (.dialing endpoint) (.dial endpoint))

/-- Holds the connected socket. -/
def holdSocket (a : Attempt) : Attempt := { a with held := { a.held with socket := true } }

/-- The act of opening the socket. -/
def socketOpened (a : Attempt) : List Act := [.opened ⟨.socket, a.index⟩]

/-- Shakes hands over the connected socket. -/
def shake (ctx : RoundContext) (m : Moment) (a : Attempt) : Progress × List Act :=
  a.enter ctx m .handshaking (.establish a.candidate ctx.session)

/-- A socket to the proxy is worth nothing without the tunnel: when the attempt
breaks off before the tunnel stands, its socket is closed at once. -/
def needsTunnel : Progress × List Act → Progress × List Act
  | (.broken a failure, acts) =>
      (.broken { a with held := { a.held with socket := false } } failure,
        acts ++ [.closed ⟨.socket, a.index⟩])
  | step => step

/-- Goes on from a connected direct socket: to the tunnel or to the handshake. -/
def dialedDirect (ctx : RoundContext) (m : Moment) (a : Attempt) : Progress × List Act :=
  match ctx.proxy with
  | some proxy =>
      needsTunnel
        (a.enter ctx m .tunnelling (.tunnel a.candidate.ipAddress a.port proxy.credentials))
  | none => a.shake ctx m

/-- Writes back the front that the protocol goes through. -/
def noteFront (a : Attempt) : Attempt :=
  match a.protocol with
  | .frontedMeekOssh =>
      { a with candidate := { a.candidate with front := a.candidate.meekFrontingDomain } }
  | .ossh | .unfrontedMeekOssh => a

/-- Goes on with the answer that a stage waited for. An answer that the stage
does not wait for changes nothing. -/
def answer (ctx : RoundContext) (m : Moment) (a : Attempt) (given : Answer) :
    Progress × List Act :=
  match a.stage, given with
  | .resolving, .resolved (some endpoint) => a.dial ctx m endpoint
  | .resolving, .resolved none =>
      let (host, port) := a.destination ctx
      (.broken a (.unresolved host port), [])
  | .dialing _, .dialed none =>
      after a.socketOpened (a.holdSocket.dialedDirect ctx m)
  | .dialing endpoint, .dialed (some fault) => (.broken a (.connect endpoint fault), [])
  | .tunnelling, .tunnelled (.ok ()) => a.shake ctx m
  | .tunnelling, .tunnelled (.error failure) => needsTunnel (.broken a failure, [])
  | .starting, .started (.ok port) =>
      let endpoint : Endpoint := ⟨.loopback, port⟩
      after [.started a.index] (a.enter ctx m (.dialingSubServer endpoint) (.dial endpoint))
  | .starting, .started (.error failure) => (.broken a failure, [])
  | .dialingSubServer _, .dialed none =>
      after a.socketOpened (a.holdSocket.noteFront.shake ctx m)
  | .dialingSubServer endpoint, .dialed (some fault) => (.broken a (.connect endpoint fault), [])
  | .handshaking, .shaken (.ok ()) =>
      (.connected { a with held := { a.held with connection := true } },
        [.opened ⟨.connection, a.index⟩])
  | .handshaking, .shaken (.error failure) => (.broken a failure, [])
  | _, _ => (.waiting a, [])

/-- Looks at the signal between two answers. -/
def poll (ctx : RoundContext) (m : Moment) (a : Attempt) : Progress × List Act :=
  if m.aborted then
    match a.stage with
    | .tunnelling => needsTunnel (.broken a .aborted, [])
    | _ => (.broken a .aborted, [])
  else (.waiting { a with due := m.now + ctx.poll.nanos }, [])

end Attempt

end RelayRace
