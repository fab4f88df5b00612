import RelayRace.Probe.Attempt
import RelayRace.Proxy.Tunnel
import RelayRace.Selection.Round

/-!
# Scripted worlds

A simulated selection runs against a world in which everything that a probe may
ask has a scripted answer and a scripted delay: which endpoints listen, how
sub-servers start and handshakes go, what the proxy replies, and how often there
is no network yet. A script is used up call by call, and its last entry repeats.

A host may have no route at all. Then no connection is ever made, not even one
to the host itself, and every attempt to dial fails in the same way.
-/

namespace RelayRace.Simulation

open Proxy

/-! ## Scripts -/

/-- How a scripted call goes. -/
inductive Conduct where
  | succeed
  | fail (failure : Failure)
  | crash
  /-- A sub-server that starts, but names a port on which nothing listens. -/
  | closed
  deriving DecidableEq, Repr

/-- How a scripted call goes and when; without a delay it never ends. -/
structure Behaviour where
  delay : Option Duration := some .zero
  conduct : Conduct := .succeed
  deriving DecidableEq, Repr

/-- The entry of a script for the next call, and the script after it. -/
def next {α : Type} (otherwise : α) : List α → α × List α
  | [] => (otherwise, [])
  | [last] => (last, [last])
  | first :: rest => (first, rest)

/-- Scripts by address. -/
abbrev Scripts := List (String × List Behaviour)

/-- The behaviour of the next call for an address. A call without a script
succeeds at once. -/
def Scripts.call (scripts : Scripts) (address : String) : Behaviour × Scripts :=
  match scripts with
  | [] => ({}, [])
  | (name, script) :: rest =>
      if name = address then
        let (behaviour, script) := next {} script
        (behaviour, (name, script) :: rest)
      else
        let (behaviour, rest) := Scripts.call rest address
        (behaviour, (name, script) :: rest)

/-! ## Worlds -/

/-- What a proxy does once it has read a request. -/
inductive ProxyConduct where
  /-- It sends a text and keeps the connection. -/
  | reply (text : String)
  | close
  | hang
  deriving DecidableEq, Repr

/-- A proxy, and what it does if anything listens there at all. -/
structure ScriptedProxy where
  settings : ProxySettings
  conduct : Option ProxyConduct := none
  deriving DecidableEq, Repr

/-- A scripted world. -/
structure World where
  /-- Whether the host has a route to anywhere. -/
  routed : Bool := true
  /-- The endpoints on which somebody listens. -/
  listening : List String := []
  handshakes : Scripts := []
  subServers : Scripts := []
  /-- How often there is still no network. -/
  offlineChecks : Nat := 0
  region : Option String := none
  regionCrashes : Bool := false
  proxy : Option ScriptedProxy := none
  /-- The answers of the remote source. -/
  remote : List (Except Failure (List Candidate)) := []
  /-- The port of the next sub-server. -/
  nextPort : UInt16 := 49152

namespace World

/-- What the environment answers when a round asks it, and the world after. -/
def scene (w : World) : Scene × World :=
  ({ online := w.offlineChecks == 0
     region := w.region
     regionCrashes := w.regionCrashes
     proxy := w.proxy.map ScriptedProxy.settings },
    { w with offlineChecks := w.offlineChecks - 1 })

/-- What the remote source answers, and the world after. -/
def fetch (w : World) : Except Failure (List Candidate) × World :=
  let (answer, remote) := next (.ok []) w.remote
  (answer, { w with remote })

/-! ## Answers -/

/-- What comes of an inquiry: an answer, or a crash of whoever asked. -/
inductive Reaction where
  | answer (given : Answer)
  | crash

/-- The address of a host. Hosts are written as addresses; nothing else has
one. -/
def resolve (host : String) (port : UInt16) : Answer :=
  .resolved ((IpAddress.read? host).map fun address => ⟨address, port⟩)

/-- Whether the proxy listens on an endpoint. -/
def proxyListens (w : World) (endpoint : Endpoint) : Bool :=
  match w.proxy with
  | some proxy =>
      proxy.conduct.isSome && endpoint.port == proxy.settings.port &&
        IpAddress.read? proxy.settings.host == some endpoint.address
  | none => false

/-- How dialing an endpoint goes. -/
def dial (w : World) (endpoint : Endpoint) : Answer :=
  if !w.routed then .dialed (some (.ofErrno 101))
  else if w.listening.contains endpoint.text || w.proxyListens endpoint then .dialed none
  else .dialed (some (.ofErrno 111))

/-- The wire to the proxy. -/
def wire (conduct : ProxyConduct) : Wire :=
  match conduct with
  | .reply text => { incoming := [.data (Text.Utf8.encode text)], heldOpen := true }
  | .close => { incoming := [] }
  | .hang => { incoming := [], heldOpen := true }

/-- How the proxy answers a request for a tunnel, if it ever does. -/
def tunnel (w : World) (host : String) (port : UInt16) (credentials : Option Credentials) :
    Option Answer :=
  match w.proxy.bind ScriptedProxy.conduct with
  | none => some (.tunnelled (.ok ()))
  | some conduct =>
      match (openTunnel (wire conduct) host port credentials).1 with
      | .finished result => some (.tunnelled result)
      | .waiting => none

/-- Lets a sub-server listen on the next port. -/
def listen (w : World) : UInt16 × World :=
  let endpoint : Endpoint := ⟨.loopback, w.nextPort⟩
  (w.nextPort, { w with
    listening := endpoint.text :: w.listening
    nextPort := w.nextPort + 1 })

/-- The part of a relay's address before its last colon. -/
def hostOf (relay : String) : String :=
  String.ofList ((relay.toList.reverse.dropWhile (· != ':')).drop 1).reverse

/-- How the start of a sub-server goes. -/
def start (w : World) (conduct : Conduct) : Reaction × World :=
  match conduct with
  | .succeed =>
      let (port, w) := w.listen
      (.answer (.started (.ok port)), w)
  | .closed => (.answer (.started (.ok 1)), w)
  | .fail failure => (.answer (.started (.error failure)), w)
  | .crash => (.crash, w)

/-- How a handshake goes. -/
def shake : Conduct → Reaction
  | .succeed | .closed => .answer (.shaken (.ok ()))
  | .fail failure => .answer (.shaken (.error failure))
  | .crash => .crash

/-- What comes of an inquiry and after which time, if ever, and the world after
it was made. -/
def ask (w : World) (inquiry : Inquiry) : Option (Duration × Reaction) × World :=
  match inquiry with
  | .resolve host port => (some (.zero, .answer (resolve host port)), w)
  | .dial endpoint => (some (.zero, .answer (w.dial endpoint)), w)
  | .tunnel host port credentials =>
      ((w.tunnel host port credentials).map fun given => (.zero, .answer given), w)
  | .start target =>
      let (behaviour, subServers) := w.subServers.call (hostOf target.relay)
      let (reaction, w) := start { w with subServers } behaviour.conduct
      (behaviour.delay.map (·, reaction), w)
  | .establish candidate _ =>
      let (behaviour, handshakes) := w.handshakes.call candidate.ipAddress
      (behaviour.delay.map (·, shake behaviour.conduct), { w with handshakes })

end World

end RelayRace.Simulation
