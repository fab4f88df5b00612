import RelayRace.Net.Endpoint
import RelayRace.Notice
import RelayRace.Probe.SubServer
import RelayRace.Proxy.Settings

/-!
# Acts

Everything a selection does to the world around it, in the order in which it
does it. A statement about what happened in a round is a statement about its
acts.

A probe opens at most one handle of each kind, so a handle is told by its kind
and the dispatch index of the probe that opened it.
-/

namespace RelayRace

/-- The kinds of handles that a probe may hold. -/
inductive HandleKind where
  | socket
  | subServer
  | connection
  deriving DecidableEq, Repr

/-- A handle of the probe with the dispatch index `owner`. -/
structure Handle where
  kind : HandleKind
  owner : Nat
  deriving DecidableEq, Repr

/-- What a probe asks of the network and of its collaborators. -/
inductive Inquiry where
  /-- The address of a host. -/
  | resolve (host : String) (port : UInt16)
  /-- A connection to an endpoint. -/
  | dial (endpoint : Endpoint)
  /-- A tunnel through the proxy at the other end of the connection. -/
  | tunnel (host : String) (port : UInt16) (credentials : Option Credentials)
  /-- The start of the sub-server. -/
  | start (target : SubServerTarget)
  /-- The handshake with the relay. -/
  | establish (candidate : Candidate) (session : SessionParams)
  deriving DecidableEq, Repr

/-- Something that a selection does. -/
inductive Act where
  /-- A line is logged. -/
  | noted (notice : Notice)
  /-- The environment is asked whether there is a network. -/
  | checkedConnectivity
  /-- The name resolvers are brought in line with the network. -/
  | refreshedResolvers
  /-- The stored list is read. -/
  | readList
  /-- The stored list is reordered. -/
  | movedToFront (winners : List Candidate)
  /-- The remote source is asked. -/
  | fetched (withProtector : Bool)
  /-- A socket is taken out of the private network. -/
  | guarded (owner : Nat)
  /-- A sub-server is made. -/
  | made (owner : Nat) (target : SubServerTarget) (withProtector : Bool)
  /-- A sub-server runs. -/
  | started (owner : Nat)
  /-- A probe asks for something and waits for it. -/
  | asked (owner : Nat) (inquiry : Inquiry)
  /-- A handle is opened. -/
  | opened (handle : Handle)
  /-- A handle is closed. -/
  | closed (handle : Handle)
  deriving DecidableEq, Repr

/-- The lines that some acts log, in order. -/
def notices (acts : List Act) : List Notice :=
  acts.filterMap fun
    | .noted notice => some notice
    | _ => none

end RelayRace
