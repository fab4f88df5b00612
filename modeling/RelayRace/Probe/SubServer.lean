import RelayRace.Failure
import RelayRace.Session

/-!
# Obfuscation sub-servers

Two of the protocols do not connect to the relay themselves. They start a
server on this host that carries the connection out in disguise, and connect to
that. What such a server has to know follows from the candidate, the protocol
and the session alone, or it is missing something and is never made.
-/

namespace RelayRace

open Text

/-- How a sub-server reaches the relay. -/
inductive Dial where
  /-- Straight to the relay's web port. -/
  | direct (host : String) (port : UInt16)
  /-- Through a web front: the name it is greeted by and the host asked for. -/
  | fronted (domain host : String)
  deriving DecidableEq, Repr

/-- What a sub-server is made for. -/
structure SubServerTarget where
  /-- The relay and its test port. -/
  relay : String
  cookieKey : String
  obfuscatedKey : String
  dial : Dial
  sessionId : String
  deriving DecidableEq, Repr

/-- How a sub-server would reach a candidate over a protocol. A front that is
known by its domain only is also the host. -/
def Dial.of (candidate : Candidate) (protocol : Protocol) : Except Failure Dial :=
  match protocol with
  | .frontedMeekOssh =>
      match candidate.meekFrontingDomain with
      | some domain => .ok (.fronted domain (candidate.meekFrontingHost.getD domain))
      | none => .error (.noProtocol candidate.ipAddress)
  | .ossh | .unfrontedMeekOssh =>
      match candidate.meekServerPort with
      | some port => .ok (.direct candidate.ipAddress port)
      | none => .error (.noTestPort candidate.ipAddress)

/-- The target of a sub-server for a candidate. -/
def SubServerTarget.of (candidate : Candidate) (port : UInt16) (dial : Dial)
    (session : SessionParams) : SubServerTarget where
  relay := candidate.ipAddress ++ ":" ++ decimal port.toNat
  cookieKey := candidate.meekCookieKey
  obfuscatedKey := candidate.meekObfuscatedKey
  dial
  sessionId := session.id

end RelayRace
