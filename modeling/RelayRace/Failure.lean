import RelayRace.Net.Endpoint
import RelayRace.Net.IoFault
import RelayRace.Settings
import RelayRace.TargetSequence

/-!
# Failures

Everything that can go wrong, each with its cause. The wording of all of them
is in one function, `Failure.message`, and the classes by which the library
decides what to do about a failure are predicates beside it.

A failure of one attempt stays inside the probe that made it. It never ends a
round: a round without a winner is answered by the next set of protocols.
-/

namespace RelayRace

open Text

/-- What went wrong. -/
inductive Failure where
  | unresolved (host : String) (port : UInt16)
  | proxyTunnel (message : String)
  | connect (endpoint : Endpoint) (cause : IoFault)
  | handshake (message : String)
  | subServer (message : String)
  | noProtocol (address : String)
  | noTestPort (address : String)
  | aborted
  | store (message : String)
  | remoteFetch (message : String)
  | configuration (message : String)
  | inputOutput (cause : IoFault)
  | internal (message : String)
  deriving DecidableEq, Repr

namespace Failure

/-- The failure in words. -/
def message : Failure → String
  | .unresolved host port =>
      "Cannot resolve network address for " ++ host ++ ":" ++ decimal port.toNat
  | .proxyTunnel message => "Proxy tunnel failed: " ++ message
  | .connect endpoint cause => "Connect to " ++ endpoint.text ++ " failed: " ++ cause.text
  | .handshake message => "Handshake failed: " ++ message
  | .subServer message => "Obfuscation server error: " ++ message
  | .noProtocol address => "No target protocol supported by " ++ address
  | .noTestPort address => "No reachability test port for " ++ address
  | .aborted => "Operation aborted"
  | .store message => "Server list store error: " ++ message
  | .remoteFetch message => "Remote server list fetch failed: " ++ message
  | .configuration message => "Configuration error: " ++ message
  | .inputOutput cause => "I/O error: " ++ cause.text
  | .internal message => "Internal error: " ++ message

/-- The number of a kind of failure. -/
def code : Failure → Nat
  | .unresolved .. => 2001
  | .proxyTunnel .. => 2002
  | .connect .. => 2003
  | .handshake .. => 2004
  | .subServer .. => 2005
  | .noProtocol .. => 2006
  | .noTestPort .. => 2007
  | .aborted => 2008
  | .store .. => 2009
  | .remoteFetch .. => 2010
  | .configuration .. => 2011
  | .inputOutput .. => 2012
  | .internal .. => 2999

/-- Whether another attempt may fare better. -/
def isRecoverable : Failure → Bool
  | .store .. | .remoteFetch .. | .configuration .. | .internal .. => false
  | _ => true

/-- Whether the attempt was called off. -/
def isAborted : Failure → Bool
  | .aborted => true
  | _ => false

/-- The fault of the network or the operating system below the failure. -/
def cause? : Failure → Option IoFault
  | .connect _ cause => some cause
  | .inputOutput cause => some cause
  | _ => none

/-- Whether the failure says that there is no way to the other side at all. -/
def isUnreachable (failure : Failure) : Bool :=
  match failure.cause? with
  | some cause => cause.isUnreachable
  | none => false

/-- Whether the failure is one that a broken proxy shows itself by. -/
def isProxyRelated : Failure → Bool
  | .unresolved .. | .proxyTunnel .. | .connect .. => true
  | _ => false

/-- Whether the failure is one of the configuration. -/
def isConfiguration : Failure → Bool
  | .configuration .. => true
  | _ => false

/-- Refused settings. -/
def ofSettings (fault : SettingsFault) : Failure := .configuration fault.message

/-- A refused target list. -/
def ofTargets (fault : TargetFault) : Failure := .configuration fault.message

/-- A protocol name that stands for no protocol. -/
def unknownProtocol (name : String) : Failure :=
  .configuration ("unknown relay protocol: " ++ name)

/-- An unforeseen error, of which the outermost of the contexts that were put
around it is told. -/
def ofContexts (message : String) (contexts : List String) : Failure :=
  .internal (contexts.getLast?.getD message)

end Failure

/-- Reads a protocol's name. -/
def Protocol.parse (name : String) : Except Failure Protocol :=
  match Protocol.ofName? name with
  | some protocol => .ok protocol
  | none => .error (Failure.unknownProtocol name)

end RelayRace
