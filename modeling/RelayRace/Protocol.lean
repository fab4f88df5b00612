/-!
# Transport protocols and server capabilities

A relay is reached over one of three transport protocols. Each asks for one
capability of the relay, and the two that tunnel through a web front need a
local obfuscation sub-server on this side of the connection.

The order of the constructors is the order of preference: `Protocol.all` lists
them in it, and `Protocol.rank` is the key by which ties between protocols are
broken everywhere in the library.
-/

namespace RelayRace

/-! ## Capabilities -/

/-- What a relay says it can do. -/
inductive Capability where
  | handshake
  | vpn
  | ssh
  | ossh
  | frontedMeek
  | unfrontedMeek
  deriving DecidableEq, Repr, Inhabited

namespace Capability

/-- Every capability, in the order in which an unknown name is answered with
the permitted ones. -/
def all : List Capability :=
  [.handshake, .vpn, .ssh, .ossh, .frontedMeek, .unfrontedMeek]

/-- The name under which a capability is stored and shown. -/
def name : Capability → String
  | .handshake => "handshake"
  | .vpn => "VPN"
  | .ssh => "SSH"
  | .ossh => "OSSH"
  | .frontedMeek => "FRONTED-MEEK"
  | .unfrontedMeek => "UNFRONTED-MEEK"

/-- Reads a stored name back. -/
def ofName? (text : String) : Option Capability :=
  all.find? fun capability => capability.name == text

theorem ofName?_name (capability : Capability) :
    ofName? capability.name = some capability := by
  cases capability <;> decide

/-- The capabilities any one of which is enough to carry a tunnel. -/
def sufficientForTunnel : List Capability :=
  [.ossh, .ssh, .frontedMeek, .unfrontedMeek]

end Capability

/-! ## Protocols -/

/-- The transport protocols, most preferred first. -/
inductive Protocol where
  | ossh
  | unfrontedMeekOssh
  | frontedMeekOssh
  deriving DecidableEq, Repr, Inhabited

namespace Protocol

/-- Every protocol in the order of preference. -/
def all : List Protocol := [.ossh, .unfrontedMeekOssh, .frontedMeekOssh]

/-- The name under which a protocol is stored and shown. -/
def name : Protocol → String
  | .ossh => "OSSH"
  | .unfrontedMeekOssh => "UNFRONTED-MEEK-OSSH"
  | .frontedMeekOssh => "FRONTED-MEEK-OSSH"

/-- Reads a stored name back. -/
def ofName? (text : String) : Option Protocol :=
  all.find? fun protocol => protocol.name == text

theorem ofName?_name (protocol : Protocol) : ofName? protocol.name = some protocol := by
  cases protocol <;> decide

/-- The place of a protocol in the order of preference. -/
def rank : Protocol → Nat
  | .ossh => 0
  | .unfrontedMeekOssh => 1
  | .frontedMeekOssh => 2

/-- Whether the protocol runs through a local obfuscation sub-server. -/
def usesSubServer : Protocol → Bool
  | .ossh => false
  | .unfrontedMeekOssh => true
  | .frontedMeekOssh => true

/-- The capability that a relay must have for the protocol. -/
def requiredCapability : Protocol → Capability
  | .ossh => .ossh
  | .unfrontedMeekOssh => .unfrontedMeek
  | .frontedMeekOssh => .frontedMeek

end Protocol

end RelayRace
