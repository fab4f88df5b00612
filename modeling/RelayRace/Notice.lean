import RelayRace.Failure
import RelayRace.Logging

/-!
# Notices

What the selector tells its log, one constructor for each occasion. The level
and the wording follow from the occasion, so a statement about what is logged
is a statement about constructors and never about text.
-/

namespace RelayRace

open Text

/-- What is told about every result of a round. -/
structure ResponseCheck where
  address : String
  protocol : Option Protocol
  front : Option String
  responded : Bool
  elapsed : Duration
  error : Option String
  region : String
  deriving DecidableEq, Repr

/-- The words for a truth value. -/
def truthWord (b : Bool) : String := if b then "true" else "false"

/-- The check in words; the time taken is worded by the caller. -/
def ResponseCheck.text (check : ResponseCheck) (millis : String) : String :=
  "ServerResponseCheck ipAddress=" ++ check.address ++
    " connType=" ++ (check.protocol.map Protocol.name).getD "" ++
    " front=" ++ check.front.getD "" ++
    " responded=" ++ truthWord check.responded ++
    " responseTime=" ++ millis ++ "ms" ++
    " error=" ++ check.error.getD "" ++
    " regionCode=" ++ check.region

/-- An occasion that is logged. -/
inductive Notice where
  /-- The run loop starts a round with the targets of this label. -/
  | selecting (label : String)
  /-- The run loop moved on to the targets of this label. -/
  | rotated (label : String)
  /-- The run loop could not refresh the server list. -/
  | fetchFailed (failure : Failure)
  /-- The remote list was fetched too short a time ago to be fetched again. -/
  | fetchedRecently
  /-- The remote list was fetched and brought this many new entries. -/
  | fetched (added : Nat)
  /-- A round waits for the network. -/
  | awaitingConnectivity
  /-- The region a round is confined to. -/
  | regionSelected (region : Option String)
  /-- Whether a round goes through a proxy. -/
  | proxyChaining (enabled : Bool)
  /-- The proxy of a round. -/
  | viaProxy (host : String) (port : UInt16)
  /-- An attempt failed for a reason of its own. -/
  | probeFailed (address : String) (failure : Failure)
  /-- An attempt failed in the way of a broken proxy. -/
  | proxyConnectError (failure : Failure)
  /-- An attempt failed in the way of a broken route. -/
  | networkUnreachable (failure : Failure)
  /-- The probe of this address crashed. -/
  | probeCrashed (address : String)
  /-- A result of a round. -/
  | responseCheck (check : ResponseCheck)
  /-- How many responders a round moved to the front of the list. -/
  | preferredServers (count : Nat)
  /-- The winner of a round. -/
  | selected (address : String) (protocol : Protocol) (front : Option String)
  deriving DecidableEq, Repr

namespace Notice

/-- How grave the occasion is. -/
def level : Notice → Level
  | .selecting .. | .fetched .. | .awaitingConnectivity | .regionSelected ..
  | .proxyChaining .. | .viaProxy .. | .preferredServers .. | .selected .. => .info
  | .rotated .. | .fetchFailed .. => .warn
  | .fetchedRecently | .probeFailed .. | .responseCheck .. => .debug
  | .proxyConnectError .. | .networkUnreachable .. | .probeCrashed .. => .error

/-- The occasion in words. -/
def text : Notice → String
  | .selecting label => "selecting server, target protocols: " ++ label
  | .rotated label => "rotating target protocol state to " ++ label
  | .fetchFailed failure => "fetch remote server list failed: " ++ failure.message
  | .fetchedRecently => "remote server list fetched recently, skipping"
  | .fetched added => "remote server list fetched, " ++ decimal added ++ " new entries"
  | .awaitingConnectivity => "waiting for network connectivity"
  | .regionSelected region => "selected region: " ++ region.getD "<any>"
  | .proxyChaining enabled => "proxy chaining enabled: " ++ truthWord enabled
  | .viaProxy host port => "connecting via network proxy " ++ host ++ ":" ++ decimal port.toNat
  | .probeFailed address failure => "probe of " ++ address ++ " failed: " ++ failure.message
  | .proxyConnectError failure => "network proxy connect error: " ++ failure.message
  | .networkUnreachable failure => "network unreachable: " ++ failure.message
  | .probeCrashed address => "probe worker for " ++ address ++ " panicked"
  | .responseCheck check => check.text (decimal check.elapsed.millis)
  | .preferredServers count => "preferred servers: " ++ decimal count
  | .selected address protocol front =>
      "SelectedServer ipAddress=" ++ address ++ " connType=" ++ protocol.name ++
        " front=" ++ front.getD ""

/-- Whether the occasion is one of a single probe, so that its place among those
of other probes is left to chance. -/
def isOfProbe : Notice → Bool
  | .probeFailed .. | .proxyConnectError .. | .networkUnreachable .. | .probeCrashed ..
  | .responseCheck .. => true
  | _ => false

/-- A log line: the level and the words. -/
def line (notice : Notice) : String := notice.level.name ++ " " ++ notice.text

end Notice

end RelayRace
