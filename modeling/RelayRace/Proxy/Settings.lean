import RelayRace.Text.Record

/-!
# Proxies

A proxy is a host, a port and, for some, a user name and a password. A password
is shown nowhere: the `Shown` of credentials has a fixed text in its place.
-/

namespace RelayRace

open Text

/-- A user name and a password. -/
structure Credentials where
  username : String
  password : String
  deriving DecidableEq, Repr

/-- How a proxy is reached. -/
structure ProxySettings where
  host : String
  port : UInt16
  credentials : Option Credentials := none
  deriving DecidableEq, Repr

namespace Credentials

/-- The credentials as diagnostics show them, the password left out. -/
def shown (c : Credentials) : Shown :=
  .record "ProxyCredentials" [("username", .text c.username), ("password", .text "<redacted>")]

end Credentials

namespace ProxySettings

/-- The settings as diagnostics show them. -/
def shown (s : ProxySettings) : Shown :=
  .record "ProxySettings"
    [ ("host", .text s.host)
    , ("port", .number s.port.toNat)
    , ("credentials",
        match s.credentials with
        | some c => .present c.shown
        | none => .missing) ]

end ProxySettings

end RelayRace
