import RelayRace.Proxy.Settings
import RelayRace.Text.Base64
import RelayRace.Text.Utf8

/-!
# Asking a proxy for a tunnel

The request names the host and the port that the proxy shall connect to, once
in the request line and once in the `Host` line. Credentials travel as one
token in a line of their own, and an empty line ends the request.
-/

namespace RelayRace.Proxy

open Text

/-- The end of a line of the request. -/
def lineEnd : String := "\r\n"

/-- The place a tunnel is asked for. The host stands as it is given, without
brackets around a version 6 address. -/
def authority (host : String) (port : UInt16) : String := host ++ ":" ++ decimal port.toNat

/-- The token of credentials: name and password with a colon between them. -/
def token (c : Credentials) : String :=
  String.ofList (Base64.encode (Utf8.encode (c.username ++ ":" ++ c.password)))

/-- The line that carries credentials, if there are any. -/
def authorization : Option Credentials → String
  | some c => "Proxy-Authorization: Basic " ++ token c ++ lineEnd
  | none => ""

/-- The whole request. -/
def connectRequest (host : String) (port : UInt16) (credentials : Option Credentials) : String :=
  "CONNECT " ++ authority host port ++ " HTTP/1.1" ++ lineEnd ++
    "Host: " ++ authority host port ++ lineEnd ++
    authorization credentials ++ lineEnd

end RelayRace.Proxy
