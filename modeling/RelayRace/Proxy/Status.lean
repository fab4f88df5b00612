import RelayRace.Failure
import RelayRace.Text.Blank

/-!
# The status line of a proxy's answer

The line is read as words that blanks separate. The first must begin with the
name of the protocol in its first major version, the second must be a status:
exactly three digits, the first of them not zero. What follows is not looked at.
-/

namespace RelayRace.Proxy

open Text

/-- The word that every accepted line begins with. -/
def versionMark : List Char := "HTTP/1.".toList

/-- Reads a status: three digits, the first one not zero. -/
def readStatus? : List Char → Option Nat
  | [a, b, c] =>
      match decimalValue? a, decimalValue? b, decimalValue? c with
      | some x, some y, some z => if x = 0 then none else some (100 * x + 10 * y + z)
      | _, _, _ => none
  | _ => none

/-- Whether a status means success. -/
def isSuccess (status : Nat) : Bool := 200 ≤ status && status < 300

/-- Reads the status off a line. -/
def readStatusLine (line : List Char) : Except Failure Nat :=
  let (version, rest) := nextWord line
  if versionMark.isPrefixOf version then
    match readStatus? (nextWord rest).1 with
    | some status => .ok status
    | none =>
        .error (.proxyTunnel ("malformed proxy status: " ++ String.ofList (trim line)))
  else .error (.proxyTunnel ("malformed proxy response: " ++ String.ofList (trim line)))

end RelayRace.Proxy
