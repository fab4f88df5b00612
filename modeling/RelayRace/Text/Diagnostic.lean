import RelayRace.Text.Digits
import RelayRace.Text.Unshown

/-!
# Quoted diagnostic text

The form in which a text is shown inside a diagnostic: between double quotes,
with a backslash before quotes and backslashes, with short escapes for the
common controls, and with every character that has no shape of its own given by
its number.
-/

namespace RelayRace.Text

/-- One character of a diagnostic text. -/
def diagnosticChar (c : Char) : List Char :=
  match c with
  | '\x00' => ['\\', '0']
  | '\t' => ['\\', 't']
  | '\r' => ['\\', 'r']
  | '\n' => ['\\', 'n']
  | '\\' => ['\\', '\\']
  | '"' => ['\\', '"']
  | _ =>
      if isUnshown c then ['\\', 'u', '\x7b'] ++ Nat.toDigits 16 c.toNat ++ ['\x7d'] else [c]

/-- A text as it is shown in a diagnostic. -/
def diagnostic (text : String) : String :=
  "\"" ++ String.ofList (text.toList.flatMap diagnosticChar) ++ "\""

end RelayRace.Text
