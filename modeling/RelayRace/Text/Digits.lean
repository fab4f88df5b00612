/-!
# Numbers as digits

Reading and writing natural numbers in the bases that addresses, ports and
escapes use. Readers work on `List Char`, accept digits only and refuse the
empty text, so no sign, blank or separator slips through.
-/

namespace RelayRace.Text

/-- The value of a hexadecimal digit of either case. -/
def hexValue? (c : Char) : Option Nat :=
  if '0' ≤ c ∧ c ≤ '9' then some (c.toNat - '0'.toNat)
  else if 'a' ≤ c ∧ c ≤ 'f' then some (c.toNat - 'a'.toNat + 10)
  else if 'A' ≤ c ∧ c ≤ 'F' then some (c.toNat - 'A'.toNat + 10)
  else none

/-- The value of a decimal digit. -/
def decimalValue? (c : Char) : Option Nat :=
  if '0' ≤ c ∧ c ≤ '9' then some (c.toNat - '0'.toNat) else none

/-- The lower-case digit of a value below sixteen. -/
def hexDigit (value : Nat) : Char :=
  if value < 10 then Char.ofNat ('0'.toNat + value)
  else Char.ofNat ('a'.toNat + (value - 10))

theorem hexValue?_hexDigit : ∀ value, value < 16 → hexValue? (hexDigit value) = some value := by
  decide

/-- Reads digits of a base onto an accumulator. -/
def digitsOnto (digit? : Char → Option Nat) (base : Nat) : Nat → List Char → Option Nat
  | acc, [] => some acc
  | acc, c :: rest =>
      match digit? c with
      | some d => digitsOnto digit? base (acc * base + d) rest
      | none => none

/-- Reads a decimal number; the empty text is none. -/
def readDecimal? : List Char → Option Nat
  | [] => none
  | c :: rest => digitsOnto decimalValue? 10 0 (c :: rest)

/-- Reads a hexadecimal number; the empty text is none. -/
def readHex? : List Char → Option Nat
  | [] => none
  | c :: rest => digitsOnto hexValue? 16 0 (c :: rest)

/-- The decimal text of a number. -/
def decimal (n : Nat) : String := String.ofList (Nat.toDigits 10 n)

/-- The lower-case hexadecimal text of a number. -/
def hex (n : Nat) : String := String.ofList (Nat.toDigits 16 n)

/-- The lower-case hexadecimal digits of a number, the last `width` of them. -/
def hexPadded : Nat → Nat → List Char
  | 0, _ => []
  | width + 1, n => hexPadded width (n / 16) ++ [hexDigit (n % 16)]

/-- Two hexadecimal digits for every byte. -/
def hexBytes (bytes : List UInt8) : String :=
  String.ofList (bytes.flatMap fun byte => hexPadded 2 byte.toNat)

end RelayRace.Text
