import RelayRace.Json.Fault

/-!
# Scanning JSON

Readers of the parts that every value is made of. A reader takes the text from
where a part may begin and answers with the part and the text behind it, so
readers compose and nothing is read twice.

Strings are read by a small machine whose state says what the next character
may be. `skipValue` passes over a value that nobody asked for: it checks the
grammar, but neither surrogates nor the size of numbers.
-/

namespace RelayRace.Json

open Text

/-- A part that was read, and the text behind it. -/
abbrev Scanned (α : Type) := Except Fault (α × List Char)

/-! ## Blanks and words -/

/-- Whether a character may stand between the parts. -/
def isSpace (c : Char) : Bool := c == ' ' || c == '\n' || c == '\t' || c == '\r'

/-- The text from its next part on. -/
def skipSpace (cs : List Char) : List Char := cs.dropWhile isSpace

/-- Passes over the given characters, which have to come next. -/
def passWord : List Char → List Char → Except Fault (List Char)
  | [], cs => .ok cs
  | _ :: _, [] => .error .malformed
  | w :: word, c :: cs => if w = c then passWord word cs else .error .malformed

/-- Passes over one mark, with space before it. -/
def passMark (mark : Char) (cs : List Char) : Except Fault (List Char) :=
  match skipSpace cs with
  | c :: rest => if c = mark then .ok rest else .error .malformed
  | [] => .error .malformed

/-! ## Strings -/

/-- What the next character of a string may be. -/
inductive StringState where
  /-- Any character, the closing quote included. -/
  | plain
  /-- The character behind a backslash. -/
  | escaped
  /-- A digit of a code unit, of which some are still to come; `high` is the
  first half of a surrogate pair, when the unit is to be the second. -/
  | unit (high : Option Nat) (missing : Nat) (value : Nat)
  /-- The backslash of the second half of a pair. -/
  | pairEscape (high : Nat)
  /-- The mark behind that backslash. -/
  | pairMark (high : Nat)
  deriving DecidableEq, Repr

/-- The character that a one-letter escape stands for. -/
def shortEscape? (c : Char) : Option Char :=
  if c = '"' then some '"'
  else if c = '\\' then some '\\'
  else if c = '/' then some '/'
  else if c = 'b' then some '\x08'
  else if c = 'f' then some '\x0c'
  else if c = 'n' then some '\n'
  else if c = 'r' then some '\r'
  else if c = 't' then some '\t'
  else none

/-- What a complete code unit leads to: a character, or the wait for the second
half of a pair. -/
def closeUnit (high : Option Nat) (value : Nat) : Except Fault (Option Char × StringState) :=
  match high with
  | none =>
      if 0xdc00 ≤ value ∧ value ≤ 0xdfff then .error .malformed
      else if 0xd800 ≤ value ∧ value ≤ 0xdbff then .ok (none, .pairEscape value)
      else .ok (some (Char.ofNat value), .plain)
  | some high =>
      if 0xdc00 ≤ value ∧ value ≤ 0xdfff then
        .ok (some (Char.ofNat (0x10000 + (high - 0xd800) * 0x400 + (value - 0xdc00))), .plain)
      else .error .malformed

/-- What a character that does not close the string leads to. -/
def stringStep (state : StringState) (c : Char) : Except Fault (Option Char × StringState) :=
  match state with
  | .plain =>
      if c = '\\' then .ok (none, .escaped)
      else if c.toNat < 0x20 then .error .malformed
      else .ok (some c, .plain)
  | .escaped =>
      if c = 'u' then .ok (none, .unit none 4 0)
      else
        match shortEscape? c with
        | some e => .ok (some e, .plain)
        | none => .error .malformed
  | .unit high missing value =>
      match hexValue? c with
      | none => .error .malformed
      | some d =>
          if missing ≤ 1 then closeUnit high (value * 16 + d)
          else .ok (none, .unit high (missing - 1) (value * 16 + d))
  | .pairEscape high => if c = '\\' then .ok (none, .pairMark high) else .error .malformed
  | .pairMark high => if c = 'u' then .ok (none, .unit (some high) 4 0) else .error .malformed

/-- Reads on in a string, whose characters so far are given last one first. -/
def readString (state : StringState) (reversed : List Char) : List Char → Scanned String
  | [] => .error .malformed
  | c :: rest =>
      if state = .plain ∧ c = '"' then .ok (String.ofList reversed.reverse, rest)
      else
        match stringStep state c with
        | .error fault => .error fault
        | .ok (some d, next) => readString next (d :: reversed) rest
        | .ok (none, next) => readString next reversed rest

/-- Reads a string whose opening quote was taken. -/
def readQuoted (cs : List Char) : Scanned String := readString .plain [] cs

/-- Passes over a string whose opening quote was taken. Code units are not
checked for being paired. -/
def skipString (state : StringState) : List Char → Except Fault (List Char)
  | [] => .error .malformed
  | c :: rest =>
      match state with
      | .unit high missing value =>
          if (hexValue? c).isNone then .error .malformed
          else if missing ≤ 1 then skipString .plain rest
          else skipString (.unit high (missing - 1) value) rest
      | _ =>
          if state = .plain ∧ c = '"' then .ok rest
          else
            match stringStep state c with
            | .error fault => .error fault
            | .ok (_, next) => skipString next rest

/-! ## Numbers -/

/-- A number: an integer of 64 bits, or a double. -/
inductive Number where
  | natural (value : Nat)
  | negative (magnitude : Nat)
  | real (bits : UInt64)
  deriving DecidableEq, Repr

/-- The number as a value that was found. -/
def Number.found : Number → Found
  | .natural value => .natural value
  | .negative magnitude => .negative magnitude
  | .real bits => .real bits

/-- Whether a character is a decimal digit. -/
def isDigit (c : Char) : Bool := (decimalValue? c).isSome

/-- Appends digits to a number as long as it stays within 64 bits, and tells
the number, how many digits it took, and the rest. -/
def gather (value count : Nat) : List Char → Nat × Nat × List Char
  | [] => (value, count, [])
  | c :: rest =>
      match decimalValue? c with
      | none => (value, count, c :: rest)
      | some d =>
          if value * 10 + d < UInt64.size then gather (value * 10 + d) (count + 1) rest
          else (value, count, c :: rest)

/-- The power of ten beyond which a double has no power of ten. -/
def topPower : Nat := 308

/-- A double divided by a power of ten, in steps that are powers themselves. -/
def scaleDown (value : Float) (power : Nat) : Float :=
  if power ≤ topPower then value / Float.ofScientific 1 false power
  else if value == 0.0 then value
  else scaleDown (value / Float.ofScientific 1 false topPower) (power - topPower)
termination_by power
decreasing_by
  simp only [topPower] at *
  omega

/-- The double of a significand and a power of ten, if it is finite. -/
def double? (significand : Nat) (power : Int) : Option Float :=
  let value := (UInt64.ofNat significand).toFloat
  if power < 0 then some (scaleDown value (-power).toNat)
  else if power ≤ topPower then
    let scaled := value * Float.ofScientific 1 false power.toNat
    if scaled.isFinite then some scaled else none
  else if value == 0.0 then some value
  else none

/-- Ends a real number. -/
def closeReal (isNegative : Bool) (significand : Nat) (power : Int) (rest : List Char) :
    Scanned Number :=
  match double? significand power with
  | some value => .ok (.real (if isNegative then -value else value).toBits, rest)
  | none => .error .malformed

/-- Whether a character begins an exponent. -/
def isExponentMark (c : Char) : Bool := c == 'e' || c == 'E'

/-- Whether an exponent comes next. -/
def startsExponent : List Char → Bool
  | [] => false
  | c :: _ => isExponentMark c

/-- Takes the sign off an exponent: whether it is negative, and its digits. -/
def exponentSign : List Char → Bool × List Char
  | '+' :: rest => (false, rest)
  | '-' :: rest => (true, rest)
  | cs => (false, cs)

/-- Reads the exponent of a real number, if one comes next, and ends the
number. -/
def readExponent (isNegative : Bool) (significand : Nat) (power : Int) (cs : List Char) :
    Scanned Number :=
  if startsExponent cs then
    let (down, rest) := exponentSign cs.tail
    match readDecimal? (rest.takeWhile isDigit) with
    | none => .error .malformed
    | some e =>
        closeReal isNegative significand (if down then power - e else power + e)
          (rest.dropWhile isDigit)
  else closeReal isNegative significand power cs

/-- Reads the fraction of a real number, of which the point was taken. Digits
that the significand has no room for are passed over. -/
def readFraction (isNegative : Bool) (significand : Nat) (power : Int) (cs : List Char) :
    Scanned Number :=
  match cs.takeWhile isDigit with
  | [] => .error .malformed
  | _ :: _ =>
      let (significand, count, rest) := gather significand 0 cs
      readExponent isNegative significand (power - count) (rest.dropWhile isDigit)

/-- An integer. The negative zero and negative integers beyond 64 bits are
doubles. -/
def closeInteger (isNegative : Bool) (value : Nat) (rest : List Char) : Scanned Number :=
  if !isNegative then .ok (.natural value, rest)
  else if 0 < value ∧ 2 * value ≤ UInt64.size then .ok (.negative value, rest)
  else closeReal true value 0 rest

/-- Reads what follows the digits that the value has room for. -/
def readAfterInteger (isNegative : Bool) (value : Nat) (cs : List Char) : Scanned Number :=
  let surplus := cs.takeWhile isDigit
  match cs.dropWhile isDigit with
  | '.' :: rest => readFraction isNegative value surplus.length rest
  | rest =>
      if surplus.isEmpty && !startsExponent rest then closeInteger isNegative value rest
      else readExponent isNegative value surplus.length rest

/-- Reads a number whose sign was taken. A zero in front stands alone. -/
def readNumber (isNegative : Bool) (cs : List Char) : Scanned Number :=
  match cs with
  | [] => .error .malformed
  | c :: rest =>
      if c = '0' then
        match rest.takeWhile isDigit with
        | [] => readAfterInteger isNegative 0 rest
        | _ :: _ => .error .malformed
      else if isDigit c then
        let (value, _, rest) := gather 0 0 (c :: rest)
        readAfterInteger isNegative value rest
      else .error .malformed

/-! ## Passing over values -/

/-- Passes over at least one digit. -/
def skipDigits (cs : List Char) : Except Fault (List Char) :=
  match cs.takeWhile isDigit with
  | [] => .error .malformed
  | _ :: _ => .ok (cs.dropWhile isDigit)

/-- Passes over an exponent, if one comes next. -/
def skipExponent (cs : List Char) : Except Fault (List Char) :=
  if startsExponent cs then skipDigits (exponentSign cs.tail).2 else .ok cs

/-- Passes over what follows the digits before the point. -/
def skipAfterInteger (cs : List Char) : Except Fault (List Char) :=
  match cs with
  | '.' :: rest =>
      match skipDigits rest with
      | .ok rest => skipExponent rest
      | .error fault => .error fault
  | _ => skipExponent cs

/-- Passes over a number whose sign was taken. -/
def skipNumber (cs : List Char) : Except Fault (List Char) :=
  match cs with
  | [] => .error .malformed
  | c :: rest =>
      if c = '0' then
        match rest.takeWhile isDigit with
        | [] => skipAfterInteger rest
        | _ :: _ => .error .malformed
      else
        match skipDigits (c :: rest) with
        | .ok rest => skipAfterInteger rest
        | .error fault => .error fault

/-- What a skipper expects next inside a list or an object. -/
inductive Enclosing where
  | list
  | object
  deriving DecidableEq, Repr

/-- Passes over a key and the colon behind it. -/
def skipKey (cs : List Char) : Except Fault (List Char) :=
  match skipSpace cs with
  | '"' :: rest =>
      match skipString .plain rest with
      | .ok rest => passMark ':' rest
      | .error fault => .error fault
  | _ => .error .malformed

/-- Passes over the beginning of a member: nothing in a list, a key in an
object. -/
def skipMemberHead : Enclosing → List Char → Except Fault (List Char)
  | .list, cs => .ok cs
  | .object, cs => skipKey cs

/-- The mark that closes a list or an object. -/
def Enclosing.close : Enclosing → Char
  | .list => ']'
  | .object => '\x7d'

/-- Passes over a scalar; none when a list or an object begins, which is told. -/
def skipScalar (cs : List Char) : Except Fault (Option Enclosing × List Char) :=
  match skipSpace cs with
  | 'n' :: rest => (passWord "ull".toList rest).map (none, ·)
  | 't' :: rest => (passWord "rue".toList rest).map (none, ·)
  | 'f' :: rest => (passWord "alse".toList rest).map (none, ·)
  | '"' :: rest => (skipString .plain rest).map (none, ·)
  | '-' :: rest => (skipNumber rest).map (none, ·)
  | '[' :: rest => .ok (some .list, rest)
  | '\x7b' :: rest => .ok (some .object, rest)
  | cs => (skipNumber cs).map (none, ·)

mutual

/-- Passes over a value; the first number bounds the steps taken. -/
def skipValueIn : Nat → List Char → Except Fault (List Char)
  | 0, _ => .error .malformed
  | fuel + 1, cs =>
      match skipScalar cs with
      | .error fault => .error fault
      | .ok (none, rest) => .ok rest
      | .ok (some enclosing, rest) =>
          match skipSpace rest with
          | c :: after =>
              if c = enclosing.close then .ok after else skipMembers fuel enclosing (c :: after)
          | [] => .error .malformed

/-- Passes over members up to and including the closing mark. -/
def skipMembers : Nat → Enclosing → List Char → Except Fault (List Char)
  | 0, _, _ => .error .malformed
  | fuel + 1, enclosing, cs =>
      match skipMemberHead enclosing cs with
      | .error fault => .error fault
      | .ok rest =>
          match skipValueIn fuel rest with
          | .error fault => .error fault
          | .ok rest =>
              match skipSpace rest with
              | ',' :: rest => skipMembers fuel enclosing rest
              | c :: rest => if c = enclosing.close then .ok rest else .error .malformed
              | [] => .error .malformed

end

/-- Passes over a value of any form and depth. -/
def skipValue (cs : List Char) : Except Fault (List Char) :=
  skipValueIn (2 * cs.length + 1) cs

end RelayRace.Json
