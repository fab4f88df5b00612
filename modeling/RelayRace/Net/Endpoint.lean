import RelayRace.Text.Digits

/-!
# Network endpoints

An endpoint is an IP address and a port. Its text is canonical, so that one
endpoint has one spelling whatever text it was read from: IPv4 in dotted
decimal, IPv6 in brackets, in lower case, without leading zeros, with the first
longest run of two or more zero groups contracted, with an embedded IPv4
address in dotted decimal and with the scope kept.
-/

namespace RelayRace

open Text

/-- An IP address. A version 6 address is its eight groups and its scope, zero
for none. -/
inductive IpAddress where
  | v4 (a b c d : Nat)
  | v6 (groups : List Nat) (scope : Nat)
  deriving DecidableEq, Repr

/-- An address and a port. -/
structure Endpoint where
  address : IpAddress
  port : UInt16
  deriving DecidableEq, Repr

namespace IpAddress

/-- The address of this host on its loopback interface. -/
def loopback : IpAddress := .v4 127 0 0 1

/-! ## Text -/

/-- Dotted decimal. -/
def dotted (a b c d : Nat) : String :=
  ".".intercalate ([a, b, c, d].map decimal)

/-- How many zeros a list begins with. -/
def leadingZeros : List Nat → Nat
  | 0 :: rest => leadingZeros rest + 1
  | _ => 0

/-- Where the first longest run of zeros in a list begins, and its length. -/
def longestZeroRun : List Nat → Nat × Nat
  | [] => (0, 0)
  | g :: rest =>
      let here := leadingZeros (g :: rest)
      let later := longestZeroRun rest
      if later.2 ≤ here then (0, here) else (later.1 + 1, later.2)

/-- Groups in hexadecimal, separated by colons. -/
def colonHex (groups : List Nat) : String :=
  ":".intercalate (groups.map hex)

/-- The canonical text of a version 6 address without brackets and scope. -/
def groupsText (groups : List Nat) : String :=
  match groups with
  | [0, 0, 0, 0, 0, 0xffff, high, low] =>
      "::ffff:" ++ dotted (high / 256) (high % 256) (low / 256) (low % 256)
  | _ =>
      let run := longestZeroRun groups
      if run.2 ≤ 1 then colonHex groups
      else colonHex (groups.take run.1) ++ "::" ++ colonHex (groups.drop (run.1 + run.2))

/-! ## Reading -/

/-- Reads one part of a dotted address: at most three digits, no leading zero. -/
def readOctet? (text : List Char) : Option Nat :=
  match text with
  | '0' :: _ :: _ => none
  | _ =>
      match readDecimal? text with
      | some n => if n < 256 ∧ text.length ≤ 3 then some n else none
      | none => none

/-- Reads a dotted version 4 address. -/
def readV4? (text : String) : Option IpAddress :=
  match (text.splitOn ".").map fun part => readOctet? part.toList with
  | [some a, some b, some c, some d] => some (.v4 a b c d)
  | _ => none

/-- Reads one group: one to four hexadecimal digits. -/
def readGroup? (text : String) : Option Nat :=
  if text.toList.length ≤ 4 then readHex? text.toList else none

/-- Reads groups between colons. The last one may be a dotted address, which
stands for two groups. -/
def readGroups? : List String → Option (List Nat)
  | [] => some []
  | [last] =>
      match readV4? last with
      | some (.v4 a b c d) => some [a * 256 + b, c * 256 + d]
      | _ => (readGroup? last).map fun g => [g]
  | part :: rest =>
      match readGroup? part, readGroups? rest with
      | some g, some gs => some (g :: gs)
      | _, _ => none

/-- The groups of one side of a contraction; nothing there is no group. -/
def readSide? (text : String) : Option (List Nat) :=
  if text.isEmpty then some [] else readGroups? (text.splitOn ":")

/-- Reads a version 6 address without brackets and scope. -/
def readV6Groups? (text : String) : Option (List Nat) :=
  match text.splitOn "::" with
  | [whole] =>
      match readGroups? (whole.splitOn ":") with
      | some groups => if groups.length = 8 then some groups else none
      | none => none
  | [left, right] =>
      match readSide? left, readSide? right with
      | some l, some r =>
          if l.length + r.length ≤ 7 then
            some (l ++ List.replicate (8 - l.length - r.length) 0 ++ r)
          else none
      | _, _ => none
  | _ => none

/-- Reads an address that stands alone, as a host is named. -/
def read? (text : String) : Option IpAddress :=
  match readV4? text with
  | some address => some address
  | none => (readV6Groups? text).map fun groups => .v6 groups 0

end IpAddress

namespace Endpoint

/-- The canonical text of an endpoint. -/
def text (e : Endpoint) : String :=
  match e.address with
  | .v4 a b c d => IpAddress.dotted a b c d ++ ":" ++ decimal e.port.toNat
  | .v6 groups scope =>
      let scopeText := if scope = 0 then "" else "%" ++ decimal scope
      "[" ++ IpAddress.groupsText groups ++ scopeText ++ "]:" ++ decimal e.port.toNat

/-- Reads a port: a decimal number of 16 bits. -/
def readPort? (text : String) : Option UInt16 :=
  match readDecimal? text.toList with
  | some n => if n < 65536 then some (UInt16.ofNat n) else none
  | none => none

/-- Reads the inside of the brackets, an address with or without a scope. -/
def readScoped? (text : String) : Option IpAddress :=
  match text.splitOn "%" with
  | [groups] => (IpAddress.readV6Groups? groups).map fun gs => .v6 gs 0
  | [groups, scope] =>
      match IpAddress.readV6Groups? groups, readDecimal? scope.toList with
      | some gs, some n => if n < UInt32.size then some (.v6 gs n) else none
      | _, _ => none
  | _ => none

/-- Reads an endpoint in either form. -/
def read? (text : String) : Option Endpoint :=
  match text.splitOn "]:" with
  | [inside, port] =>
      if inside.startsWith "[" then
        match readScoped? (inside.drop 1).toString, readPort? port with
        | some address, some port => some ⟨address, port⟩
        | _, _ => none
      else none
  | _ =>
      match text.splitOn ":" with
      | [address, port] =>
          match IpAddress.readV4? address, readPort? port with
          | some address, some port => some ⟨address, port⟩
          | _, _ => none
      | _ => none

end Endpoint

end RelayRace
