import RelayRace.Random.Generator
import RelayRace.Text.Digits

/-!
# Session parameters

What every handshake of a selection is told about the session that it serves:
an identifier and any number of further authentication parameters.

A generated identifier is a random 128-bit number of the universally unique
kind, version 4, written in 32 hexadecimal digits without separators: the
thirteenth digit is the version and the seventeenth one of `8`, `9`, `a`, `b`.
-/

namespace RelayRace

open Text

/-- The parameters of a session. -/
structure SessionParams where
  id : String := ""
  auth : List (String × String) := []
  deriving DecidableEq, Repr

namespace SessionParams

/-- The four high bits of the seventh byte of an identifier: its version. -/
def version : Nat := 4

/-- Sets version and variant in the two halves of a random number. -/
def mark (high low : Nat) : Nat × Nat :=
  (high / 0x10000 * 0x10000 + version * 0x1000 + high % 0x1000,
    0x8000000000000000 + low % 0x4000000000000000)

/-- A session with a fresh identifier. -/
def generate (g : Generator) : SessionParams × Generator :=
  let (high, g) := g.word64
  let (low, g) := g.word64
  let (high, low) := mark high low
  ({ id := String.ofList (hexPadded 16 high ++ hexPadded 16 low) }, g)

end SessionParams

end RelayRace
