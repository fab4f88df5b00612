import RelayRace.Random.Generator
import RelayRace.Settings

/-!
# The rest between two rounds

Two rounds of a search are separated by a rest of random length: the shortest
rest plus whole milliseconds, up to the longest. When both are equal, nothing is
drawn. The number of milliseconds between them is kept in 64 bits.
-/

namespace RelayRace

namespace Settings

/-- How many milliseconds a rest may be longer than the shortest one. -/
def backoffSpan (s : Settings) : Nat := (s.backoffMax - s.backoffMin).millis % UInt64.size

/-- Draws the length of a rest. -/
def backoff (s : Settings) (g : Generator) : Duration × Generator :=
  if s.backoffMax ≤ s.backoffMin then (s.backoffMin, g)
  else
    let (extra, g) := g.upTo64 s.backoffSpan
    (s.backoffMin + .ofMillis extra, g)

end Settings

end RelayRace
