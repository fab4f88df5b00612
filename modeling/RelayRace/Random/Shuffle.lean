import RelayRace.Random.Generator

/-!
# Shuffling

Every place from the last one down to the second is swapped with a place drawn
from those up to and including itself. A shuffle of `n` entries makes `n - 1`
bounded draws; one of fewer than two entries makes none.
-/

namespace RelayRace

namespace Generator

/-- Swaps the places `count`, …, `1` in this order, each with a drawn one. -/
def shuffleDown {α : Type} : Nat → Array α → Generator → Array α × Generator
  | 0, entries, g => (entries, g)
  | count + 1, entries, g =>
      let (chosen, g) := g.below32 (count + 2)
      shuffleDown count (entries.swapIfInBounds (count + 1) chosen) g

/-- Brings a list into a random order. -/
def shuffle {α : Type} (g : Generator) (entries : List α) : List α × Generator :=
  let (shuffled, g) := shuffleDown (entries.length - 1) entries.toArray g
  (shuffled.toList, g)

/-- Brings everything behind the first entry of a list into a random order. -/
def shuffleTail {α : Type} (g : Generator) : List α → List α × Generator
  | [] => ([], g)
  | first :: rest =>
      let (shuffled, g) := g.shuffle rest
      (first :: shuffled, g)

end Generator

end RelayRace
