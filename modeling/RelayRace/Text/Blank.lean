/-!
# Blanks

The characters that separate words and are trimmed off the ends of a line: the
Unicode property `White_Space`. It is wider than the ASCII blanks, and it does
not contain the zero-width characters.
-/

namespace RelayRace.Text

/-- Whether a character is white space. -/
def isBlank (c : Char) : Bool :=
  (9 ≤ c.toNat && c.toNat ≤ 13) || c.toNat == 0x20 || c.toNat == 0x85 || c.toNat == 0xa0 ||
    c.toNat == 0x1680 || (0x2000 ≤ c.toNat && c.toNat ≤ 0x200a) || c.toNat == 0x2028 ||
    c.toNat == 0x2029 || c.toNat == 0x202f || c.toNat == 0x205f || c.toNat == 0x3000

/-- A text without the blanks at its ends. -/
def trim (cs : List Char) : List Char :=
  ((cs.dropWhile isBlank).reverse.dropWhile isBlank).reverse

/-- The first word of a text and what follows it. Blanks before the word are
skipped; a text without words has the empty one. -/
def nextWord (cs : List Char) : List Char × List Char :=
  (cs.dropWhile isBlank).span fun c => !isBlank c

end RelayRace.Text
