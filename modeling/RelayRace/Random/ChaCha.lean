/-!
# The ChaCha block function

A block is sixteen 32-bit words computed from a key of eight words and a
64-bit block number. The state is kept as four rows of four words, on which a
quarter round works column by column: a double round is the same step taken
once on the columns and once, with the rows rotated, on the diagonals.

The number of double rounds is a parameter. The generator of this library uses
six of them.
-/

namespace RelayRace.ChaCha

/-- A row of the state: four words. -/
structure Row where
  w0 : UInt32
  w1 : UInt32
  w2 : UInt32
  w3 : UInt32
  deriving DecidableEq, Repr, Inhabited

namespace Row

/-- Combines two rows word by word. -/
def zip (f : UInt32 → UInt32 → UInt32) (x y : Row) : Row :=
  ⟨f x.w0 y.w0, f x.w1 y.w1, f x.w2 y.w2, f x.w3 y.w3⟩

/-- Changes every word of a row. -/
def map (f : UInt32 → UInt32) (x : Row) : Row := ⟨f x.w0, f x.w1, f x.w2, f x.w3⟩

/-- Moves every word one place to the left. -/
def rotate1 (x : Row) : Row := ⟨x.w1, x.w2, x.w3, x.w0⟩

/-- Moves every word two places to the left. -/
def rotate2 (x : Row) : Row := ⟨x.w2, x.w3, x.w0, x.w1⟩

/-- Moves every word three places to the left. -/
def rotate3 (x : Row) : Row := ⟨x.w3, x.w0, x.w1, x.w2⟩

/-- The words of a row. -/
def toList (x : Row) : List UInt32 := [x.w0, x.w1, x.w2, x.w3]

end Row

/-- Rotates a word to the left by fewer than 32 places. -/
def rotateWord (amount : UInt32) (x : UInt32) : UInt32 :=
  (x <<< amount) ||| (x >>> (32 - amount))

/-- The four rows of the state. -/
structure State where
  a : Row
  b : Row
  c : Row
  d : Row
  deriving DecidableEq, Repr, Inhabited

namespace State

/-- Adds `y` to `x`, mixes the sum into `z` and rotates `z`. -/
def mix (amount : UInt32) (x y z : Row) : Row × Row :=
  let sum := x.zip (· + ·) y
  (sum, (z.zip (· ^^^ ·) sum).map (rotateWord amount))

/-- A quarter round on all four columns. -/
def columns (s : State) : State :=
  let (a, d) := mix 16 s.a s.b s.d
  let (c, b) := mix 12 s.c d s.b
  let (a, d) := mix 8 a b d
  let (c, b) := mix 7 c d b
  ⟨a, b, c, d⟩

/-- A quarter round on all four columns, then one on all four diagonals. -/
def doubleRound (s : State) : State :=
  let s := s.columns
  let s := columns ⟨s.a, s.b.rotate1, s.c.rotate2, s.d.rotate3⟩
  ⟨s.a, s.b.rotate3, s.c.rotate2, s.d.rotate1⟩

/-- Several double rounds. -/
def doubleRounds : Nat → State → State
  | 0, s => s
  | n + 1, s => doubleRounds n s.doubleRound

/-- The word-by-word sum of two states. -/
def add (s t : State) : State :=
  ⟨s.a.zip (· + ·) t.a, s.b.zip (· + ·) t.b, s.c.zip (· + ·) t.c, s.d.zip (· + ·) t.d⟩

/-- The words of a state, row after row. -/
def words (s : State) : List UInt32 :=
  s.a.toList ++ s.b.toList ++ s.c.toList ++ s.d.toList

theorem length_words (s : State) : s.words.length = 16 := rfl

end State

/-- A key of eight words. -/
structure Key where
  low : Row
  high : Row
  deriving DecidableEq, Repr, Inhabited

/-- The words of the text "expand 32-byte k". -/
def constants : Row := ⟨0x61707865, 0x3320646e, 0x79622d32, 0x6b206574⟩

/-- The state before the rounds: constants, key, and the block number in the
first two words of the last row. -/
def initial (key : Key) (block : Nat) : State :=
  ⟨constants, key.low, key.high, ⟨UInt32.ofNat block, UInt32.ofNat (block / UInt32.size), 0, 0⟩⟩

/-- A block of the key stream. -/
def block (doubleRounds : Nat) (key : Key) (number : Nat) : State :=
  let start := initial key number
  (State.doubleRounds doubleRounds start).add start

end RelayRace.ChaCha
