import RelayRace.Random.ChaCha

/-!
# The random generator

A generator is a key and a position in the stream of words that belongs to the
key. So the state after any draws is told by one number, and two generators
that drew equally often from equal keys are equal.

A bounded draw multiplies a word by the bound and takes the high part; words
whose low part lies beyond the greatest usable zone are drawn again. Each
refusal has a probability below one half, and after `refusals` of them the last
draw is taken, so a draw always ends and always respects the bound.
-/

namespace RelayRace

open ChaCha

/-- A position in a stream of random words. -/
structure Generator where
  key : Key
  position : Nat
  deriving DecidableEq, Repr, Inhabited

namespace Generator

/-! ## Seeding -/

/-- The step of the congruential sequence that expands a seed. -/
def seedStep (state : UInt64) : UInt64 :=
  state * 6364136223846793005 + 11634580027462260723

/-- The word that a state of the expanding sequence yields: its high bits,
folded and rotated by its topmost bits. -/
def seedWord (state : UInt64) : UInt32 :=
  let folded := (((state >>> 18) ^^^ state) >>> 27).toUInt32
  let amount := (state >>> 59).toUInt32
  if amount = 0 then folded else rotateWord (32 - amount) folded

/-- The first words that the expanding sequence yields from a state. -/
def seedWords : Nat → UInt64 → List UInt32
  | 0, _ => []
  | n + 1, state => seedWord (seedStep state) :: seedWords n (seedStep state)

/-- The generator of a seed, at the beginning of its stream. -/
def ofSeed (seed : UInt64) : Generator :=
  match seedWords 8 seed with
  | [a, b, c, d, e, f, g, h] => ⟨⟨⟨a, b, c, d⟩, ⟨e, f, g, h⟩⟩, 0⟩
  | _ => default

/-! ## Words -/

/-- The word at a position of the stream: blocks of six double rounds, one
after the other. -/
def wordAt (key : Key) (position : Nat) : Nat :=
  ((block 6 key (position / 16)).words.getD (position % 16) 0).toNat

/-- Draws 32 bits. -/
def word32 (g : Generator) : Nat × Generator :=
  (wordAt g.key g.position, { g with position := g.position + 1 })

/-- Draws 64 bits, the low half first. -/
def word64 (g : Generator) : Nat × Generator :=
  (wordAt g.key g.position + UInt32.size * wordAt g.key (g.position + 1),
    { g with position := g.position + 2 })

theorem wordAt_lt (key : Key) (position : Nat) : wordAt key position < UInt32.size :=
  UInt32.toNat_lt _

/-! ## Bounded draws -/

/-- How many words one bounded draw refuses at most. -/
def refusals : Nat := 256

/-- How many words of `width` bits there are. -/
def span (width : Nat) : Nat := Nat.pow 2 width

theorem span_pos (width : Nat) : 0 < span width := Nat.two_pow_pos width

/-- The greatest low part that a draw below `bound` accepts, for words of
`width` bits: the bound shifted up to the full width, less one. -/
def zone (width bound : Nat) : Nat :=
  bound * span (width - (Nat.log2 bound + 1)) - 1

/-- Draws below `bound` from words of `width` bits, refusing at most `fuel`
words. -/
def drawBelow (draw : Generator → Nat × Generator) (width bound : Nat) :
    Nat → Generator → Nat × Generator
  | 0, g =>
      let (w, g) := draw g
      (w * bound / span width, g)
  | fuel + 1, g =>
      let (w, next) := draw g
      if w * bound % span width ≤ zone width bound then (w * bound / span width, next)
      else drawBelow draw width bound fuel next

/-- A uniform draw below a bound of at most 32 bits. -/
def below32 (g : Generator) (bound : Nat) : Nat × Generator :=
  drawBelow word32 32 bound refusals g

/-- A uniform draw from zero up to and including `top`, which has at most 64
bits. -/
def upTo64 (g : Generator) (top : Nat) : Nat × Generator :=
  if top + 1 = UInt64.size then g.word64 else drawBelow word64 64 (top + 1) refusals g

/-- A bounded draw from words that fit their width respects its bound. -/
theorem drawBelow_lt {draw : Generator → Nat × Generator} {width bound : Nat}
    (hDraw : ∀ g, (draw g).1 < span width) (hBound : 0 < bound) :
    ∀ (fuel : Nat) (g : Generator), (drawBelow draw width bound fuel g).1 < bound := by
  have hQuotient : ∀ w, w < span width → w * bound / span width < bound := by
    intro w hw
    rw [Nat.div_lt_iff_lt_mul (span_pos width), Nat.mul_comm bound]
    exact Nat.mul_lt_mul_of_pos_right hw hBound
  intro fuel
  induction fuel with
  | zero =>
      intro g
      exact hQuotient _ (hDraw g)
  | succ fuel ih =>
      intro g
      simp only [drawBelow]
      split
      · exact hQuotient _ (hDraw g)
      · exact ih _

theorem below32_lt (g : Generator) {bound : Nat} (hBound : 0 < bound) :
    (g.below32 bound).1 < bound :=
  drawBelow_lt (fun g => wordAt_lt g.key g.position) hBound _ _

end Generator

end RelayRace
