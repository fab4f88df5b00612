import RelayRace.Text.Digits

/-!
# The shortest decimal of a double

A double is read as `m * 2 ^ q`. Every real number closer to it than to its
neighbours reads back as it, and so do the two ends of that interval when `m`
is even. The text has the fewest decimal digits that lie in the interval, and
of two such decimals the nearer one; a tie goes to the even digit.

All of the arithmetic is exact, over natural numbers: the value is a fraction
`num / den`, and the interval reaches from `below / (4 * den')` to
`above / (4 * den')` on the same scale.
-/

namespace RelayRace.Text.Shortest

/-- A positive double with its interval, as fractions over one denominator. -/
structure Span where
  below : Nat
  value : Nat
  above : Nat
  den : Nat
  closed : Bool
  deriving DecidableEq, Repr

/-- The leading bit of a double's significand, which its bits leave out. -/
def hiddenBit : Nat := 0x10000000000000

/-- A power of ten. -/
def powerOfTen (k : Nat) : Nat := Nat.pow 10 k

/-- The fraction `n * 2 ^ q` over a denominator that is a power of two. -/
def scale (n : Nat) (q : Int) : Nat :=
  if 0 ≤ q then n <<< q.toNat else n

/-- The interval of a double of the given exponent and fraction bits. Below a
power of two the neighbours are half as far apart. -/
def span (exponent fraction : Nat) : Span :=
  let m := if exponent = 0 then fraction else hiddenBit + fraction
  let q : Int := if exponent = 0 then -1074 else (exponent : Int) - 1075
  let narrow := fraction = 0 && 1 < exponent
  { below := scale (4 * m - if narrow then 1 else 2) (q - 2)
    value := scale (4 * m) (q - 2)
    above := scale (4 * m + 2) (q - 2)
    den := if 0 ≤ q - 2 then 1 else 1 <<< (2 - q).toNat
    closed := m % 2 = 0 }

/-- The decimal exponent of a positive fraction: the power of ten of its first
digit. -/
def magnitude (num den : Nat) : Int :=
  if den ≤ num then (Nat.toDigits 10 (num / den)).length - 1
  else
    let digits := (Nat.toDigits 10 (den / num)).length
    if den ≤ num * powerOfTen (digits - 1) then -((digits - 1 : Nat) : Int) else -(digits : Int)

/-- Whether `n * 10 ^ k` lies in the interval. -/
def Span.holds (s : Span) (n : Nat) (k : Int) : Bool :=
  let point := if 0 ≤ k then n * powerOfTen k.toNat * s.den else n * s.den
  let unit := if 0 ≤ k then 1 else powerOfTen (-k).toNat
  if s.closed then s.below * unit ≤ point && point ≤ s.above * unit
  else s.below * unit < point && point < s.above * unit

/-- The decimal on the grid of `10 ^ k` that stands for the double, if one of
its two neighbours on that grid does: the nearer of them, the even one of two
equally near. -/
def Span.onGrid (s : Span) (k : Int) : Option Nat :=
  let num := if 0 ≤ k then s.value else s.value * powerOfTen (-k).toNat
  let den := if 0 ≤ k then s.den * powerOfTen k.toNat else s.den
  let low := num / den
  let twice := 2 * (num % den)
  let near := if twice < den then low else if den < twice then low + 1 else low + low % 2
  let far := if near = low then low + 1 else low
  if s.holds near k then some near else if s.holds far k then some far else none

/-- The first grid that holds a decimal for the double, coarse grids first, and
that decimal. -/
def Span.search (s : Span) (magnitude : Int) : List Nat → Nat × Int
  | [] => (0, 0)
  | digits :: rest =>
      let k := magnitude + 1 - digits
      match s.onGrid k with
      | some n => (n, k)
      | none => s.search magnitude rest

/-- Digits without the zeros at their end, and the exponent for what is left. -/
def trimZeros : List Char → Int → List Char × Int
  | [], k => ([], k)
  | c :: rest, k =>
      if c = '0' then trimZeros rest (k + 1) else ((c :: rest).reverse, k)

/-- The digits of the shortest decimal of a positive double, and the exponent
of ten of its last digit. -/
def digits (exponent fraction : Nat) : List Char × Int :=
  let s := span exponent fraction
  let (n, k) := s.search (magnitude s.value s.den) (List.range' 1 17)
  trimZeros (Nat.toDigits 10 n).reverse k

/-! ## Layout -/

/-- The least and the greatest decimal exponent of a number that is written
without an exponent. -/
def positional : Int × Int := (-5, 15)

/-- An exponent of ten: the sign is always written, and at least two digits. -/
def exponentText (e : Int) : List Char :=
  let digits := Nat.toDigits 10 e.natAbs
  (if e < 0 then '-' else '+') :: (if digits.length < 2 then '0' :: digits else digits)

/-- Lays out digits whose last one stands at `10 ^ k`. A number without an
exponent has at least one digit on each side of the point. -/
def layout (ds : List Char) (k : Int) : List Char :=
  let top := k + ds.length - 1
  if positional.1 ≤ top && top ≤ positional.2 then
    if 0 ≤ k then ds ++ List.replicate k.toNat '0' ++ ['.', '0']
    else if 0 ≤ top then
      ds.take (top.toNat + 1) ++ '.' :: ds.drop (top.toNat + 1)
    else ['0', '.'] ++ List.replicate ((-top).toNat - 1) '0' ++ ds
  else
    match ds with
    | [] => []
    | [d] => d :: 'e' :: exponentText top
    | d :: rest => d :: '.' :: (rest ++ 'e' :: exponentText top)

/-- The text of a finite double, given by its bits. -/
def text (bits : UInt64) : String :=
  let exponent := bits.toNat / hiddenBit % 2048
  let fraction := bits.toNat % hiddenBit
  let sign := if 2 * bits.toNat < UInt64.size then [] else ['-']
  if exponent = 0 && fraction = 0 then String.ofList (sign ++ "0.0".toList)
  else
    let (ds, k) := digits exponent fraction
    String.ofList (sign ++ layout ds k)

end RelayRace.Text.Shortest
