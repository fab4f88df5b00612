import RelayRace.Text.Base64
import RelayRace.Text.Digits

/-!
# Reading base 64

The reader takes four characters at a time.  Only the last four may be filled up
with equal signs, and the bits that are then left over must be zero, so that no
sequence of bytes has two texts (`decode?`).  Whatever bytes are written are read
back (`decode?_encode`), in all three cases of filling up.

All characters that are written are letters, digits, plus, slash and the equal
sign (`mem_encode`), so that what is written between the ends of a line stays
within the line.
-/

namespace RelayRace.Text.Base64

/-! ## The reader -/

/-- The number that characters of the alphabet make up. -/
def number? (cs : List Char) : Option Nat := digitsOnto value? 64 0 cs

/-- Two characters are one byte and four bits, three are two bytes and two bits;
the bits that are left over are zero. -/
def lastBytes? (a b c : Char) : Option (List UInt8) :=
  if c = '=' then
    (number? [a, b]).bind fun n => if n % 16 = 0 then some [UInt8.ofNat (n / 16)] else none
  else
    (number? [a, b, c]).bind fun n =>
      if n % 4 = 0 then some [UInt8.ofNat (n / 1024), UInt8.ofNat (n / 4 % 256)] else none

/-- Four characters are three bytes. -/
def bytes? (a b c d : Char) : Option (List UInt8) :=
  (number? [a, b, c, d]).map fun n =>
    [UInt8.ofNat (n / 65536), UInt8.ofNat (n / 256 % 256), UInt8.ofNat (n % 256)]

/-- Reads bytes; the text must end with its last four characters. -/
def decode? : List Char → Option (List UInt8)
  | [] => some []
  | a :: b :: c :: d :: rest =>
      if d = '=' then if rest = [] then lastBytes? a b c else none
      else (bytes? a b c d).bind fun bytes => (decode? rest).map (bytes ++ ·)
  | _ => none

/-! ## Characters -/

theorem digit_ne_pad : ∀ value, value < 64 → digit value ≠ '=' := by
  decide

/-- What is written is made of the alphabet and the equal sign. -/
theorem mem_encode {c : Char} (bytes : List UInt8) (hMem : c ∈ encode bytes) :
    c = '=' ∨ ∃ value, value < 64 ∧ c = digit value := by
  fun_induction encode bytes with
  | case1 => cases hMem
  | case2 a n =>
      have hBound := a.toNat_lt
      simp only [List.mem_cons, List.not_mem_nil, or_false] at hMem
      rcases hMem with rfl | rfl | rfl | rfl
      · exact .inr ⟨_, by omega, rfl⟩
      · exact .inr ⟨_, by omega, rfl⟩
      · exact .inl rfl
      · exact .inl rfl
  | case3 a b n =>
      have hFirst := a.toNat_lt
      have hSecond := b.toNat_lt
      simp only [List.mem_cons, List.not_mem_nil, or_false] at hMem
      rcases hMem with rfl | rfl | rfl | rfl
      · exact .inr ⟨_, by omega, rfl⟩
      · exact .inr ⟨_, by omega, rfl⟩
      · exact .inr ⟨_, by omega, rfl⟩
      · exact .inl rfl
  | case4 a b c rest n ih =>
      have hFirst := a.toNat_lt
      have hSecond := b.toNat_lt
      have hThird := c.toNat_lt
      simp only [List.mem_cons] at hMem
      rcases hMem with rfl | rfl | rfl | rfl | hRest
      · exact .inr ⟨_, by omega, rfl⟩
      · exact .inr ⟨_, by omega, rfl⟩
      · exact .inr ⟨_, by omega, rfl⟩
      · exact .inr ⟨_, by omega, rfl⟩
      · exact ih hRest

/-! ## Reading what was written -/

theorem digitsOnto_map_digit (values : List Nat) (hSmall : ∀ value ∈ values, value < 64) :
    ∀ acc, digitsOnto value? 64 acc (values.map digit) =
      some (values.foldl (fun n value => n * 64 + value) acc) := by
  induction values with
  | nil => exact fun acc => rfl
  | cons value values ih =>
      intro acc
      rw [List.map_cons, digitsOnto, value?_digit value (hSmall value List.mem_cons_self)]
      exact ih (fun other hOther => hSmall other (List.mem_cons_of_mem value hOther)) _

/-- Digits that make up a number are read as that number. -/
theorem number?_of_digits {n : Nat} (values : List Nat) (hSmall : ∀ value ∈ values, value < 64)
    (hNumber : values.foldl (fun n value => n * 64 + value) 0 = n) :
    number? (values.map digit) = some n := by
  rw [number?, digitsOnto_map_digit values hSmall, hNumber]

/-- Whatever bytes are written are read back. -/
theorem decode?_encode (bytes : List UInt8) : decode? (encode bytes) = some bytes := by
  fun_induction encode bytes with
  | case1 => rfl
  | case2 a n =>
      have hBound := a.toNat_lt
      have hRead : number? [digit (n / 64), digit (n % 64)] = some n :=
        number?_of_digits [n / 64, n % 64] (by simp; omega) (by simp; omega)
      have hZero : n % 16 = 0 := by omega
      have hByte : n / 16 = a.toNat := by omega
      simp [decode?, lastBytes?, hRead, hZero, hByte]
  | case3 a b n =>
      have hFirst := a.toNat_lt
      have hSecond := b.toNat_lt
      have hRead : number? [digit (n / 4096), digit (n / 64 % 64), digit (n % 64)] = some n :=
        number?_of_digits [n / 4096, n / 64 % 64, n % 64] (by simp; omega) (by simp; omega)
      have hZero : n % 4 = 0 := by omega
      have hByte : n / 1024 = a.toNat := by omega
      have hNext : n / 4 % 256 = b.toNat := by omega
      simp [decode?, lastBytes?, hRead, hZero, hByte, hNext,
        digit_ne_pad (n % 64) (Nat.mod_lt n (by decide))]
  | case4 a b c rest n ih =>
      have hFirst := a.toNat_lt
      have hSecond := b.toNat_lt
      have hThird := c.toNat_lt
      have hRead : number? [digit (n / 262144), digit (n / 4096 % 64), digit (n / 64 % 64),
          digit (n % 64)] = some n :=
        number?_of_digits [n / 262144, n / 4096 % 64, n / 64 % 64, n % 64] (by simp; omega)
          (by simp; omega)
      have hByte : n / 65536 = a.toNat := by omega
      have hNext : n / 256 % 256 = b.toNat := by omega
      have hLast : n % 256 = c.toNat := by omega
      simp [decode?, bytes?, hRead, hByte, hNext, hLast, ih,
        digit_ne_pad (n % 64) (Nat.mod_lt n (by decide))]

end RelayRace.Text.Base64
