import RelayRace.Proofs.Json.Skipped

/-!
# Texts and numbers are heard

Of one run of a reader, `Hears` says that it answers with what was said and leaves the
rest of the text, and that it fails where nothing was said.  Why it fails is not
told.

A quoted text is heard whatever follows it.  Of numbers, only the natural ones with
room in 64 bits are of use to an entry; that nothing else is taken for one is said
by `NoNatural`.
-/

namespace RelayRace.Json

open Text

/-- A reader answers with what is said and leaves the rest; it fails where nothing is
said. -/
def Hears {α : Type} (answer : Scanned α) (rest : List Char) : Option α → Prop
  | some value => answer = .ok (value, rest)
  | none => ∃ fault, answer = .error fault

theorem Hears.map {α β : Type} {answer : Scanned α} {rest : List Char} {said : Option α}
    (hHears : Hears answer rest said) (f : α → β) :
    Hears (answer.map fun (value, rest) => (f value, rest)) rest (said.map f) := by
  cases said with
  | some value =>
      obtain rfl : answer = _ := hHears
      rfl
  | none =>
      obtain ⟨fault, rfl⟩ := hHears
      exact ⟨fault, rfl⟩

theorem Hears.cases {α : Type} {answer : Scanned α} {rest : List Char} {said : Option α}
    (hHears : Hears answer rest said) :
    (∃ value, said = some value ∧ answer = .ok (value, rest)) ∨
      said = none ∧ ∃ fault, answer = .error fault := by
  cases said with
  | some value => exact .inl ⟨value, rfl, hHears⟩
  | none => exact .inr ⟨rfl, hHears⟩

/-! ## Texts -/

theorem readString_unit (high : Option Nat) (u : CodeUnit) (reversed rest : List Char) :
    readString (.unit high 4 0) reversed (u.text ++ rest) =
      match closeUnit high u.value with
      | .error fault => .error fault
      | .ok (some c, next) => readString next (c :: reversed) rest
      | .ok (none, next) => readString next reversed rest := by
  cases hClose : closeUnit high u.value with
  | error fault =>
      rw [CodeUnit.value] at hClose
      simp [CodeUnit.text, readString, stringStep, hexValue?_char, hClose]
  | ok closed =>
      rw [CodeUnit.value] at hClose
      obtain ⟨_ | c, next⟩ := closed <;>
        simp [CodeUnit.text, readString, stringStep, hexValue?_char, hClose]

theorem closeUnit_high {u : CodeUnit} (hHigh : u.isHigh = true) :
    closeUnit none u.value = .ok (none, .pairEscape u.value) := by
  simp only [CodeUnit.isHigh, Bool.and_eq_true, decide_eq_true_eq] at hHigh
  rw [closeUnit, if_neg (by omega), if_pos hHigh]

theorem closeUnit_single {u : CodeUnit} (hHigh : ¬ u.isHigh = true) :
    closeUnit none u.value =
      if u.isLow then .error .malformed else .ok (some (Char.ofNat u.value), .plain) := by
  simp only [CodeUnit.isHigh, Bool.and_eq_true, decide_eq_true_eq] at hHigh
  simp [closeUnit, CodeUnit.isLow, hHigh]

theorem closeUnit_second (high low : CodeUnit) :
    closeUnit (some high.value) low.value =
      if low.isLow then .ok (some (high.paired low), .plain) else .error .malformed := by
  simp [closeUnit, CodeUnit.isLow, CodeUnit.paired]

/-- The second half of a pair is the only thing that may follow the first. -/
theorem readString_lone {high : Nat} {glyphs : List Glyph}
    (hLone : ∀ low more, glyphs = .unit low :: more → False) (reversed rest : List Char) :
    readString (.pairEscape high) reversed (glyphs.flatMap Glyph.text ++ '"' :: rest) =
      .error .malformed := by
  match glyphs with
  | [] => simp [readString, stringStep]
  | .plain c isPlain :: more => simp [Glyph.text, readString, stringStep, isPlain.2.2]
  | .short escape :: more =>
      cases escape <;> simp [Glyph.text, Escape.letter, readString, stringStep]
  | .unit low :: more => exact (hLone low more rfl).elim

theorem readString_escape (u : CodeUnit) (reversed rest : List Char) :
    readString .plain reversed ((Glyph.unit u).text ++ rest) =
      readString (.unit none 4 0) reversed (u.text ++ rest) := by
  simp [Glyph.text, readString, stringStep]

theorem readString_pair {high : CodeUnit} (hHigh : high.isHigh = true) (low : CodeUnit)
    (reversed rest : List Char) :
    readString .plain reversed ((Glyph.unit high).text ++ ((Glyph.unit low).text ++ rest)) =
      if low.isLow then readString .plain (high.paired low :: reversed) rest
      else .error .malformed := by
  have hSecond : readString (.pairEscape high.value) reversed ((Glyph.unit low).text ++ rest) =
      readString (.unit (some high.value) 4 0) reversed (low.text ++ rest) := by
    simp [Glyph.text, readString, stringStep]
  rw [readString_escape, readString_unit, closeUnit_high hHigh]
  simp only [hSecond, readString_unit, closeUnit_second]
  cases low.isLow <;> rfl

/-- The text that the glyphs spell is read up to the closing quote. -/
theorem hears_glyphs (glyphs : List Glyph) : ∀ (reversed rest : List Char),
    Hears (readString .plain reversed (glyphs.flatMap Glyph.text ++ '"' :: rest)) rest
      ((decode glyphs).map fun cs => String.ofList (reversed.reverse ++ cs)) := by
  induction glyphs using decode.induct with
  | case1 =>
      intro reversed rest
      simp [readString, decode, Hears]
  | case2 c isPlain glyphs ih =>
      intro reversed rest
      have hNoControl : ¬ c.toNat < 0x20 := Nat.not_lt_of_le isPlain.1
      have hRead : readString .plain reversed (c :: (glyphs.flatMap Glyph.text ++ '"' :: rest)) =
          readString .plain (c :: reversed) (glyphs.flatMap Glyph.text ++ '"' :: rest) := by
        simp [readString, stringStep, isPlain.2, hNoControl]
      simpa [Glyph.text, hRead, decode, Function.comp_def] using ih (c :: reversed) rest
  | case3 escape glyphs ih =>
      intro reversed rest
      have hLetter : escape.letter ≠ 'u' ∧ shortEscape? escape.letter = some escape.char := by
        cases escape <;> decide
      have hRead := readString_shortEscape reversed (glyphs.flatMap Glyph.text ++ '"' :: rest)
        hLetter.1 hLetter.2
      simpa [Glyph.text, hRead, decode, Function.comp_def] using ih (escape.char :: reversed) rest
  | case4 high hHigh low glyphs hLow ih =>
      intro reversed rest
      have hRead := readString_pair hHigh low reversed (glyphs.flatMap Glyph.text ++ '"' :: rest)
      rw [hLow] at hRead
      simpa [hRead, decode, hHigh, hLow, Function.comp_def] using
        ih (high.paired low :: reversed) rest
  | case5 high hHigh low glyphs hLow =>
      intro reversed rest
      have hRead := readString_pair hHigh low reversed (glyphs.flatMap Glyph.text ++ '"' :: rest)
      rw [if_neg hLow] at hRead
      simp [hRead, decode, hHigh, hLow, Hears]
  | case6 high glyphs hHigh hLone =>
      intro reversed rest
      rw [List.flatMap_cons, List.append_assoc, readString_escape, readString_unit,
        closeUnit_high hHigh, decode_lone hHigh hLone]
      exact ⟨_, readString_lone hLone reversed rest⟩
  | case7 u glyphs hHigh hLow =>
      intro reversed rest
      rw [List.flatMap_cons, List.append_assoc, readString_escape, readString_unit,
        closeUnit_single hHigh, decode_single hHigh, if_pos hLow, if_pos hLow]
      exact ⟨_, rfl⟩
  | case8 u glyphs hHigh hLow ih =>
      intro reversed rest
      rw [List.flatMap_cons, List.append_assoc, readString_escape, readString_unit,
        closeUnit_single hHigh, decode_single hHigh, if_neg hLow, if_neg hLow]
      simpa [Function.comp_def] using ih (Char.ofNat u.value :: reversed) rest

/-- A quoted text is read, whatever follows it. -/
theorem hears_quoted (glyphs : List Glyph) (rest : List Char) :
    Hears (readQuoted (glyphs.flatMap Glyph.text ++ '"' :: rest)) rest (spelled glyphs) :=
  hears_glyphs glyphs [] rest

/-! ## Numbers -/

/-- No natural number comes of it. -/
def NoNatural (answer : Scanned Number) : Prop :=
  ∀ number rest, answer ≠ .ok (.natural number, rest)

theorem closeReal_noNatural (isNegative : Bool) (significand : Nat) (power : Int)
    (rest : List Char) : NoNatural (closeReal isNegative significand power rest) := by
  intro number after hRead
  unfold closeReal at hRead
  split at hRead <;> cases hRead

theorem readExponent_noNatural (isNegative : Bool) (significand : Nat) (power : Int)
    (cs : List Char) : NoNatural (readExponent isNegative significand power cs) := by
  unfold readExponent
  split
  · dsimp only
    split
    · intro _ _ hRead
      cases hRead
    · exact closeReal_noNatural _ _ _ _
  · exact closeReal_noNatural _ _ _ _

theorem readFraction_noNatural (isNegative : Bool) (significand : Nat) (power : Int)
    (cs : List Char) : NoNatural (readFraction isNegative significand power cs) := by
  unfold readFraction
  split
  · intro _ _ hRead
    cases hRead
  · exact readExponent_noNatural _ _ _ _

theorem closeInteger_noNatural (value : Nat) (rest : List Char) :
    NoNatural (closeInteger true value rest) := by
  intro number after hRead
  simp only [closeInteger, Bool.not_true, Bool.false_eq_true, if_false] at hRead
  split at hRead
  · cases hRead
  · exact closeReal_noNatural _ _ _ _ _ _ hRead

/-- A natural number has no sign, its digits fit, and neither a point nor an exponent
follows them. -/
theorem readAfterInteger_noNatural {isNegative : Bool} {value : Nat} {cs : List Char}
    (hReal : isNegative = true ∨ cs.takeWhile isDigit ≠ [] ∨
      '.' ∈ (cs.dropWhile isDigit).head? ∨ startsExponent (cs.dropWhile isDigit) = true) :
    NoNatural (readAfterInteger isNegative value cs) := by
  unfold readAfterInteger
  dsimp only
  split
  · exact readFraction_noNatural _ _ _ _
  · next hPoint =>
      split
      · next hInteger =>
          simp only [Bool.and_eq_true, List.isEmpty_iff, Bool.not_eq_true'] at hInteger
          obtain hNegative | hSurplus | hHead | hExponent := hReal
          · rw [hNegative]
            exact closeInteger_noNatural _ _
          · exact absurd hInteger.1 hSurplus
          · obtain ⟨more, hMore⟩ := List.head?_eq_some_iff.mp hHead
            exact (hPoint more hMore).elim
          · cases hInteger.2.symm.trans hExponent
      · exact readExponent_noNatural _ _ _ _

theorem readNumber_noNatural (cs : List Char) : NoNatural (readNumber true cs) := by
  have hMalformed : NoNatural (.error .malformed) := fun _ _ hRead => by cases hRead
  unfold readNumber
  split
  · exact hMalformed
  · split
    · split
      · exact readAfterInteger_noNatural (.inl rfl)
      · exact hMalformed
    · split
      · exact readAfterInteger_noNatural (.inl rfl)
      · exact hMalformed

theorem le_digitValue (digits : List (Fin 10)) (before : Nat) :
    before ≤ digitValue before digits := by
  induction digits generalizing before with
  | nil => exact Nat.le_refl _
  | cons digit digits ih =>
      have hMore := ih (before * 10 + digit.val)
      simp only [digitValue, List.foldl_cons] at hMore ⊢
      omega

/-- The digits that 64 bits have room for are gathered. -/
theorem gather_digitText (digits : List (Fin 10)) : ∀ (before count : Nat) {rest : List Char},
    NoDigit rest →
      (∃ count', gather before count (digitText digits ++ rest) =
        (digitValue before digits, count', rest)) ∨
      UInt64.size ≤ digitValue before digits ∧ ∃ value count' left,
        gather before count (digitText digits ++ rest) = (value, count', left) ∧
          left.takeWhile isDigit ≠ [] := by
  induction digits with
  | nil =>
      intro before count rest hRest
      refine .inl ⟨count, ?_⟩
      cases rest with
      | nil => rfl
      | cons c more =>
          have hNone : decimalValue? c = none := by simpa [isDigit] using hRest c rfl
          simp [digitText, digitValue, gather, hNone]
  | cons digit digits ih =>
      intro before count rest hRest
      have hDigit := decimalValue?_digitChar digit.val digit.isLt
      by_cases hRoom : before * 10 + digit.val < UInt64.size
      · have hGather : gather before count (digitText (digit :: digits) ++ rest) =
            gather (before * 10 + digit.val) (count + 1) (digitText digits ++ rest) := by
          simp [digitText, gather, hDigit, hRoom]
        rw [hGather]
        exact ih (before * 10 + digit.val) (count + 1) hRest
      · refine .inr ⟨?_, before, count, digitText (digit :: digits) ++ rest, ?_, ?_⟩
        · have hMore := le_digitValue digits (before * 10 + digit.val)
          simp only [digitValue, List.foldl_cons] at hMore ⊢
          omega
        · simp [digitText, gather, hDigit, hRoom]
        · rw [takeWhile_digitText _ hRest]
          simp [digitText]

/-- Behind the digits before the point, a natural number ends. -/
theorem readAfterInteger_natural (value : Nat) {rest : List Char} (hRest : Apart rest) :
    readAfterInteger false value rest = .ok (.natural value, rest) := by
  unfold readAfterInteger
  simp only [hRest.noDigit.takeWhile, hRest.noDigit.dropWhile]
  split
  · exact absurd rfl (hRest '.' rfl).2.1
  · simp [startsExponent_apart hRest, closeInteger]

theorem readAfterInteger_real (value : Nat) {fraction : Option Digits}
    {exponent : Option Exponent} {rest : List Char} (hRest : Apart rest)
    (hReal : (fraction.isSome || exponent.isSome) = true) :
    NoNatural (readAfterInteger false value
      (fractionText fraction ++ (exponentText exponent ++ rest))) := by
  apply readAfterInteger_noNatural
  rw [(noDigit_fraction fraction exponent hRest).dropWhile]
  cases fraction with
  | some digits => exact .inr (.inr (.inl rfl))
  | none =>
      cases exponent with
      | some e => exact .inr (.inr (.inr (startsExponent_some e rest)))
      | none => cases hReal

/-- Whatever value the digits before the point have, the rest of the number tells
whether it is a natural number. -/
theorem readAfterInteger_tail (n : Numeral) (hSign : n.negative = false) (value : Nat)
    {rest : List Char} (hRest : Apart rest) :
    (n.natural? = some (digitValue 0 n.whole.toList) ∧
      readAfterInteger false value (n.tail ++ rest) = .ok (.natural value, rest)) ∨
    (n.natural? = none ∧ NoNatural (readAfterInteger false value (n.tail ++ rest))) := by
  obtain ⟨negative, whole, alone, fraction, exponent⟩ := n
  cases hSign
  cases hReal : fraction.isSome || exponent.isSome with
  | true =>
      refine .inr ⟨?_, ?_⟩
      · simp only [Numeral.natural?, Bool.false_or, hReal, if_true]
      · rw [Numeral.tail, List.append_assoc]
        exact readAfterInteger_real value hRest hReal
  | false =>
      obtain ⟨rfl, rfl⟩ : fraction = none ∧ exponent = none := by simpa using hReal
      exact .inl ⟨rfl, readAfterInteger_natural value hRest⟩

/-- The value of the digits before the point, unless 64 bits have no room for
them. -/
theorem readNumber_whole (n : Numeral) {rest : List Char} (hRest : Apart rest) :
    readNumber false (n.body ++ rest) =
        readAfterInteger false (digitValue 0 n.whole.toList) (n.tail ++ rest) ∨
      UInt64.size ≤ digitValue 0 n.whole.toList ∧
        NoNatural (readNumber false (n.body ++ rest)) := by
  have hTail := noDigit_tail n hRest
  by_cases hZero : Nat.digitChar n.whole.first.val = '0'
  · have hFirst := digitChar_eq_zero hZero
    have hNone := n.alone hFirst
    have hValue : digitValue 0 n.whole.toList = 0 := by
      simp [digitValue, Digits.toList, hFirst, hNone]
    left
    rw [body_append, readNumber, if_pos hZero, hValue]
    simp only [hNone, digitText, List.map_nil, List.nil_append, hTail.takeWhile]
  · have hRead : ∀ {value count left},
        gather 0 0 (digitText n.whole.toList ++ (n.tail ++ rest)) = (value, count, left) →
          readNumber false (n.body ++ rest) = readAfterInteger false value left := by
      intro value count left hGather
      simp only [digitText, Digits.toList, List.map_cons, List.cons_append] at hGather
      rw [body_append, readNumber, if_neg hZero, if_pos (isDigit_digitChar n.whole.first),
        digitText, hGather]
    obtain ⟨count, hGather⟩ | ⟨hLarge, value, count, left, hGather, hSurplus⟩ :=
      gather_digitText n.whole.toList 0 0 hTail
    · exact .inl (hRead hGather)
    · rw [hRead hGather]
      exact .inr ⟨hLarge, readAfterInteger_noNatural (.inr (.inl hSurplus))⟩

theorem natural?_eq_some {n : Numeral} {number : Nat} (hSome : n.natural? = some number) :
    number = digitValue 0 n.whole.toList := by
  unfold Numeral.natural? at hSome
  split at hSome
  · cases hSome
  · exact (Option.some.inj hSome).symm

/-- A natural number that has room in 64 bits is read, and nothing else is read as
one. -/
theorem readNumber_body (n : Numeral) (hSign : n.negative = false) {rest : List Char}
    (hRest : Apart rest) :
    (∃ number, n.natural? = some number ∧
      readNumber false (n.body ++ rest) = .ok (.natural number, rest)) ∨
    (NoNatural (readNumber false (n.body ++ rest)) ∧
      ∀ number, n.natural? = some number → UInt64.size ≤ number) := by
  obtain hRead | ⟨hLarge, hNone⟩ := readNumber_whole n hRest
  · rw [hRead]
    obtain ⟨hNatural, hEnd⟩ | ⟨hNatural, hEnd⟩ := readAfterInteger_tail n hSign _ hRest
    · exact .inl ⟨_, hNatural, hEnd⟩
    · exact .inr ⟨hEnd, fun number hSome => by cases hNatural.symm.trans hSome⟩
  · exact .inr ⟨hNone, fun number hSome => natural?_eq_some hSome ▸ hLarge⟩

end RelayRace.Json
