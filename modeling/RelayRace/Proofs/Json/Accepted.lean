import RelayRace.Proofs.Json.Skipped

/-!
# Nothing but a value is passed over

`skipValue` passes over the text of every value (`skipValue_text`); here, that it
passes over nothing else.  So the values leave no JSON text out: what `skipValue`
accepts is blanks and the text of a value.
-/

namespace RelayRace.Json

open Text

/-! ## Quoted texts -/

theorem exists_hexDigit {c : Char} (hDigit : ¬ (hexValue? c).isNone = true) :
    ∃ digit : HexDigit, digit.char = c := by
  have hAll : ∀ n, n < 128 → ¬ (hexValue? (Char.ofNat n)).isNone = true →
      ∃ (value : Fin 16) (capital : Bool), (HexDigit.mk value capital).char = Char.ofNat n := by
    decide
  have hSmall : c.toNat < 128 := by
    unfold hexValue? at hDigit
    split at hDigit
    · next hRange => exact Nat.lt_of_le_of_lt hRange.2 (by decide)
    split at hDigit
    · next hRange => exact Nat.lt_of_le_of_lt hRange.2 (by decide)
    split at hDigit
    · next hRange => exact Nat.lt_of_le_of_lt hRange.2 (by decide)
    · exact absurd rfl hDigit
  obtain ⟨value, capital, hChar⟩ := hAll c.toNat hSmall (by rwa [Char.ofNat_toNat])
  exact ⟨⟨value, capital⟩, hChar.trans (Char.ofNat_toNat c)⟩

/-- The digits of a code unit of which some are missing are passed over. -/
theorem exists_digits_of_skip {high : Option Nat} {rest : List Char} (missing : Nat) :
    ∀ {value : Nat} {cs : List Char},
      skipString (.unit high (missing + 1) value) cs = .ok rest →
        ∃ (digits : List HexDigit) (more : List Char), digits.length = missing + 1 ∧
          cs = digits.map HexDigit.char ++ more ∧ skipString .plain more = .ok rest := by
  induction missing with
  | zero =>
      intro value cs hSkip
      cases cs with
      | nil => cases hSkip
      | cons c more =>
          simp only [skipString] at hSkip
          split at hSkip
          · cases hSkip
          · next hDigit =>
              obtain ⟨digit, rfl⟩ := exists_hexDigit hDigit
              exact ⟨[digit], more, rfl, rfl, by simpa using hSkip⟩
  | succ missing ih =>
      intro value cs hSkip
      cases cs with
      | nil => cases hSkip
      | cons c more =>
          simp only [skipString] at hSkip
          split at hSkip
          · cases hSkip
          · next hDigit =>
              obtain ⟨digit, rfl⟩ := exists_hexDigit hDigit
              rw [if_neg (by omega)] at hSkip
              obtain ⟨digits, rest', hLength, rfl, hRest⟩ := ih hSkip
              exact ⟨digit :: digits, rest', by simp [hLength], rfl, hRest⟩

theorem exists_unit_of_skip {rest cs : List Char}
    (hSkip : skipString (.unit none 4 0) cs = .ok rest) :
    ∃ (u : CodeUnit) (more : List Char), cs = u.text ++ more ∧
      skipString .plain more = .ok rest := by
  obtain ⟨digits, more, hLength, rfl, hMore⟩ := exists_digits_of_skip 3 hSkip
  match digits, hLength with
  | [first, second, third, fourth], _ =>
      exact ⟨⟨first, second, third, fourth⟩, more, rfl, hMore⟩

theorem exists_escape {letter c : Char} (hEscape : shortEscape? letter = some c) :
    ∃ escape : Escape, escape.letter = letter := by
  unfold shortEscape? at hEscape
  split at hEscape
  · next hLetter => exact ⟨.quote, hLetter.symm⟩
  split at hEscape
  · next hLetter => exact ⟨.backslash, hLetter.symm⟩
  split at hEscape
  · next hLetter => exact ⟨.slash, hLetter.symm⟩
  split at hEscape
  · next hLetter => exact ⟨.backspace, hLetter.symm⟩
  split at hEscape
  · next hLetter => exact ⟨.formFeed, hLetter.symm⟩
  split at hEscape
  · next hLetter => exact ⟨.lineFeed, hLetter.symm⟩
  split at hEscape
  · next hLetter => exact ⟨.carriageReturn, hLetter.symm⟩
  split at hEscape
  · next hLetter => exact ⟨.tab, hLetter.symm⟩
  · cases hEscape

/-- The first glyph of a text that does not end. -/
theorem exists_glyph_of_skip {c : Char} {cs rest : List Char} (hQuote : c ≠ '"')
    (hSkip : skipString .plain (c :: cs) = .ok rest) :
    ∃ (glyph : Glyph) (more : List Char), c :: cs = glyph.text ++ more ∧
      skipString .plain more = .ok rest := by
  simp only [skipString, stringStep, hQuote, and_false, if_false] at hSkip
  by_cases hBackslash : c = '\\'
  · subst hBackslash
    simp only [if_true] at hSkip
    cases cs with
    | nil => cases hSkip
    | cons letter more =>
        simp only [skipString, stringStep] at hSkip
        by_cases hUnit : letter = 'u'
        · subst hUnit
          obtain ⟨u, after, rfl, hAfter⟩ := exists_unit_of_skip (by simpa using hSkip)
          exact ⟨.unit u, after, rfl, hAfter⟩
        · cases hEscape : shortEscape? letter with
          | none => simp [hUnit, hEscape] at hSkip
          | some char =>
              obtain ⟨escape, rfl⟩ := exists_escape hEscape
              exact ⟨.short escape, more, rfl, by simpa [hUnit, hEscape] using hSkip⟩
  · by_cases hControl : c.toNat < 0x20
    · simp [hBackslash, hControl] at hSkip
    · exact ⟨.plain c ⟨Nat.le_of_not_lt hControl, hQuote, hBackslash⟩, cs, rfl,
        by simpa [hBackslash, hControl] using hSkip⟩

theorem glyph_text_ne_nil (glyph : Glyph) : 0 < glyph.text.length := by
  cases glyph <;> simp [Glyph.text]

/-- A quoted text is passed over glyph by glyph. -/
theorem exists_glyphs_of_skip {rest : List Char} (cs : List Char)
    (hSkip : skipString .plain cs = .ok rest) :
    ∃ glyphs : List Glyph, cs = glyphs.flatMap Glyph.text ++ '"' :: rest := by
  induction hLength : cs.length using Nat.strongRecOn generalizing cs with
  | ind length ih =>
      cases cs with
      | nil => cases hSkip
      | cons c more =>
          by_cases hQuote : c = '"'
          · subst hQuote
            exact ⟨[], by simpa [skipString] using hSkip⟩
          · obtain ⟨glyph, after, hText, hAfter⟩ := exists_glyph_of_skip hQuote hSkip
            have hShorter : after.length < length := by
              have hGlyph := glyph_text_ne_nil glyph
              rw [← hLength, hText, List.length_append]
              omega
            obtain ⟨glyphs, rfl⟩ := ih _ hShorter after hAfter rfl
            exact ⟨glyph :: glyphs, by rw [hText, List.flatMap_cons, List.append_assoc]⟩

/-! ## Numbers -/

theorem exists_digit {c : Char} (hDigit : isDigit c = true) :
    ∃ digit : Fin 10, Nat.digitChar digit.val = c := by
  have hAll : ∀ n, n < 128 → isDigit (Char.ofNat n) = true →
      ∃ digit : Fin 10, Nat.digitChar digit.val = Char.ofNat n := by
    decide
  have hSmall : c.toNat < 128 := by
    unfold isDigit decimalValue? at hDigit
    split at hDigit
    · next hRange => exact Nat.lt_of_le_of_lt hRange.2 (by decide)
    · cases hDigit
  obtain ⟨digit, hChar⟩ := hAll c.toNat hSmall (by rwa [Char.ofNat_toNat])
  exact ⟨digit, hChar.trans (Char.ofNat_toNat c)⟩

theorem exists_digitText : ∀ {cs : List Char}, cs.all isDigit = true →
    ∃ digits, digitText digits = cs
  | [], _ => ⟨[], rfl⟩
  | c :: cs, hAll => by
      obtain ⟨hHead, hTail⟩ := Bool.and_eq_true_iff.mp hAll
      obtain ⟨digit, rfl⟩ := exists_digit hHead
      obtain ⟨digits, rfl⟩ := exists_digitText hTail
      exact ⟨digit :: digits, rfl⟩

theorem exists_of_skipDigits {cs rest : List Char} (hSkip : skipDigits cs = .ok rest) :
    ∃ digits : Digits, cs = digitText digits.toList ++ rest := by
  obtain ⟨digits, hDigits⟩ := exists_digitText (List.all_takeWhile (p := isDigit) (l := cs))
  have hSplit := List.takeWhile_append_dropWhile (p := isDigit) (l := cs)
  unfold skipDigits at hSkip
  rw [← hDigits] at hSkip hSplit
  cases digits with
  | nil => cases hSkip
  | cons first more =>
      cases hSkip
      exact ⟨⟨first, more⟩, hSplit.symm⟩

theorem exists_sign (cs : List Char) : ∃ sign, cs = signText sign ++ (exponentSign cs).2 := by
  unfold exponentSign
  split
  · exact ⟨some false, rfl⟩
  · exact ⟨some true, rfl⟩
  · exact ⟨none, rfl⟩

theorem exists_of_skipExponent {cs rest : List Char} (hSkip : skipExponent cs = .ok rest) :
    ∃ exponent, cs = exponentText exponent ++ rest := by
  unfold skipExponent at hSkip
  split at hSkip
  · next hStarts =>
      cases cs with
      | nil => cases hStarts
      | cons mark more =>
          obtain ⟨digits, hDigits⟩ := exists_of_skipDigits hSkip
          obtain ⟨sign, hSign⟩ := exists_sign more
          rw [List.tail_cons] at hDigits
          rw [hDigits] at hSign
          have hMark : mark = 'e' ∨ mark = 'E' := by
            simpa [startsExponent, isExponentMark] using hStarts
          obtain rfl | rfl := hMark
          · exact ⟨some ⟨false, sign, digits⟩, by simp [exponentText, hSign]⟩
          · exact ⟨some ⟨true, sign, digits⟩, by simp [exponentText, hSign]⟩
  · cases hSkip
    exact ⟨none, rfl⟩

theorem exists_of_skipAfterInteger {cs rest : List Char}
    (hSkip : skipAfterInteger cs = .ok rest) :
    ∃ fraction exponent, cs = fractionText fraction ++ (exponentText exponent ++ rest) := by
  unfold skipAfterInteger at hSkip
  split at hSkip
  · next more =>
      split at hSkip
      · next after hDigits =>
          obtain ⟨digits, rfl⟩ := exists_of_skipDigits hDigits
          obtain ⟨exponent, rfl⟩ := exists_of_skipExponent hSkip
          exact ⟨some digits, exponent, rfl⟩
      · cases hSkip
  · obtain ⟨exponent, rfl⟩ := exists_of_skipExponent hSkip
    exact ⟨none, exponent, rfl⟩

theorem exists_of_skipNumber {cs rest : List Char} (hSkip : skipNumber cs = .ok rest) :
    ∃ n : Numeral, n.negative = false ∧ cs = n.body ++ rest := by
  unfold skipNumber at hSkip
  split at hSkip
  · cases hSkip
  · next c more =>
      split at hSkip
      · next hZero =>
          split at hSkip
          · obtain ⟨fraction, exponent, rfl⟩ := exists_of_skipAfterInteger hSkip
            refine ⟨⟨false, ⟨0, []⟩, fun _ => rfl, fraction, exponent⟩, rfl, ?_⟩
            simp [Numeral.body, Numeral.tail, digitText, Digits.toList, hZero]
          · cases hSkip
      · next hFirst =>
          split at hSkip
          · next after hDigits =>
              obtain ⟨digits, hText⟩ := exists_of_skipDigits hDigits
              obtain ⟨fraction, exponent, rfl⟩ := exists_of_skipAfterInteger hSkip
              have hAlone : digits.first = 0 → digits.rest = [] := by
                intro hZero
                rw [digitText, Digits.toList, List.map_cons, hZero] at hText
                exact absurd (List.cons.inj hText).1 hFirst
              refine ⟨⟨false, digits, hAlone, fraction, exponent⟩, rfl, ?_⟩
              rw [hText]
              simp [Numeral.body, Numeral.tail]
          · cases hSkip

/-! ## Values -/

theorem exists_gap (cs : List Char) : ∃ gap : Gap, cs = gap.chars ++ skipSpace cs :=
  ⟨⟨cs.takeWhile isSpace, List.all_takeWhile⟩, List.takeWhile_append_dropWhile.symm⟩

theorem eq_of_passWord {word cs rest : List Char} (hPass : passWord word cs = .ok rest) :
    cs = word ++ rest := by
  induction word generalizing cs with
  | nil =>
      cases hPass
      rfl
  | cons w word ih =>
      cases cs with
      | nil => cases hPass
      | cons c cs =>
          rw [passWord] at hPass
          split at hPass
          · next hSame => rw [hSame, ih hPass, List.cons_append]
          · cases hPass

theorem exists_of_passMark {mark : Char} {cs rest : List Char}
    (hPass : passMark mark cs = .ok rest) : ∃ gap : Gap, cs = gap.chars ++ mark :: rest := by
  obtain ⟨gap, hGap⟩ := exists_gap cs
  unfold passMark at hPass
  split at hPass
  · next c more hMore =>
      split at hPass
      · next hSame =>
          cases hPass
          exact ⟨gap, by rw [hGap, hMore, hSame]⟩
      · cases hPass
  · cases hPass

/-- The mark that opens a list or an object. -/
def Enclosing.opening : Enclosing → Char
  | .list => '['
  | .object => '\x7b'

theorem eq_of_map_ok {answer : Except Fault (List Char)} {found : Option Enclosing}
    {rest : List Char} (hMap : answer.map (none, ·) = .ok (found, rest)) :
    found = none ∧ answer = .ok rest := by
  cases answer with
  | error fault => cases hMap
  | ok after =>
      cases hMap
      exact ⟨rfl, rfl⟩

/-- What is passed over as a scalar is a value, or the opening of a list or an
object. -/
theorem exists_of_skipScalar {cs rest : List Char} {found : Option Enclosing}
    (hSkip : skipScalar cs = .ok (found, rest)) :
    ∃ gap : Gap, (found = none ∧ ∃ v : Value, cs = gap.chars ++ (v.text ++ rest)) ∨
      ∃ enclosing, found = some enclosing ∧ cs = gap.chars ++ enclosing.opening :: rest := by
  obtain ⟨gap, hGap⟩ := exists_gap cs
  refine ⟨gap, ?_⟩
  unfold skipScalar at hSkip
  split at hSkip
  case h_1 more hMore =>
    obtain ⟨hNone, hWord⟩ := eq_of_map_ok hSkip
    exact .inl ⟨hNone, .null, by rw [hGap, hMore, eq_of_passWord hWord]; rfl⟩
  case h_2 more hMore =>
    obtain ⟨hNone, hWord⟩ := eq_of_map_ok hSkip
    exact .inl ⟨hNone, .boolean true, by rw [hGap, hMore, eq_of_passWord hWord]; rfl⟩
  case h_3 more hMore =>
    obtain ⟨hNone, hWord⟩ := eq_of_map_ok hSkip
    exact .inl ⟨hNone, .boolean false, by rw [hGap, hMore, eq_of_passWord hWord]; rfl⟩
  case h_4 more hMore =>
    obtain ⟨hNone, hString⟩ := eq_of_map_ok hSkip
    obtain ⟨glyphs, rfl⟩ := exists_glyphs_of_skip more hString
    exact .inl ⟨hNone, .quoted glyphs, by rw [hGap, hMore]; simp [Value.text, quotedText]⟩
  case h_5 more hMore =>
    obtain ⟨hNone, hNumber⟩ := eq_of_map_ok hSkip
    obtain ⟨n, -, rfl⟩ := exists_of_skipNumber hNumber
    exact .inl ⟨hNone, .numeral { n with negative := true }, by rw [hGap, hMore]; rfl⟩
  case h_6 more hMore =>
    cases hSkip
    exact .inr ⟨.list, rfl, by rw [hGap, hMore]; rfl⟩
  case h_7 more hMore =>
    cases hSkip
    exact .inr ⟨.object, rfl, by rw [hGap, hMore]; rfl⟩
  case h_8 =>
    obtain ⟨hNone, hNumber⟩ := eq_of_map_ok hSkip
    obtain ⟨n, hSign, hBody⟩ := exists_of_skipNumber hNumber
    refine .inl ⟨hNone, .numeral n, ?_⟩
    rw [hGap, hBody, Value.text, Numeral.text, hSign, if_neg Bool.false_ne_true]

theorem exists_of_skipKey {cs rest : List Char} (hSkip : skipKey cs = .ok rest) :
    ∃ (before : Gap) (key : List Glyph) (gap : Gap),
      cs = before.chars ++ (quotedText key ++ (gap.chars ++ ':' :: rest)) := by
  obtain ⟨before, hBefore⟩ := exists_gap cs
  unfold skipKey at hSkip
  split at hSkip
  · next more hMore =>
      split at hSkip
      · next after hString =>
          obtain ⟨key, rfl⟩ := exists_glyphs_of_skip more hString
          obtain ⟨gap, rfl⟩ := exists_of_passMark hSkip
          exact ⟨before, key, gap, by rw [hBefore, hMore]; simp [quotedText]⟩
      · cases hSkip
  · cases hSkip

/-- The text of what may stand between two marks of a list or an object. -/
def IsItem : Enclosing → List Char → Prop
  | .list, text => ∃ slot, text = slotText slot
  | .object, text => ∃ member, text = memberText member

theorem exists_map {α : Type} {text : α → List Char} :
    ∀ {texts : List (List Char)}, (∀ other ∈ texts, ∃ item, other = text item) →
      ∃ items : List α, texts = items.map text
  | [], _ => ⟨[], rfl⟩
  | other :: texts, hTexts => by
      obtain ⟨⟨item, rfl⟩, hMore⟩ := List.forall_mem_cons.mp hTexts
      obtain ⟨items, rfl⟩ := exists_map hMore
      exact ⟨item :: items, rfl⟩

/-- Items between their marks are a list or an object. -/
theorem exists_enclosed {enclosing : Enclosing} {texts : List (List Char)}
    (hItems : ∀ text ∈ texts, IsItem enclosing text) (inner : Gap) :
    ∃ v : Value, v.text =
      enclosing.opening :: (inner.chars ++ (printItems id texts ++ [enclosing.close])) := by
  cases enclosing with
  | list =>
      obtain ⟨slots, rfl⟩ := exists_map hItems
      refine ⟨.list inner slots, ?_⟩
      rw [Value.text, slotsText_eq, printItems_map]
      rfl
  | object =>
      obtain ⟨members, rfl⟩ := exists_map hItems
      refine ⟨.object inner members, ?_⟩
      rw [Value.text, membersText_eq, printItems_map]
      rfl

/-- A member is its head and the slot behind it. -/
theorem exists_item {enclosing : Enclosing} {cs value rest : List Char} {before after : Gap}
    {v : Value} (hHead : skipMemberHead enclosing cs = .ok value)
    (hValue : value = before.chars ++ (v.text ++ (after.chars ++ rest))) :
    ∃ text, IsItem enclosing text ∧ cs = text ++ rest := by
  cases enclosing with
  | list =>
      cases hHead
      exact ⟨_, ⟨⟨before, v, after⟩, rfl⟩, by simp [hValue, slotText]⟩
  | object =>
      obtain ⟨front, key, gap, rfl⟩ := exists_of_skipKey hHead
      exact ⟨_, ⟨⟨front, key, gap, ⟨before, v, after⟩⟩, rfl⟩,
        by simp [hValue, memberText, slotText]⟩

/-- All that is passed over in so many steps is a value. -/
def TakesValues (fuel : Nat) : Prop :=
  ∀ ⦃cs rest : List Char⦄, skipValueIn fuel cs = .ok rest →
    ∃ (gap : Gap) (v : Value), cs = gap.chars ++ (v.text ++ rest)

/-- All that is passed over in so many steps up to the end of a list or an object is
items. -/
def TakesItems (fuel : Nat) : Prop :=
  ∀ ⦃enclosing : Enclosing⦄ ⦃cs rest : List Char⦄, skipMembers fuel enclosing cs = .ok rest →
    ∃ text texts, (∀ other ∈ text :: texts, IsItem enclosing other) ∧
      cs = printItems id (text :: texts) ++ enclosing.close :: rest

/-- A value is a scalar, empty, or its items. -/
theorem TakesItems.values {fuel : Nat} (hTakes : TakesItems fuel) : TakesValues (fuel + 1) := by
  intro cs rest hSkip
  rw [skipValueIn] at hSkip
  split at hSkip
  · cases hSkip
  · next after hScalar =>
      cases hSkip
      obtain ⟨gap, ⟨-, v, rfl⟩ | ⟨enclosing, hSome, -⟩⟩ := exists_of_skipScalar hScalar
      · exact ⟨gap, v, rfl⟩
      · cases hSome
  · next enclosing inside hScalar =>
      obtain ⟨gap, ⟨hNone, -⟩ | ⟨enclosing, hSome, rfl⟩⟩ := exists_of_skipScalar hScalar
      · cases hNone
      cases hSome
      obtain ⟨inner, hInner⟩ := exists_gap inside
      split at hSkip
      · next c after hMore =>
          split at hSkip
          · next hClose =>
              cases hSkip
              obtain ⟨v, hText⟩ :=
                exists_enclosed (List.forall_mem_nil (IsItem enclosing)) inner
              refine ⟨gap, v, ?_⟩
              rw [hInner, hMore, hClose, hText]
              simp [printItems]
          · obtain ⟨text, texts, hItems, hAll⟩ := hTakes hSkip
            obtain ⟨v, hText⟩ := exists_enclosed hItems inner
            refine ⟨gap, v, ?_⟩
            rw [hInner, hMore, hAll, hText]
            simp
      · cases hSkip

/-- Behind an item is a comma and more of them, or the end. -/
theorem TakesItems.succ {fuel : Nat} (hTakes : TakesItems fuel) (hValues : TakesValues fuel) :
    TakesItems (fuel + 1) := by
  intro enclosing cs rest hSkip
  rw [skipMembers] at hSkip
  split at hSkip
  · cases hSkip
  next value hHead =>
  split at hSkip
  · cases hSkip
  next behind hValue =>
  obtain ⟨before, v, rfl⟩ := hValues hValue
  obtain ⟨after, hAfter⟩ := exists_gap behind
  obtain ⟨text, hItem, rfl⟩ := exists_item hHead (by rw [hAfter])
  split at hSkip
  · next more hMore =>
      obtain ⟨next, texts, hItems, rfl⟩ := hTakes hSkip
      refine ⟨text, next :: texts, List.forall_mem_cons.mpr ⟨hItem, hItems⟩, ?_⟩
      rw [hMore]
      simp [printItems]
  · next c more _ hMore =>
      split at hSkip
      · next hClose =>
          cases hSkip
          refine ⟨text, [], by simpa using hItem, ?_⟩
          rw [hMore, hClose]
          rfl
      · cases hSkip
  · cases hSkip

theorem takes_all (fuel : Nat) : TakesValues fuel ∧ TakesItems fuel := by
  induction fuel with
  | zero =>
      constructor
      · intro cs rest hSkip
        cases hSkip
      · intro enclosing cs rest hSkip
        cases hSkip
  | succ fuel ih => exact ⟨ih.2.values, ih.2.succ ih.1⟩

/-- What is passed over is blanks and the text of a value. -/
theorem exists_value_of_skipValue {cs rest : List Char} (hSkip : skipValue cs = .ok rest) :
    ∃ (gap : Gap) (v : Value), cs = gap.chars ++ (v.text ++ rest) :=
  (takes_all _).1 hSkip

/-- Where no number can go on, the texts that are passed over are those of the values. -/
theorem skipValue_eq_ok_iff {cs rest : List Char} (hRest : Apart rest) :
    skipValue cs = .ok rest ↔ ∃ (gap : Gap) (v : Value), cs = gap.chars ++ (v.text ++ rest) := by
  constructor
  · exact exists_value_of_skipValue
  · rintro ⟨gap, v, rfl⟩
    exact skipValue_text v gap hRest

end RelayRace.Json
