import RelayRace.Proofs.Json.Document

/-!
# A value is passed over to its end

Whatever value stands under a key that no field has, `skipValue` takes its text and
nothing behind it.  Only a number depends on what follows it: it goes on with a
further digit, a point or an exponent (`Apart`).

The steps that `skipValueIn` may take count down from twice the length of the text.
An item of a list is two steps below the list, and each comma costs one more.
-/

namespace RelayRace.Json

open Text

/-! ## Quoted texts -/

theorem skipString_unit (u : CodeUnit) (rest : List Char) :
    skipString (.unit none 4 0) (u.text ++ rest) = skipString .plain rest := by
  simp [CodeUnit.text, skipString, hexValue?_char]

theorem skipString_glyph (glyph : Glyph) (rest : List Char) :
    skipString .plain (glyph.text ++ rest) = skipString .plain rest := by
  cases glyph with
  | plain c isPlain =>
      have hNoControl : ¬ c.toNat < 0x20 := Nat.not_lt_of_le isPlain.1
      simp [Glyph.text, skipString, stringStep, isPlain.2, hNoControl]
  | short escape => cases escape <;> simp [Glyph.text, Escape.letter, skipString, stringStep,
      shortEscape?]
  | unit u =>
      have hUnit := skipString_unit u rest
      simp [Glyph.text, skipString, stringStep, hUnit]

/-- A quoted text is passed over, also where it says nothing. -/
theorem skipString_glyphs (glyphs : List Glyph) (rest : List Char) :
    skipString .plain (glyphs.flatMap Glyph.text ++ '"' :: rest) = .ok rest := by
  induction glyphs with
  | nil => simp [skipString]
  | cons glyph glyphs ih => rw [List.flatMap_cons, List.append_assoc, skipString_glyph, ih]

/-! ## Numbers -/

/-- No digit comes next. -/
def NoDigit (rest : List Char) : Prop := ∀ c ∈ rest.head?, isDigit c = false

/-- Nothing comes next with which a number would go on. -/
def Apart (rest : List Char) : Prop :=
  ∀ c ∈ rest.head?, isDigit c = false ∧ c ≠ '.' ∧ isExponentMark c = false

theorem Apart.noDigit {rest : List Char} (hRest : Apart rest) : NoDigit rest :=
  fun c hMem => (hRest c hMem).1

theorem isDigit_digitChar (digit : Fin 10) : isDigit (Nat.digitChar digit.val) = true := by
  rw [isDigit, decimalValue?_digitChar digit.val digit.isLt]
  rfl

theorem digitChar_ne (digit : Fin 10) {mark : Char} (hMark : isDigit mark = false) :
    Nat.digitChar digit.val ≠ mark := by
  rintro rfl
  cases hMark.symm.trans (isDigit_digitChar digit)

theorem isSpace_digitChar (digit : Fin 10) : isSpace (Nat.digitChar digit.val) = false := by
  revert digit
  decide

theorem digitChar_eq_zero {digit : Fin 10} (hZero : Nat.digitChar digit.val = '0') : digit = 0 := by
  revert digit
  decide

theorem isDigit_of_mem {digits : List (Fin 10)} : ∀ c ∈ digitText digits, isDigit c = true := by
  intro c hMem
  obtain ⟨digit, -, rfl⟩ := List.mem_map.mp hMem
  exact isDigit_digitChar digit

theorem NoDigit.takeWhile {rest : List Char} (hRest : NoDigit rest) :
    rest.takeWhile isDigit = [] := by
  cases rest with
  | nil => rfl
  | cons c more => simp [hRest c rfl]

theorem NoDigit.dropWhile {rest : List Char} (hRest : NoDigit rest) :
    rest.dropWhile isDigit = rest := by
  cases rest with
  | nil => rfl
  | cons c more => simp [hRest c rfl]

theorem takeWhile_digitText (digits : List (Fin 10)) {rest : List Char} (hRest : NoDigit rest) :
    (digitText digits ++ rest).takeWhile isDigit = digitText digits := by
  rw [List.takeWhile_append_of_pos isDigit_of_mem, hRest.takeWhile, List.append_nil]

theorem dropWhile_digitText (digits : List (Fin 10)) {rest : List Char} (hRest : NoDigit rest) :
    (digitText digits ++ rest).dropWhile isDigit = rest := by
  rw [List.dropWhile_append_of_pos isDigit_of_mem, hRest.dropWhile]

theorem skipDigits_text (digits : Digits) {rest : List Char} (hRest : NoDigit rest) :
    skipDigits (digitText digits.toList ++ rest) = .ok rest := by
  rw [skipDigits, takeWhile_digitText _ hRest, dropWhile_digitText _ hRest]
  rfl

theorem noDigit_exponent (exponent : Option Exponent) {rest : List Char} (hRest : Apart rest) :
    NoDigit (exponentText exponent ++ rest) := by
  cases exponent with
  | none => exact hRest.noDigit
  | some exponent =>
      have hMarks : isDigit 'E' = false ∧ isDigit 'e' = false := by decide
      simp only [NoDigit, exponentText]
      split <;> simp [hMarks]

theorem noDigit_fraction (fraction : Option Digits) (exponent : Option Exponent)
    {rest : List Char} (hRest : Apart rest) :
    NoDigit (fractionText fraction ++ (exponentText exponent ++ rest)) := by
  cases fraction with
  | none => exact noDigit_exponent exponent hRest
  | some digits =>
      have hPoint : isDigit '.' = false := by decide
      simp [NoDigit, fractionText, hPoint]

/-- The sign of an exponent is taken off, and no digit is taken for it. -/
theorem exponentSign_text (sign : Option Bool) (digits : Digits) (rest : List Char) :
    exponentSign (signText sign ++ digitText digits.toList ++ rest) =
      (sign.getD false, digitText digits.toList ++ rest) := by
  match sign with
  | some false => rfl
  | some true => rfl
  | none =>
      simp only [signText, List.nil_append, digitText, Digits.toList, List.map_cons,
        List.cons_append, exponentSign]
      split
      · next hCons =>
          exact absurd (List.cons.inj hCons).1 (digitChar_ne digits.first (by decide))
      · next hCons =>
          exact absurd (List.cons.inj hCons).1 (digitChar_ne digits.first (by decide))
      · rfl

theorem startsExponent_some (e : Exponent) (rest : List Char) :
    startsExponent (exponentText (some e) ++ rest) = true := by
  simp only [exponentText, List.cons_append, startsExponent]
  split <;> rfl

theorem startsExponent_apart {rest : List Char} (hRest : Apart rest) :
    startsExponent rest = false := by
  cases rest with
  | nil => rfl
  | cons c more => exact (hRest c rfl).2.2

theorem skipExponent_text (exponent : Option Exponent) {rest : List Char} (hRest : Apart rest) :
    skipExponent (exponentText exponent ++ rest) = .ok rest := by
  cases exponent with
  | none => simp [exponentText, skipExponent, startsExponent_apart hRest]
  | some e =>
      rw [skipExponent, if_pos (startsExponent_some e rest), exponentText, List.cons_append,
        List.tail_cons, exponentSign_text, skipDigits_text _ hRest.noDigit]

/-- Behind the digits of a number that has no fraction comes no point. -/
theorem exponent_not_point (exponent : Option Exponent) {rest : List Char} (hRest : Apart rest) :
    '.' ∉ (exponentText exponent ++ rest).head? := by
  cases exponent with
  | none => exact fun hMem => (hRest '.' hMem).2.1 rfl
  | some e =>
      simp only [exponentText, List.cons_append, List.head?_cons]
      split <;> decide

theorem skipAfterInteger_text (fraction : Option Digits) (exponent : Option Exponent)
    {rest : List Char} (hRest : Apart rest) :
    skipAfterInteger (fractionText fraction ++ (exponentText exponent ++ rest)) = .ok rest := by
  cases fraction with
  | none =>
      have hPoint := exponent_not_point exponent hRest
      rw [fractionText, List.nil_append]
      unfold skipAfterInteger
      split
      · next hCons =>
          rw [hCons] at hPoint
          exact absurd rfl hPoint
      · exact skipExponent_text exponent hRest
  | some digits =>
      have hDigits := skipDigits_text digits (noDigit_exponent exponent hRest)
      simp only [fractionText, List.cons_append, skipAfterInteger, hDigits,
        skipExponent_text exponent hRest]

theorem noDigit_tail (n : Numeral) {rest : List Char} (hRest : Apart rest) :
    NoDigit (n.tail ++ rest) := by
  rw [Numeral.tail, List.append_assoc]
  exact noDigit_fraction n.fraction n.exponent hRest

theorem body_append (n : Numeral) (rest : List Char) :
    n.body ++ rest =
      Nat.digitChar n.whole.first :: (digitText n.whole.rest ++ (n.tail ++ rest)) := by
  simp [Numeral.body, Digits.toList, digitText]

/-- A number is passed over, whatever its size, where it cannot go on. -/
theorem skipNumber_body (n : Numeral) {rest : List Char} (hRest : Apart rest) :
    skipNumber (n.body ++ rest) = .ok rest := by
  have hTail := noDigit_tail n hRest
  have hAfter : skipAfterInteger (n.tail ++ rest) = .ok rest := by
    rw [Numeral.tail, List.append_assoc]
    exact skipAfterInteger_text n.fraction n.exponent hRest
  rw [body_append, skipNumber]
  split
  · next hZero =>
      have hNone := n.alone (digitChar_eq_zero hZero)
      simp only [hNone, digitText, List.map_nil, List.nil_append, hTail.takeWhile, hAfter]
  · have hDigits := skipDigits_text n.whole hTail
    simp only [digitText, Digits.toList, List.map_cons, List.cons_append] at hDigits
    simp only [digitText, hDigits, hAfter]

/-! ## Keys -/

theorem passMark_gap (gap : Gap) {mark : Char} (hSolid : isSpace mark = false)
    (rest : List Char) : passMark mark (gap.chars ++ mark :: rest) = .ok rest := by
  simp [passMark, skipSpace_cons hSolid]

theorem skipKey_text (before : Gap) (key : List Glyph) (gap : Gap) (rest : List Char) :
    skipKey (before.chars ++ (quotedText key ++ (gap.chars ++ ':' :: rest))) = .ok rest := by
  have hString := skipString_glyphs key (gap.chars ++ ':' :: rest)
  have hColon : passMark ':' (gap.chars ++ ':' :: rest) = .ok rest :=
    passMark_gap gap (by decide) rest
  rw [skipKey, skipSpace_gap]
  simp only [quotedText, List.cons_append, List.append_assoc, List.nil_append,
    skipSpace_cons (show isSpace '"' = false by decide), hString, hColon]

/-! ## Values -/

theorem apart_gap (gap : Gap) {rest : List Char} (hRest : Apart rest) :
    Apart (gap.chars ++ rest) := by
  intro c hMem
  cases hChars : gap.chars with
  | nil => exact hRest c (by simpa [hChars] using hMem)
  | cons blank more =>
      have hBlank := List.all_eq_true.mp gap.blank blank (by simp [hChars])
      have hSame : blank = c := by simpa [hChars] using hMem
      subst hSame
      have hCases : blank = ' ' ∨ blank = '\n' ∨ blank = '\t' ∨ blank = '\r' := by
        simpa [isSpace, or_assoc] using hBlank
      obtain rfl | rfl | rfl | rfl := hCases <;> decide

theorem Delimited.apart {rest : List Char} (hRest : Delimited rest) : Apart rest := by
  obtain ⟨mark, more, rfl, rfl | rfl | rfl⟩ := hRest <;> simp [Apart] <;> decide

theorem Delimited.skipSpace {rest : List Char} (hRest : Delimited rest) :
    skipSpace rest = rest := by
  obtain ⟨mark, more, rfl, rfl | rfl | rfl⟩ := hRest <;> exact skipSpace_cons (by decide)

theorem body_begins (n : Numeral) :
    ∃ (digit : Fin 10) (more : List Char), n.body = Nat.digitChar digit.val :: more :=
  ⟨n.whole.first, _, rfl⟩

/-- A value begins neither with a blank nor with a closing bracket. -/
theorem text_begins (v : Value) :
    ∃ c more, v.text = c :: more ∧ isSpace c = false ∧ c ≠ ']' := by
  cases v with
  | null => exact ⟨'n', _, by rw [Value.text], by decide⟩
  | boolean value =>
      cases value with
      | true => exact ⟨'t', _, by rw [Value.text], by decide⟩
      | false => exact ⟨'f', _, by rw [Value.text], by decide⟩
  | numeral n =>
      obtain ⟨digit, more, hBody⟩ := body_begins n
      rw [Value.text, Numeral.text, hBody]
      split
      · exact ⟨'-', _, rfl, by decide⟩
      · exact ⟨_, _, rfl, isSpace_digitChar digit, digitChar_ne digit (by decide)⟩
  | quoted glyphs => exact ⟨'"', _, by rw [Value.text, quotedText]; rfl, by decide⟩
  | list gap slots => exact ⟨'[', _, by rw [Value.text], by decide⟩
  | object gap members => exact ⟨'\x7b', _, by rw [Value.text], by decide⟩

theorem skipSpace_skipSpace (cs : List Char) : skipSpace (skipSpace cs) = skipSpace cs := by
  induction cs with
  | nil => rfl
  | cons c cs ih =>
      cases hBlank : isSpace c with
      | true =>
          have hPassed : skipSpace (c :: cs) = skipSpace cs := by simp [skipSpace, hBlank]
          rw [hPassed, ih]
      | false => rw [skipSpace_cons hBlank, skipSpace_cons hBlank]

/-- Blanks in front of members are passed over with them. -/
theorem skipMembers_skipSpace (fuel : Nat) (enclosing : Enclosing) (cs : List Char) :
    skipMembers fuel enclosing (skipSpace cs) = skipMembers fuel enclosing cs := by
  cases fuel with
  | zero => rw [skipMembers, skipMembers]
  | succ fuel =>
      cases enclosing with
      | object => simp only [skipMembers, skipMemberHead, skipKey, skipSpace_skipSpace]
      | list =>
          cases fuel with
          | zero => simp only [skipMembers, skipMemberHead, skipValueIn]
          | succ fuel =>
              simp only [skipMembers, skipMemberHead, skipValueIn, skipScalar,
                skipSpace_skipSpace]

/-- One member is passed over up to the mark that ends it. -/
def MemberPassed (enclosing : Enclosing) (text : List Char) : Prop :=
  ∀ {fuel : Nat} {rest : List Char}, 2 * text.length ≤ fuel → Delimited rest →
    ∃ value after, skipMemberHead enclosing (text ++ rest) = .ok value ∧
      skipValueIn fuel value = .ok after ∧ skipSpace after = rest

theorem skipMembers_all {α : Type} {enclosing : Enclosing} {text : α → List Char}
    (items : List α) : ∀ (item : α) {fuel : Nat} (rest : List Char),
      (∀ other ∈ item :: items, MemberPassed enclosing (text other)) →
      2 * (text item ++ printMore text items).length < fuel →
        skipMembers fuel enclosing
          (text item ++ (printMore text items ++ enclosing.close :: rest)) = .ok rest := by
  have hClose : enclosing.close = ']' ∨ enclosing.close = '\x7d' := by
    cases enclosing <;> decide
  induction items with
  | nil =>
      intro item fuel rest hPassed hFuel
      cases fuel with
      | zero => cases hFuel
      | succ fuel =>
          have hLength : 2 * (text item).length ≤ fuel := by
            simp [printMore] at hFuel
            omega
          obtain ⟨value, after, hHead, hValue, hAfter⟩ :=
            hPassed item List.mem_cons_self hLength (delimited_printMore text [] hClose rest)
          rw [skipMembers]
          simp only [hHead, hValue, hAfter]
          obtain hMark | hMark := hClose <;> simp [printMore, hMark]
  | cons next items ih =>
      intro item fuel rest hPassed hFuel
      cases fuel with
      | zero => cases hFuel
      | succ fuel =>
          simp only [printMore_cons, List.length_append, List.length_cons] at hFuel ih
          obtain ⟨value, after, hHead, hValue, hAfter⟩ :=
            hPassed item List.mem_cons_self (show 2 * (text item).length ≤ fuel by omega)
              (delimited_printMore text (next :: items) hClose rest)
          have hMore := ih next rest (fun other hMem => hPassed other (.tail _ hMem))
            (show _ < fuel by omega)
          rw [skipMembers]
          simp only [hHead, hValue, hAfter]
          simp only [printMore_cons, List.cons_append, List.append_assoc, hMore]

theorem skipScalar_digit (digit : Fin 10) (rest : List Char) :
    skipScalar (Nat.digitChar digit.val :: rest) =
      (skipNumber (Nat.digitChar digit.val :: rest)).map (none, ·) := by
  unfold skipScalar
  rw [skipSpace_cons (isSpace_digitChar digit)]
  split
  case h_8 => rfl
  all_goals
    next hCons => exact absurd (List.cons.inj hCons).1 (digitChar_ne digit (by decide))

theorem skipScalar_numeral (n : Numeral) {rest : List Char} (hRest : Apart rest) :
    skipScalar (n.text ++ rest) = .ok (none, rest) := by
  have hNumber := skipNumber_body n hRest
  rw [Numeral.text]
  split
  · simp [skipScalar, skipSpace_cons (show isSpace '-' = false by decide), hNumber, Except.map]
  · obtain ⟨digit, more, hBody⟩ := body_begins n
    rw [hBody, List.cons_append] at hNumber ⊢
    rw [skipScalar_digit, hNumber]
    rfl

theorem skipScalar_gap (gap : Gap) (cs : List Char) :
    skipScalar (gap.chars ++ cs) = skipScalar cs := by
  simp only [skipScalar, skipSpace_gap]

/-- A list or an object is passed over if its members are. -/
theorem skipValueIn_enclosed {α : Type} {enclosing : Enclosing} {text : α → List Char}
    {items : List α} {gap : Gap} {fuel : Nat} {cs rest : List Char}
    (hScalar : skipScalar cs = .ok (some enclosing,
      gap.chars ++ (printItems text items ++ enclosing.close :: rest)))
    (hPassed : ∀ item ∈ items, MemberPassed enclosing (text item))
    (hFirst : ∀ item ∈ items, ∀ more, ∃ c after, skipSpace (text item ++ more) = c :: after ∧
      c ≠ enclosing.close)
    (hFuel : 2 * (printItems text items).length < fuel) :
    skipValueIn (fuel + 1) cs = .ok rest := by
  have hSolid : isSpace enclosing.close = false := by cases enclosing <;> decide
  rw [skipValueIn, hScalar]
  simp only [skipSpace_gap]
  cases items with
  | nil => simp [printItems, skipSpace_cons hSolid]
  | cons item items =>
      have hMembers := skipMembers_all items item rest hPassed
        (by rwa [printItems_cons] at hFuel)
      obtain ⟨c, after, hBegins, hOther⟩ := hFirst item List.mem_cons_self
        (printMore text items ++ enclosing.close :: rest)
      rw [printItems_cons, List.append_assoc, hBegins]
      simp only [if_neg hOther]
      rw [← hBegins, skipMembers_skipSpace, hMembers]

theorem skipValueIn_scalar {fuel : Nat} {gap : Gap} {cs rest : List Char}
    (hScalar : skipScalar cs = .ok (none, rest)) (hFuel : 0 < fuel) :
    skipValueIn fuel (gap.chars ++ cs) = .ok rest := by
  cases fuel with
  | zero => cases hFuel
  | succ fuel => simp only [skipValueIn, skipScalar_gap, hScalar]

/-- What is said of the value of a slot holds of the slot. -/
theorem slot_passed {slot : Slot Value} (hValue : ∀ {fuel : Nat} (gap : Gap) {rest : List Char},
    Apart rest → 2 * slot.value.text.length ≤ fuel →
      skipValueIn fuel (gap.chars ++ (slot.value.text ++ rest)) = .ok rest) :
    MemberPassed .list (slotText slot) := by
  intro fuel rest hFuel hRest
  obtain ⟨before, value, after⟩ := slot
  simp only [slotText, List.length_append] at hFuel
  refine ⟨_, after.chars ++ rest, rfl, ?_, by rw [skipSpace_gap, hRest.skipSpace]⟩
  simp only [slotText, List.append_assoc]
  exact hValue before (apart_gap after hRest.apart) (by simp only; omega)

theorem member_passed {member : Member Value}
    (hSlot : MemberPassed .list (slotText member.slot)) :
    MemberPassed .object (memberText member) := by
  intro fuel rest hFuel hRest
  obtain ⟨before, key, gap, slot⟩ := member
  simp only [memberText, List.length_append, List.length_cons] at hFuel
  obtain ⟨value, after, hHead, hValue, hAfter⟩ :=
    hSlot (show 2 * (slotText slot).length ≤ fuel by omega) hRest
  cases hHead
  refine ⟨slotText slot ++ rest, after, ?_, hValue, hAfter⟩
  rw [memberText, skipMemberHead]
  simpa using skipKey_text before key gap (slotText slot ++ rest)

theorem slot_begins (slot : Slot Value) (more : List Char) :
    ∃ c after, skipSpace (slotText slot ++ more) = c :: after ∧ c ≠ ']' := by
  obtain ⟨before, value, after⟩ := slot
  obtain ⟨c, text, hText, hSolid, hClose⟩ := text_begins value
  refine ⟨c, text ++ (after.chars ++ more), ?_, hClose⟩
  rw [slotText, List.append_assoc, skipSpace_gap, hText]
  simp [skipSpace_cons hSolid]

theorem member_begins (member : Member Value) (more : List Char) :
    ∃ after, skipSpace (memberText member ++ more) = '"' :: after := by
  obtain ⟨before, key, gap, slot⟩ := member
  rw [memberText, List.append_assoc, skipSpace_gap, quotedText]
  exact ⟨_, skipSpace_cons (by decide)⟩

/-- Any value is passed over, whatever stands inside it, where it cannot go on. -/
theorem skipValueIn_text (v : Value) : ∀ {fuel : Nat} (gap : Gap) {rest : List Char}, Apart rest →
    2 * v.text.length ≤ fuel → skipValueIn fuel (gap.chars ++ (v.text ++ rest)) = .ok rest := by
  induction v using Value.induct with
  | null =>
      intro fuel gap rest _ hFuel
      exact skipValueIn_scalar rfl (by simp [Value.text] at hFuel; omega)
  | boolean value =>
      intro fuel gap rest _ hFuel
      cases value with
      | true => exact skipValueIn_scalar rfl (by simp [Value.text] at hFuel; omega)
      | false => exact skipValueIn_scalar rfl (by simp [Value.text] at hFuel; omega)
  | numeral n =>
      intro fuel gap rest hRest hFuel
      obtain ⟨c, more, hText, -⟩ := text_begins (.numeral n)
      have hScalar := skipScalar_numeral n hRest
      rw [hText, List.length_cons] at hFuel
      rw [Value.text]
      exact skipValueIn_scalar hScalar (by omega)
  | quoted glyphs =>
      intro fuel gap rest _ hFuel
      have hString := skipString_glyphs glyphs rest
      have hScalar : skipScalar ((Value.quoted glyphs).text ++ rest) = .ok (none, rest) := by
        simp [Value.text, quotedText, skipScalar,
          skipSpace_cons (show isSpace '"' = false by decide), hString, Except.map]
      exact skipValueIn_scalar hScalar (by simp [Value.text, quotedText] at hFuel; omega)
  | list inner slots ih =>
      intro fuel gap rest _ hFuel
      rw [Value.text, slotsText_eq] at hFuel
      simp only [List.length_cons, List.length_append] at hFuel
      obtain ⟨fuel, rfl⟩ : ∃ less, fuel = less + 1 := ⟨fuel - 1, by omega⟩
      have hScalar : skipScalar (gap.chars ++ ((Value.list inner slots).text ++ rest)) =
          .ok (some .list,
            inner.chars ++ (printItems slotText slots ++ Enclosing.list.close :: rest)) := by
        rw [list_append, skipScalar_gap, skipScalar, skipSpace_cons (by decide)]
        rfl
      exact skipValueIn_enclosed hScalar (fun slot hMem => slot_passed (ih slot hMem))
        (fun slot _ more => slot_begins slot more) (by omega)
  | object inner members ih =>
      intro fuel gap rest _ hFuel
      rw [Value.text, membersText_eq] at hFuel
      simp only [List.length_cons, List.length_append] at hFuel
      obtain ⟨fuel, rfl⟩ : ∃ less, fuel = less + 1 := ⟨fuel - 1, by omega⟩
      have hScalar : skipScalar (gap.chars ++ ((Value.object inner members).text ++ rest)) =
          .ok (some .object,
            inner.chars ++ (printItems memberText members ++ Enclosing.object.close :: rest)) := by
        rw [object_append, skipScalar_gap, skipScalar, skipSpace_cons (by decide)]
        rfl
      refine skipValueIn_enclosed hScalar
        (fun member hMem => member_passed (slot_passed (ih member hMem)))
        (fun member _ more => ?_) (by omega)
      obtain ⟨after, hBegins⟩ := member_begins member more
      exact ⟨'"', after, hBegins, by decide⟩

/-- The value under a key that no field has is passed over to its end. -/
theorem skipValue_text (v : Value) (gap : Gap) {rest : List Char} (hRest : Apart rest) :
    skipValue (gap.chars ++ (v.text ++ rest)) = .ok rest :=
  skipValueIn_text v gap hRest (by simp only [List.length_append]; omega)

end RelayRace.Json
