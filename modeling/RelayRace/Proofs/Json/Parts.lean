import Mathlib.Algebra.Group.Nat.Defs
import RelayRace.Json.Print

/-!
# Texts and ports are read back

A reader takes the text from where a part begins, so that it undoes a printer is
said with an arbitrary text behind the part.  A quoted text needs nothing of
what follows it.  The digits of a port end where no further digit, point or
exponent follows; in a written list a comma or a closing mark does.
-/

namespace RelayRace.Json

open Text

/-! ## Texts -/

/-- A digit of a code unit of which more are missing. -/
theorem readString_digit (high : Option Nat) (reversed rest : List Char) {missing digit : Nat}
    (hMissing : 0 < missing) (hDigit : digit < 16) (value : Nat) :
    readString (.unit high (missing + 1) value) reversed (hexDigit digit :: rest) =
      readString (.unit high missing (value * 16 + digit)) reversed rest := by
  have hMore : ¬ missing + 1 ≤ 1 := by omega
  rw [readString]
  simp [stringStep, hexValue?_hexDigit digit hDigit, hMore]

/-- The digits of a part of a code unit, after which digits are still missing. -/
theorem readString_hexPadded (high : Option Nat) (reversed : List Char) (value : Nat) :
    ∀ (width : Nat) {missing : Nat} (number : Nat) (rest : List Char), 0 < missing →
      readString (.unit high (missing + width) value) reversed (hexPadded width number ++ rest) =
        readString (.unit high missing (value * 16 ^ width + number % 16 ^ width)) reversed rest
  | 0, _, _, _, _ => by simp [hexPadded, Nat.mod_one]
  | width + 1, missing, number, rest, hMissing => by
      have hValue : (value * 16 ^ width + number / 16 % 16 ^ width) * 16 + number % 16 =
          value * 16 ^ (width + 1) + number % 16 ^ (width + 1) := by
        rw [Nat.pow_succ', Nat.mod_mul, Nat.add_mul, Nat.mul_assoc, Nat.mul_comm (16 ^ width) 16]
        omega
      calc readString (.unit high (missing + (width + 1)) value) reversed
            (hexPadded (width + 1) number ++ rest)
          = readString (.unit high (missing + 1 + width) value) reversed
              (hexPadded width (number / 16) ++ hexDigit (number % 16) :: rest) := by
            rw [hexPadded, List.append_assoc, Nat.add_right_comm]
            rfl
        _ = readString (.unit high (missing + 1)
              (value * 16 ^ width + number / 16 % 16 ^ width)) reversed
              (hexDigit (number % 16) :: rest) :=
            readString_hexPadded high reversed value width _ _ (by omega)
        _ = _ := by
            rw [readString_digit high reversed rest hMissing (Nat.mod_lt _ (by decide)), hValue]

/-- A control character that is written by its code unit is read back. -/
theorem readString_unitEscape (reversed rest : List Char) {c : Char} (hControl : c.toNat < 0x20) :
    readString .plain reversed (unitEscape c ++ rest) =
      readString .plain (c :: reversed) rest := by
  have hLast := hexValue?_hexDigit (c.toNat % 16) (Nat.mod_lt _ (by decide))
  have hNumber : c.toNat / 16 % 16 ^ 3 * 16 + c.toNat % 16 = c.toNat := by omega
  calc readString .plain reversed (unitEscape c ++ rest)
      = readString (.unit none (1 + 3) 0) reversed
          (hexPadded 3 (c.toNat / 16) ++ hexDigit (c.toNat % 16) :: rest) := by
        simp [unitEscape, hexPadded, readString, stringStep]
    _ = readString (.unit none 1 (c.toNat / 16 % 16 ^ 3)) reversed
          (hexDigit (c.toNat % 16) :: rest) := by
        rw [readString_hexPadded none reversed 0 3 _ _ (by decide), Nat.zero_mul, Nat.zero_add]
    _ = readString .plain (c :: reversed) rest := by
        have hClosed : closeUnit none c.toNat = .ok (some c, .plain) := by
          unfold closeUnit
          rw [if_neg (by omega), if_neg (by omega), Char.ofNat_toNat]
        have hUnit : stringStep (.unit none 1 (c.toNat / 16 % 16 ^ 3)) (hexDigit (c.toNat % 16)) =
            .ok (some c, .plain) := by
          simp only [stringStep, hLast, hNumber, Nat.le_refl, if_true, hClosed]
        rw [readString, if_neg (by simp), hUnit]

/-- A character that is written by a letter is read back. -/
theorem readString_shortEscape (reversed rest : List Char) {letter c : Char}
    (hUnit : letter ≠ 'u') (hEscape : shortEscape? letter = some c) :
    readString .plain reversed ('\\' :: letter :: rest) =
      readString .plain (c :: reversed) rest := by
  simp [readString, stringStep, hUnit, hEscape]

/-- Every written character is read back. -/
theorem readString_printChar (c : Char) (reversed rest : List Char) :
    readString .plain reversed (printChar c ++ rest) =
      readString .plain (c :: reversed) rest := by
  have hShort : ∀ letter, letter ≠ 'u' → shortEscape? letter = some c →
      readString .plain reversed (['\\', letter] ++ rest) =
        readString .plain (c :: reversed) rest :=
    fun _ => readString_shortEscape reversed rest
  unfold printChar
  split
  · next hChar => exact hShort '"' (by decide) (by rw [hChar]; rfl)
  split
  · next hChar => exact hShort '\\' (by decide) (by rw [hChar]; rfl)
  split
  · next hChar => exact hShort 'b' (by decide) (by rw [hChar]; rfl)
  split
  · next hChar => exact hShort 'f' (by decide) (by rw [hChar]; rfl)
  split
  · next hChar => exact hShort 'n' (by decide) (by rw [hChar]; rfl)
  split
  · next hChar => exact hShort 'r' (by decide) (by rw [hChar]; rfl)
  split
  · next hChar => exact hShort 't' (by decide) (by rw [hChar]; rfl)
  split
  · next hControl => exact readString_unitEscape reversed rest hControl
  · next hQuote hBackslash _ _ _ _ _ hControl =>
      simp [readString, stringStep, hQuote, hBackslash, hControl]

/-- A written text is read back up to its closing quote. -/
theorem readString_printText (cs reversed rest : List Char) :
    readString .plain reversed (cs.flatMap printChar ++ '"' :: rest) =
      .ok (String.ofList (reversed.reverse ++ cs), rest) := by
  induction cs generalizing reversed with
  | nil => simp [readString]
  | cons c cs ih =>
      rw [List.flatMap_cons, List.append_assoc, readString_printChar, ih]
      simp

/-- A quoted text is read back, whatever follows it. -/
theorem readQuoted_printText (text : String) (rest : List Char) :
    ∃ quoted, printText text ++ rest = '"' :: quoted ∧ readQuoted quoted = .ok (text, rest) := by
  refine ⟨text.toList.flatMap printChar ++ '"' :: rest, ?_, ?_⟩
  · simp [printText]
  · rw [readQuoted, readString_printText]
    simp

/-! ## Ports -/

/-- What may follow a value in a list or an object. -/
def Delimited (rest : List Char) : Prop :=
  ∃ (mark : Char) (more : List Char), rest = mark :: more ∧
    (mark = ',' ∨ mark = ']' ∨ mark = '\x7d')

theorem decimalValue?_digitChar :
    ∀ digit, digit < 10 → decimalValue? (Nat.digitChar digit) = some digit := by
  decide

/-- The digits of a number within 64 bits are gathered to that number. -/
theorem gather_toDigits (number : Nat) (hBound : number < UInt64.size) (rest : List Char) :
    ∃ count, gather 0 0 (Nat.toDigits 10 number ++ rest) = gather number count rest := by
  induction number using Nat.strongRecOn generalizing rest with
  | ind number ih =>
      by_cases hSmall : number < 10
      · refine ⟨1, ?_⟩
        rw [Nat.toDigits_of_lt_base hSmall, List.singleton_append, gather,
          decimalValue?_digitChar number hSmall]
        simp [hBound]
      · have hLast := decimalValue?_digitChar (number % 10) (Nat.mod_lt _ (by decide))
        have hNumber : number / 10 * 10 + number % 10 = number := by omega
        obtain ⟨count, hGather⟩ := ih (number / 10) (by omega) (by omega)
          (Nat.digitChar (number % 10) :: rest)
        refine ⟨count + 1, ?_⟩
        rw [Nat.toDigits_of_base_le (by decide) (by omega), List.append_assoc,
          List.singleton_append, hGather, gather, hLast]
        simp [hNumber, hBound]

/-- The digits of a positive number begin with a digit that is not zero. -/
theorem toDigits_pos (number : Nat) (hPos : 0 < number) :
    ∃ c more, Nat.toDigits 10 number = c :: more ∧ isDigit c = true ∧ c ≠ '0' := by
  induction number using Nat.strongRecOn with
  | ind number ih =>
      by_cases hSmall : number < 10
      · have hDigits : ∀ digit, digit < 10 → 0 < digit →
            isDigit (Nat.digitChar digit) = true ∧ Nat.digitChar digit ≠ '0' := by decide
        exact ⟨_, [], Nat.toDigits_of_lt_base hSmall, hDigits number hSmall hPos⟩
      · obtain ⟨c, more, hDigits, hFirst⟩ := ih (number / 10) (by omega) (by omega)
        refine ⟨c, more ++ [Nat.digitChar (number % 10)], ?_, hFirst⟩
        rw [Nat.toDigits_of_base_le (by decide) (by omega), hDigits, List.cons_append]

/-- Where a value may end, no number goes on. -/
theorem readAfterInteger_delimited (number : Nat) {rest : List Char} (hRest : Delimited rest) :
    readAfterInteger false number rest = .ok (.natural number, rest) := by
  obtain ⟨mark, more, rfl, rfl | rfl | rfl⟩ := hRest <;> rfl

theorem gather_delimited (number count : Nat) {rest : List Char} (hRest : Delimited rest) :
    gather number count rest = (number, count, rest) := by
  obtain ⟨mark, more, rfl, rfl | rfl | rfl⟩ := hRest <;> rfl

theorem takeWhile_delimited {rest : List Char} (hRest : Delimited rest) :
    rest.takeWhile isDigit = [] := by
  obtain ⟨mark, more, rfl, rfl | rfl | rfl⟩ := hRest <;> rfl

/-- A written number within 64 bits is read back where a value may end. -/
theorem readNumber_toDigits (number : Nat) (hBound : number < UInt64.size) {rest : List Char}
    (hRest : Delimited rest) :
    readNumber false (Nat.toDigits 10 number ++ rest) = .ok (.natural number, rest) := by
  have hAfter := readAfterInteger_delimited number hRest
  by_cases hZero : number = 0
  · subst hZero
    have hDigits : Nat.toDigits 10 0 = ['0'] := rfl
    rw [hDigits, List.singleton_append, readNumber, if_pos rfl, takeWhile_delimited hRest]
    exact hAfter
  · obtain ⟨c, more, hDigits, hDigit, hFirst⟩ := toDigits_pos number (by omega)
    obtain ⟨count, hGather⟩ := gather_toDigits number hBound rest
    rw [hDigits, List.cons_append] at hGather ⊢
    rw [readNumber, if_neg hFirst, if_pos hDigit, hGather, gather_delimited number count hRest]
    exact hAfter

/-- No digit is a blank or a sign. -/
theorem not_isDigit_of_isSpace {c : Char} (hMark : isSpace c = true ∨ c = '-') :
    isDigit c = false := by
  have hCases : c = ' ' ∨ c = '\n' ∨ c = '\t' ∨ c = '\r' ∨ c = '-' := by
    simpa [isSpace, or_assoc] using hMark
  obtain rfl | rfl | rfl | rfl | rfl := hCases <;> rfl

theorem toDigits_begins (number : Nat) :
    ∃ c more, Nat.toDigits 10 number = c :: more ∧ isDigit c = true := by
  by_cases hZero : number = 0
  · subst hZero
    exact ⟨'0', [], rfl, rfl⟩
  · obtain ⟨c, more, hDigits, hDigit, -⟩ := toDigits_pos number (by omega)
    exact ⟨c, more, hDigits, hDigit⟩

@[simp] theorem skipSpace_cons {c : Char} {more : List Char} (hSolid : isSpace c = false) :
    skipSpace (c :: more) = c :: more := by
  simp [skipSpace, hSolid]

/-- A written port is read back where a value may end. -/
theorem readPort_printPort (port : UInt16) {rest : List Char} (hRest : Delimited rest) :
    readPort (printPort port ++ rest) = .ok (port, rest) := by
  obtain ⟨c, more, hDigits, hDigit⟩ := toDigits_begins port.toNat
  have hMark : ¬ (isSpace c = true ∨ c = '-') := fun hMark => by
    cases (not_isDigit_of_isSpace hMark).symm.trans hDigit
  have hSolid : isSpace c = false := by simpa using fun hSpace => hMark (.inl hSpace)
  have hSmall := port.toNat_lt
  have hNumber := readNumber_toDigits port.toNat (by simp only [UInt64.size]; omega) hRest
  rw [printPort]
  rw [hDigits, List.cons_append] at hNumber ⊢
  rw [readPort, skipSpace_cons hSolid]
  split
  · next hSign =>
      cases hSign
      exact absurd (.inr rfl) hMark
  · next hCons =>
      cases hCons
      simp [hDigit, hNumber, portOf, hSmall, Except.map]
  · next hNil => cases hNil

end RelayRace.Json
