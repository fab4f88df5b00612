import RelayRace.Text.Utf8

/-!
# Line feeds and other characters in UTF-8

Texts with the same bytes are the same (`encode_injective`).

Where bytes are no encoded text, decoding puts replacements, and a sequence that
breaks off takes back nothing of what follows it.  So a byte 10 is a line feed
wherever it stands, and no other bytes ever make up one: the first line of a
decoded text is the decoded first line (`takeWhile_decode`).  While a sequence is
under way, what carries this is that the next byte of it is no byte 10, and that
it will come out beyond the characters of one byte (`Pending.Sound`).
-/

namespace RelayRace.Text.Utf8

theorem encode_injective {text other : String} (hSame : encode text = encode other) :
    text = other := by
  have hBytes : text.toList.utf8Encode = other.toList.utf8Encode :=
    congrArg List.toByteArray hSame
  rw [String.utf8Encode_toList, String.utf8Encode_toList] at hBytes
  exact String.toByteArray_inj.mp hBytes

/-! ## Sequences under way -/

/-- A sequence that has begun goes on with bytes beyond the first 128, and comes
to a number beyond these. -/
structure Pending.Sound (p : Pending) : Prop where
  low : 0x80 ≤ p.low
  high : p.high ≤ 0xbf
  last : p.missing ≤ 1 → 2 ≤ p.value
  next : 2 ≤ p.value * 64 + p.low % 64

/-- Behind the second byte of a sequence any continuation may follow. -/
theorem Pending.sound_of_value {value missing : Nat} (hValue : 1 ≤ value)
    (hLast : missing ≤ 1 → 2 ≤ value) : (⟨value, missing, 0x80, 0xbf⟩ : Pending).Sound where
  low := Nat.le_refl _
  high := Nat.le_refl _
  last := hLast
  next := by
    show 2 ≤ value * 64 + 0x80 % 64
    omega

/-- Nothing is under way, or a sound sequence. -/
def Sound (pending : Option Pending) : Prop := ∀ p, pending = some p → p.Sound

theorem sound_none : Sound none := by
  rintro p ⟨⟩

theorem ofNat_ne_newline {value : Nat} (hValue : value ≠ 10) : Char.ofNat value ≠ '\n' := by
  intro hFeed
  unfold Char.ofNat at hFeed
  by_cases hValid : value.isValidChar
  · rw [dif_pos hValid] at hFeed
    exact hValue (congrArg Char.toNat hFeed)
  · rw [dif_neg hValid] at hFeed
    cases hFeed

/-- Characters without a line feed among them, and nothing unsound under way. -/
def Harmless (done : List Char × Option Pending) : Prop := '\n' ∉ done.1 ∧ Sound done.2

/-- A first byte is no line feed in disguise, and begins nothing unsound. -/
theorem start_sound {byte : Nat} (hByte : byte ≠ 10) : Harmless (start byte) := by
  have hChar : Harmless ([Char.ofNat byte], none) :=
    ⟨by simpa using (ofNat_ne_newline hByte).symm, sound_none⟩
  have hReplaced : Harmless ([replacement], none) := ⟨by decide, sound_none⟩
  have hBegun : ∀ p : Pending, p.Sound → Harmless ([], some p) :=
    fun p hSound => ⟨List.not_mem_nil, fun q hSome => Option.some.inj hSome ▸ hSound⟩
  -- Each lead byte has its own range for the byte behind it.
  unfold start
  refine iteInduction (fun _ => hChar) fun _ => ?_
  refine iteInduction (fun _ => hReplaced) fun _ => ?_
  refine iteInduction (fun _ => hBegun _ (Pending.sound_of_value (by omega) (by omega))) fun _ => ?_
  refine iteInduction (fun _ => hBegun _ ⟨by decide, by decide, by decide, by decide⟩) fun _ => ?_
  refine iteInduction (fun _ => hBegun _ ⟨by decide, by decide, by decide, by decide⟩) fun _ => ?_
  refine iteInduction (fun _ => hBegun _ (Pending.sound_of_value (by omega) (by omega))) fun _ => ?_
  refine iteInduction (fun _ => hBegun _ ⟨by decide, by decide, by decide, by decide⟩) fun _ => ?_
  refine iteInduction (fun _ => hBegun _ (Pending.sound_of_value (by omega) (by omega))) fun _ => ?_
  refine iteInduction (fun _ => hBegun _ ⟨by decide, by decide, by decide, by decide⟩) fun _ => ?_
  exact hReplaced

/-- Any further byte but 10 keeps what is under way sound, and makes no line feed. -/
theorem step_sound {pending : Option Pending} (hSound : Sound pending) {byte : Nat}
    (hByte : byte ≠ 10) : Harmless (step pending byte) := by
  cases pending with
  | none => exact start_sound hByte
  | some p =>
      obtain ⟨hLow, hHigh, hLast, hNext⟩ := hSound p rfl
      simp only [step]
      split
      · next hRange =>
        -- The byte is within the last 64 of the second 128, so its value grows with it.
        have hGrown : 2 ≤ p.value * 64 + byte % 64 := by omega
        split
        · next hDone =>
          have hLarge := hLast hDone
          refine ⟨?_, sound_none⟩
          have hChar := ofNat_ne_newline (show p.value * 64 + byte % 64 ≠ 10 by omega)
          simpa using hChar.symm
        · refine ⟨List.not_mem_nil, fun q hSome => ?_⟩
          rw [← Option.some.inj hSome]
          exact Pending.sound_of_value (by omega) fun _ => hGrown
      · obtain ⟨hNone, hStill⟩ := start_sound hByte
        exact ⟨by simp [hNone, show '\n' ≠ replacement by decide], hStill⟩

theorem newline_not_mem_decodeFrom_nil (pending : Option Pending) :
    '\n' ∉ decodeFrom pending [] := by
  cases pending with
  | none => exact List.not_mem_nil
  | some p => exact (by decide : '\n' ∉ [replacement])

/-- A byte 10 breaks off what is under way, as the end of all bytes does, and is a
line feed. -/
theorem step_newline {pending : Option Pending} (hSound : Sound pending) :
    step pending 10 = (decodeFrom pending [] ++ ['\n'], none) := by
  cases pending with
  | none => rfl
  | some p =>
      have hLow := (hSound p rfl).low
      rw [step, if_neg (by omega)]
      rfl

/-! ## The first line -/

theorem all_ne_newline {cs : List Char} (hNone : '\n' ∉ cs) : ∀ c ∈ cs, (c != '\n') = true := by
  intro c hMem
  rw [bne_iff_ne]
  rintro rfl
  exact hNone hMem

theorem takeWhile_decodeFrom (bytes : List UInt8) :
    ∀ {pending : Option Pending}, Sound pending →
      (decodeFrom pending bytes).takeWhile (· != '\n') =
        decodeFrom pending (bytes.takeWhile (· != 10)) := by
  induction bytes with
  | nil =>
      intro pending _
      have hAll := all_ne_newline (newline_not_mem_decodeFrom_nil pending)
      have hWhole : (decodeFrom pending [] ++ []).takeWhile (· != '\n') =
          decodeFrom pending [] ++ [] :=
        List.takeWhile_append_of_pos hAll
      rwa [List.append_nil] at hWhole
  | cons byte rest ih =>
      intro pending hSound
      rw [decodeFrom]
      by_cases hFeed : byte = 10
      · subst hFeed
        have hAll := all_ne_newline (newline_not_mem_decodeFrom_nil pending)
        rw [show (10 : UInt8).toNat = 10 from rfl, step_newline hSound, List.append_assoc,
          List.takeWhile_append_of_pos hAll]
        exact List.append_nil _
      · have hNat : byte.toNat ≠ 10 := fun hNat => hFeed (UInt8.toNat_inj.mp hNat)
        obtain ⟨hNone, hStill⟩ := step_sound hSound hNat
        have hKept : (byte :: rest).takeWhile (· != 10) = byte :: rest.takeWhile (· != 10) :=
          List.takeWhile_cons_of_pos (bne_iff_ne.mpr hFeed)
        rw [List.takeWhile_append_of_pos (all_ne_newline hNone), ih hStill, hKept, decodeFrom]

/-- The first line of decoded bytes is the decoded first line. -/
theorem takeWhile_decode (bytes : List UInt8) :
    (decode bytes).takeWhile (· != '\n') = decode (bytes.takeWhile (· != 10)) :=
  takeWhile_decodeFrom bytes sound_none

end RelayRace.Text.Utf8
