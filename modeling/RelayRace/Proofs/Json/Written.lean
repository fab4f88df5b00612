import RelayRace.Proofs.Json.Revision

/-!
# A written list is the text of a list of values

What the printers write is the text of a value that says what was written
(`Spells`), and a written entry is an object that writes the entry.  So all that
is said of such objects holds of the lists that are written here.
-/

namespace RelayRace.Json

open Text

/-! ## Texts -/

/-- A control character is spelled by its code unit. -/
def controlUnit (c : Char) : CodeUnit where
  first := { value := 0 }
  second := { value := 0 }
  third := { value := Fin.ofNat 16 (c.toNat / 16) }
  fourth := { value := Fin.ofNat 16 c.toNat }

/-- Whatever glyphs follow, the glyph says the character. -/
def Glyph.Says (glyph : Glyph) (c : Char) : Prop :=
  ∀ rest, decode (glyph :: rest) = (decode rest).map (c :: ·)

theorem controlUnit_value {c : Char} (hControl : c.toNat < 0x20) :
    (controlUnit c).value = c.toNat := by
  simp only [CodeUnit.value, controlUnit, Fin.val_ofNat, Fin.val_zero]
  omega

theorem controlUnit_text {c : Char} (hControl : c.toNat < 0x20) :
    (Glyph.unit (controlUnit c)).text = unitEscape c := by
  have hZero : c.toNat / 16 / 16 = 0 := by omega
  simp [Glyph.text, CodeUnit.text, controlUnit, unitEscape, hexPadded, HexDigit.char, hZero]

theorem says_control {c : Char} (hControl : c.toNat < 0x20) :
    (Glyph.unit (controlUnit c)).Says c := by
  intro rest
  have hHigh : ¬ (controlUnit c).isHigh = true := by
    simp only [CodeUnit.isHigh, controlUnit_value hControl, Bool.and_eq_true, decide_eq_true_eq]
    omega
  have hLow : ¬ (controlUnit c).isLow = true := by
    simp only [CodeUnit.isLow, controlUnit_value hControl, Bool.and_eq_true, decide_eq_true_eq]
    omega
  rw [decode_single hHigh, if_neg hLow, controlUnit_value hControl, Char.ofNat_toNat]

theorem exists_glyph (c : Char) : ∃ glyph : Glyph, glyph.text = printChar c ∧ glyph.Says c := by
  have hShort : ∀ escape : Escape, escape.char = c → (Glyph.short escape).Says c := by
    rintro escape rfl rest
    rfl
  unfold printChar
  split
  · next hChar => exact ⟨.short .quote, rfl, hShort .quote hChar.symm⟩
  split
  · next hChar => exact ⟨.short .backslash, rfl, hShort .backslash hChar.symm⟩
  split
  · next hChar => exact ⟨.short .backspace, rfl, hShort .backspace hChar.symm⟩
  split
  · next hChar => exact ⟨.short .formFeed, rfl, hShort .formFeed hChar.symm⟩
  split
  · next hChar => exact ⟨.short .lineFeed, rfl, hShort .lineFeed hChar.symm⟩
  split
  · next hChar => exact ⟨.short .carriageReturn, rfl, hShort .carriageReturn hChar.symm⟩
  split
  · next hChar => exact ⟨.short .tab, rfl, hShort .tab hChar.symm⟩
  split
  · next hControl => exact ⟨.unit (controlUnit c), controlUnit_text hControl, says_control hControl⟩
  · next hQuote hBackslash _ _ _ _ _ hControl =>
      exact ⟨.plain c ⟨Nat.le_of_not_lt hControl, hQuote, hBackslash⟩, rfl, fun rest => rfl⟩

theorem exists_glyphs (cs : List Char) :
    ∃ glyphs, glyphs.flatMap Glyph.text = cs.flatMap printChar ∧ decode glyphs = some cs := by
  induction cs with
  | nil => exact ⟨[], rfl, rfl⟩
  | cons c cs ih =>
      obtain ⟨glyphs, hText, hSaid⟩ := ih
      obtain ⟨glyph, hGlyph, hSays⟩ := exists_glyph c
      refine ⟨glyph :: glyphs, ?_, ?_⟩
      · rw [List.flatMap_cons, List.flatMap_cons, hGlyph, hText]
      · rw [hSays, hSaid, Option.map_some]

theorem exists_quoted (text : String) :
    ∃ glyphs, quotedText glyphs = printText text ∧ spelled glyphs = some text := by
  obtain ⟨glyphs, hText, hSaid⟩ := exists_glyphs text.toList
  refine ⟨glyphs, ?_, ?_⟩
  · rw [quotedText, hText, printText]
  · rw [spelled, hSaid, Option.map_some, String.ofList_toList]

/-! ## Values -/

/-- Whatever is printed is the text of a value that says it. -/
def Spells {α : Type} (print : α → List Char) (said : Value → Option α) : Prop :=
  ∀ value, ∃ v : Value, v.text = print value ∧ said v = some value

theorem spells_text : Spells printText Value.text? := by
  intro text
  obtain ⟨glyphs, hText, hSaid⟩ := exists_quoted text
  exact ⟨.quoted glyphs, by rw [Value.text, hText], hSaid⟩

/-- The digits of a number begin with a zero only if they are a single zero. -/
theorem exists_digits (number : Nat) : ∃ digits : Digits,
    Nat.toDigits 10 number = digitText digits.toList ∧
      digitValue 0 digits.toList = number ∧ (digits.first = 0 → digits.rest = []) := by
  induction number using Nat.strongRecOn with
  | ind number ih =>
      by_cases hSmall : number < 10
      · refine ⟨{ first := ⟨number, hSmall⟩ }, ?_, ?_, fun _ => rfl⟩
        · rw [Nat.toDigits_of_lt_base hSmall]
          rfl
        · simp [digitValue, Digits.toList]
      · obtain ⟨digits, hText, hValue, hAlone⟩ := ih (number / 10) (by omega)
        let last : Fin 10 := ⟨number % 10, Nat.mod_lt _ (by decide)⟩
        refine ⟨⟨digits.first, digits.rest ++ [last]⟩, ?_, ?_, ?_⟩
        · rw [Nat.toDigits_of_base_le (by decide) (by omega), hText]
          simp [digitText, Digits.toList, last]
        · have hAppend : (Digits.mk digits.first (digits.rest ++ [last])).toList =
              digits.toList ++ [last] := rfl
          rw [hAppend, digitValue, List.foldl_append]
          simp only [digitValue] at hValue
          simp only [hValue, List.foldl_cons, List.foldl_nil, last]
          omega
        · -- A zero in front of further digits would make the number less than ten.
          intro hZero
          have hFirst : digits.first = 0 := hZero
          simp [digitValue, Digits.toList, hFirst, hAlone hFirst] at hValue
          omega

theorem spells_port : Spells printPort Value.port? := by
  intro port
  obtain ⟨digits, hText, hValue, hAlone⟩ := exists_digits port.toNat
  refine ⟨.numeral { whole := digits, alone := hAlone }, ?_, ?_⟩
  · simp [Value.text, Numeral.text, Numeral.body, Numeral.tail, fractionText, exponentText,
      printPort, hText]
  · have hSmall : port.toNat < 65536 := port.toNat_lt
    simp [Value.port?, Numeral.natural?, hValue, hSmall]

theorem spells_name {α : Type} {all : List α} {name : α → String}
    (hFind : ∀ value, (all.find? fun other => name other == name value) = some value) :
    Spells (fun value => printText (name value)) (Value.name? all name) := by
  intro value
  obtain ⟨glyphs, hText, hSaid⟩ := exists_quoted (name value)
  refine ⟨.quoted glyphs, by rw [Value.text, hText], ?_⟩
  rw [Value.name?, namedBy, hSaid, Option.bind_some, hFind]

theorem Spells.optional {α : Type} {print : α → List Char} {said : Value → Option α}
    (hSpells : Spells print said) (hNull : said .null = none) :
    Spells (printOptional print) (Value.optional? said) := by
  intro value
  cases value with
  | none => exact ⟨.null, by rw [Value.text]; rfl, rfl⟩
  | some value =>
      obtain ⟨v, hText, hSaid⟩ := hSpells value
      have hOther : v.isNull = false := by
        cases hIsNull : v.isNull with
        | false => rfl
        | true =>
            rw [eq_null hIsNull, hNull] at hSaid
            cases hSaid
      exact ⟨v, hText, by rw [Value.optional?, hOther, hSaid]; rfl⟩

theorem Spells.slots {α : Type} {print : α → List Char} {said : Value → Option α}
    (hSpells : Spells print said) (items : List α) :
    ∃ slots, slots.map slotText = items.map print ∧ saidBy said slots = some items := by
  induction items with
  | nil => exact ⟨[], rfl, rfl⟩
  | cons item items ih =>
      obtain ⟨slots, hText, hSaid⟩ := ih
      obtain ⟨v, hItem, hValue⟩ := hSpells item
      refine ⟨{ value := v } :: slots, ?_, ?_⟩
      · simp [slotText, hItem, hText]
      · rw [saidBy_cons, hValue, hSaid]
        rfl

theorem Spells.list {α : Type} {print : α → List Char} {said : Value → Option α}
    (hSpells : Spells print said) : Spells (printList print) (Value.list? said) := by
  intro items
  obtain ⟨slots, hText, hSaid⟩ := hSpells.slots items
  refine ⟨.list {} slots, ?_, hSaid⟩
  rw [Value.text, slotsText_eq, printItems_map, hText, ← printItems_map, printList]
  rfl

/-! ## Entries -/

theorem Spells.told {α : Type} {print : α → List Char} {said : Value → Option α}
    (hSpells : Spells print said) (value : α) (told : α → Candidate) :
    ∃ v : Value, v.text = print value ∧ (said v).map told = some (told value) := by
  obtain ⟨v, hText, hSaid⟩ := hSpells value
  exact ⟨v, hText, by rw [hSaid, Option.map_some]⟩

/-- The printed value of a field tells the field. -/
theorem exists_told (entry : Candidate) (field : Field) :
    ∃ v : Value, v.text = field.print entry ∧ field.told? v = some (field.copy entry {}) := by
  cases field <;> simp only [Field.print, Field.told?, Field.copy]
  case ipAddress | region | sshObfuscatedKey | meekObfuscatedKey | meekCookieKey =>
      exact spells_text.told _ _
  case sshPort | sshObfuscatedPort | meekServerPort =>
      exact (spells_port.optional rfl).told _ _
  case meekFrontingDomain | meekFrontingHost | front =>
      exact (spells_text.optional rfl).told _ _
  case capabilities => exact (spells_name Capability.ofName?_name).list.told _ _
  case connType => exact ((spells_name Protocol.ofName?_name).optional rfl).told _ _

theorem exists_members (entry : Candidate) (fields : List Field) :
    ∃ members, members.map memberText = fields.map (printMember entry) ∧
      fieldsOf members = fields ∧
      ∀ member ∈ members, ∃ field, member.field? = some field ∧
        field.told? member.slot.value = some (field.copy entry {}) := by
  induction fields with
  | nil => exact ⟨[], rfl, rfl, fun member hMem => absurd hMem List.not_mem_nil⟩
  | cons field fields ih =>
      obtain ⟨members, hText, hFields, hSaid⟩ := ih
      obtain ⟨key, hKey, hSpelled⟩ := exists_quoted field.key
      obtain ⟨v, hValue, hTold⟩ := exists_told entry field
      let member : Member Value := { key := key, slot := { value := v } }
      have hField : member.field? = some field := by
        simp [member, Member.field?, hSpelled, ofKey?_key]
      refine ⟨member :: members, ?_, ?_, ?_⟩
      · simp [member, memberText, slotText, printMember, hKey, hValue, hText]
      · rw [fieldsOf_cons, hField, hFields, Option.toList_some, List.singleton_append]
      · rw [List.forall_mem_cons]
        exact ⟨⟨field, hField, hTold⟩, hSaid⟩

/-- A written entry is an object that writes the entry. -/
theorem exists_object (entry : Candidate) :
    ∃ members, (Value.object {} members).text = printEntry entry ∧ Writes members entry := by
  obtain ⟨members, hText, hFields, hSaid⟩ := exists_members entry Field.all
  refine ⟨members, ?_, fun member hMem => .inr (hSaid member hMem), ?_, ?_⟩
  · rw [Value.text, membersText_eq, printItems_map, hText, ← printItems_map, printEntry]
    rfl
  · rw [hFields]
    decide
  · intro field hOut
    rw [hFields] at hOut
    cases field <;> exact absurd (by decide) hOut

end RelayRace.Json
