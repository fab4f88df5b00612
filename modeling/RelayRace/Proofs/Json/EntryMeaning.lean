import RelayRace.Proofs.Json.Meaning

/-!
# What the values of a list say of its entries

The value of a field says what an entry holds in that field and leaves all its other
fields empty (`Field.told?`).  Entries are put together from such parts by
`Field.copy`.  Of an object all members are taken in order (`takeMember`): a member
that no field has says nothing, and a field that an earlier member had says that
the object is no entry.

The readers of entries hear just that, so whether a list is read, and what comes
of it, depends on the values in it and not on how they are spelled.
-/

namespace RelayRace.Json

open Text

/-! ## Fields -/

/-- The entry of which the value of a field is told, all other fields being empty. -/
def Field.told? (v : Value) : Field → Option Candidate
  | .ipAddress => v.text?.map fun text => { ipAddress := text }
  | .region => v.text?.map fun text => { region := text }
  | .capabilities =>
      (v.list? (Value.name? Capability.all Capability.name)).map fun all => { capabilities := all }
  | .sshPort => (v.optional? Value.port?).map fun port => { sshPort := port }
  | .sshObfuscatedPort => (v.optional? Value.port?).map fun port => { sshObfuscatedPort := port }
  | .sshObfuscatedKey => v.text?.map fun text => { sshObfuscatedKey := text }
  | .meekServerPort => (v.optional? Value.port?).map fun port => { meekServerPort := port }
  | .meekObfuscatedKey => v.text?.map fun text => { meekObfuscatedKey := text }
  | .meekCookieKey => v.text?.map fun text => { meekCookieKey := text }
  | .meekFrontingDomain =>
      (v.optional? Value.text?).map fun text => { meekFrontingDomain := text }
  | .meekFrontingHost => (v.optional? Value.text?).map fun text => { meekFrontingHost := text }
  | .connType =>
      (v.optional? (Value.name? Protocol.all Protocol.name)).map fun type => { connType := type }
  | .front => (v.optional? Value.text?).map fun text => { front := text }

/-- What becomes of an entry when the value of a field is copied onto it. -/
def Field.put? (onto : Candidate) (field : Field) (v : Value) : Option Candidate :=
  (field.told? v).map fun told => field.copy told onto

theorem reads_field (field : Field) (onto : Candidate) :
    Reads (field.readInto onto) (field.put? onto) := by
  intro v gap rest hRest
  have hText := reads_text v gap hRest
  have hPort := reads_port.optional v gap hRest
  have hTexts := reads_text.optional v gap hRest
  have hNames := (reads_name Capability.all Capability.name).list v gap hRest
  have hType := (reads_name Protocol.all Protocol.name).optional v gap hRest
  cases field <;> simp only [Field.readInto, Field.put?, Field.told?, Field.copy, Option.map_map]
  case ipAddress | region | sshObfuscatedKey | meekObfuscatedKey | meekCookieKey =>
      exact hText.map _
  case sshPort | sshObfuscatedPort | meekServerPort => exact hPort.map _
  case meekFrontingDomain | meekFrontingHost | front => exact hTexts.map _
  case capabilities => exact hNames.map _
  case connType => exact hType.map _

/-! ## Objects -/

/-- Takes a member into an entry of which some fields are set. -/
def takeMember (taken : List Field × Candidate) (member : Member Value) :
    Option (List Field × Candidate) :=
  (spelled member.key).bind fun key =>
    match Field.ofKey? key with
    | none => some taken
    | some field =>
        if field ∈ taken.1 then none
        else (field.put? taken.2 member.slot.value).map (field :: taken.1, ·)

/-- Takes all members, one after the other. -/
def takeMembers (taken : List Field × Candidate) (members : List (Member Value)) :
    Option (List Field × Candidate) :=
  members.foldlM takeMember taken

/-- The value behind a key that no field has is passed over. -/
theorem skipValue_slot (slot : Slot Value) {rest : List Char} (hRest : Delimited rest) :
    skipValue (slotText slot ++ rest) = .ok (slot.after.chars ++ rest) := by
  obtain ⟨before, v, after⟩ := slot
  rw [slotText, List.append_assoc, List.append_assoc]
  exact skipValue_text v before (apart_gap after hRest.apart)

theorem hears_member (taken : List Field × Candidate) (member : Member Value) {rest : List Char}
    (hRest : Delimited rest) :
    Hears (readMember taken.1 taken.2 (member.key.flatMap Glyph.text ++
        '"' :: (member.gap.chars ++ ':' :: (slotText member.slot ++ rest))))
      (member.slot.after.chars ++ rest) (takeMember taken member) := by
  have hColon := passMark_gap member.gap (show isSpace ':' = false by decide)
    (slotText member.slot ++ rest)
  rw [readMember, takeMember]
  obtain ⟨key, hSpelled, hRead⟩ | ⟨hSpelled, fault, hRead⟩ := (hears_quoted member.key
    (member.gap.chars ++ ':' :: (slotText member.slot ++ rest))).cases
  · simp only [hRead, hSpelled, Option.bind_some]
    cases Field.ofKey? key with
    | none =>
        simp only [hColon, skipValue_slot member.slot hRest]
        rfl
    | some field =>
        by_cases hSeen : field ∈ taken.1
        · have hContains : taken.1.contains field = true := by simpa using hSeen
          simp only [hContains, hSeen, if_true]
          exact ⟨_, rfl⟩
        · have hContains : taken.1.contains field = false := by simpa using hSeen
          have hInto := ((reads_field field taken.2).slot member.slot hRest).map
            (field :: taken.1, ·)
          simpa [hContains, hSeen, hColon, Function.comp_def] using hInto
  · simp only [hRead, hSpelled, Option.bind_none]
    exact ⟨fault, rfl⟩

theorem takeMembers_cons (taken : List Field × Candidate) (member : Member Value)
    (members : List (Member Value)) :
    takeMembers taken (member :: members) =
      (takeMember taken member).bind fun taken => takeMembers taken members := by
  simp only [takeMembers, List.foldlM_cons]
  rfl

/-- Reading on in an object takes the members that are still to come. -/
theorem hears_moreMembers (members : List (Member Value)) :
    ∀ {fuel : Nat} (taken : List Field × Candidate) (gap : Gap) (rest : List Char),
      members.length < fuel →
        Hears (readMoreMembers fuel taken.1 taken.2
          (gap.chars ++ (printMore memberText members ++ '\x7d' :: rest))) rest
          ((takeMembers taken members).map Prod.snd) := by
  induction members with
  | nil =>
      intro fuel taken gap rest hFuel
      cases fuel with
      | zero => cases hFuel
      | succ fuel =>
          rw [readMoreMembers, skipSpace_gap, printMore, List.flatMap_nil, List.nil_append,
            skipSpace_cons (by decide)]
          rfl
  | cons member members ih =>
      intro fuel taken gap rest hFuel
      cases fuel with
      | zero => cases hFuel
      | succ fuel =>
          have hMember := hears_member taken member
            (delimited_printMore memberText members (.inr rfl) rest)
          have hMore := fun taken =>
            ih taken member.slot.after rest (Nat.lt_of_succ_lt_succ hFuel)
          rw [readMoreMembers, skipSpace_gap, printMore_cons, List.cons_append, List.append_assoc,
            skipSpace_cons (by decide), takeMembers_cons]
          simp only [skipSpace_member]
          obtain ⟨taken, hTaken, hRead⟩ | ⟨hTaken, fault, hRead⟩ := hMember.cases
          · simp only [hRead, hTaken]
            exact hMore taken
          · simp only [hRead, hTaken]
            exact ⟨fault, rfl⟩

/-- The entry of which some members tell. -/
def object? (members : List (Member Value)) : Option Candidate :=
  (takeMembers ([], {}) members).map Prod.snd

theorem hears_object (inner : Gap) (members : List (Member Value)) (rest : List Char) :
    Hears (readObject (inner.chars ++ (printItems memberText members ++ '\x7d' :: rest))) rest
      (object? members) := by
  rw [readObject, skipSpace_gap]
  cases members with
  | nil =>
      rw [printItems, List.nil_append, skipSpace_cons (by decide)]
      rfl
  | cons member members =>
      have hMember := hears_member ([], {}) member
        (delimited_printMore memberText members (.inr rfl) rest)
      have hMore := fun taken => hears_moreMembers members taken member.slot.after rest
        (length_behind member.slot.after memberText members '\x7d' rest)
      rw [printItems_cons, List.append_assoc, skipSpace_member, object?, takeMembers_cons]
      obtain ⟨taken, hTaken, hRead⟩ | ⟨hTaken, fault, hRead⟩ := hMember.cases
      · simp only [hRead, hTaken]
        exact hMore taken
      · simp only [hRead, hTaken]
        exact ⟨fault, rfl⟩

/-! ## Arrays of field values -/

/-- The entry of which some values tell, one for each of the fields that are due. -/
def values? : List Field → Candidate → List (Slot Value) → Option Candidate
  | _, onto, [] => some onto
  | [], _, _ :: _ => none
  | field :: due, onto, slot :: slots =>
      (field.put? onto slot.value).bind fun onto => values? due onto slots

theorem hears_moreValues (due : List Field) :
    ∀ (slots : List (Slot Value)) (onto : Candidate) (gap : Gap) (rest : List Char),
      Hears (readMoreValues due onto (gap.chars ++ (printMore slotText slots ++ ']' :: rest))) rest
        (values? due onto slots) := by
  induction due with
  | nil =>
      intro slots onto gap rest
      rw [readMoreValues, passMark_skipped]
      cases slots with
      | nil =>
          have hClose := passMark_gap ⟨[], rfl⟩ (show isSpace ']' = false by decide) rest
          rw [List.nil_append] at hClose
          simp only [printMore, List.flatMap_nil, List.nil_append, hClose]
          rfl
      | cons slot slots =>
          simp only [printMore_cons, List.cons_append, passMark,
            skipSpace_cons (show isSpace ',' = false by decide)]
          exact ⟨_, rfl⟩
  | cons field due ih =>
      intro slots onto gap rest
      rw [readMoreValues, skipSpace_gap]
      cases slots with
      | nil =>
          rw [printMore, List.flatMap_nil, List.nil_append, skipSpace_cons (by decide)]
          rfl
      | cons slot slots =>
          have hField := (reads_field field onto).slot slot
            (delimited_printMore slotText slots (.inl rfl) rest)
          rw [printMore_cons, List.cons_append, List.append_assoc, skipSpace_cons (by decide),
            values?]
          obtain ⟨onto, hPut, hRead⟩ | ⟨hPut, fault, hRead⟩ := hField.cases
          · simp only [hRead, hPut]
            exact ih slots onto slot.after rest
          · simp only [hRead, hPut]
            exact ⟨fault, rfl⟩

theorem hears_values (inner : Gap) (slots : List (Slot Value)) (rest : List Char) :
    Hears (readValues (inner.chars ++ (printItems slotText slots ++ ']' :: rest))) rest
      (values? Field.all {} slots) := by
  obtain ⟨first, due, hAll⟩ : ∃ first due, Field.all = first :: due := ⟨_, _, rfl⟩
  rw [readValues, hAll, skipSpace_gap]
  cases slots with
  | nil =>
      rw [printItems, List.nil_append, skipSpace_cons (by decide)]
      rfl
  | cons slot slots =>
      have hField := (reads_field first {}).first slot
        (delimited_printMore slotText slots (.inl rfl) rest)
      obtain ⟨c, more, hText, -, hClose⟩ := text_begins slot.value
      rw [printItems_cons, List.append_assoc, skipSpace_slot, values?]
      split
      · next hCons =>
          rw [hText] at hCons
          exact absurd (List.cons.inj hCons).1 hClose
      · next hNil _ => cases hNil
      · next hCons _ =>
          obtain ⟨rfl, rfl⟩ := List.cons.inj hCons
          obtain ⟨onto, hPut, hRead⟩ | ⟨hPut, fault, hRead⟩ := hField.cases
          · simp only [hRead, hPut]
            exact hears_moreValues due slots onto slot.after rest
          · simp only [hRead, hPut]
            exact ⟨fault, rfl⟩

/-! ## Entries -/

/-- The entry of which a value tells. -/
def Value.entry? : Value → Option Candidate
  | .object _ members => object? members
  | .list _ slots => values? Field.all {} slots
  | _ => none

theorem reads_entry : Reads readEntry Value.entry? := by
  intro v gap rest hRest
  have hBlanks : readEntry (gap.chars ++ (v.text ++ rest)) = readEntry (v.text ++ rest) := by
    simp only [readEntry, skipSpace_gap]
  rw [hBlanks]
  cases v with
  | null => exact ⟨_, rfl⟩
  | boolean value => cases value <;> exact ⟨_, rfl⟩
  | numeral n =>
      rw [Value.text, readEntry, skipSpace_numeral]
      split
      · next hCons => exact absurd hCons (numeral_ne n (by decide) _ _)
      · next hCons => exact absurd hCons (numeral_ne n (by decide) _ _)
      · exact ⟨_, rfl⟩
  | quoted glyphs =>
      rw [Value.text, quotedText]
      exact ⟨_, rfl⟩
  | list inner slots =>
      rw [list_append, readEntry, skipSpace_cons (by decide)]
      exact hears_values inner slots rest
  | object inner members =>
      rw [object_append, readEntry, skipSpace_cons (by decide)]
      exact hears_object inner members rest

/-- A list is read as its values say, and is not read if one of them tells of no
entry. -/
theorem readEntries_text (doc : Slot Value) :
    (readEntries (String.ofList (slotText doc))).toOption = doc.value.list? Value.entry? := by
  obtain ⟨before, v, after⟩ := doc
  have hAfter : skipSpace (after.chars ++ []) = [] := skipSpace_gap after []
  have hEnd : Apart [] := by simp [Apart]
  have hList := Reads.list reads_entry v before (apart_gap after hEnd)
  have hText : slotText ⟨before, v, after⟩ = before.chars ++ (v.text ++ (after.chars ++ [])) := by
    simp [slotText]
  rw [readEntries, String.toList_ofList, hText]
  obtain ⟨entries, hSaid, hRead⟩ | ⟨hSaid, fault, hRead⟩ := hList.cases
  · simp only [hRead, hSaid, hAfter]
    rfl
  · simp only [hRead, hSaid]
    rfl

/-! ## Texts that break off -/

/-- Some values of a list, each with its comma, and a text behind them. -/
def leading (slots : List (Slot Value)) (cs : List Char) : List Char :=
  slots.flatMap (fun slot => slotText slot ++ [',']) ++ cs

theorem leading_cons (slot : Slot Value) (slots : List (Slot Value)) (cs : List Char) :
    leading (slot :: slots) cs = slotText slot ++ ',' :: leading slots cs := by
  simp [leading]

theorem readMoreItems_spoilt {cs : List Char} (hSpoilt : ∃ fault, readEntry cs = .error fault)
    (slots : List (Slot Value)) : ∀ (fuel : Nat) (reversed : List Candidate) (gap : Gap),
      ∃ fault, readMoreItems readEntry fuel reversed (gap.chars ++ ',' :: leading slots cs) =
        .error fault := by
  induction slots with
  | nil =>
      intro fuel reversed gap
      cases fuel with
      | zero => exact ⟨_, rfl⟩
      | succ fuel =>
          obtain ⟨fault, hFault⟩ := hSpoilt
          rw [readMoreItems, skipSpace_gap, skipSpace_cons (by decide)]
          simp only [leading, List.flatMap_nil, List.nil_append, hFault]
          exact ⟨fault, rfl⟩
  | cons slot slots ih =>
      intro fuel reversed gap
      cases fuel with
      | zero => exact ⟨_, rfl⟩
      | succ fuel =>
          have hSlot := Reads.slot reads_entry slot ⟨',', leading slots cs, rfl, .inl rfl⟩
          rw [readMoreItems, skipSpace_gap, skipSpace_cons (by decide), leading_cons]
          obtain ⟨entry, -, hRead⟩ | ⟨-, fault, hRead⟩ := hSlot.cases
          · simp only [hRead]
            exact ih fuel (entry :: reversed) slot.after
          · simp only [hRead]
            exact ⟨fault, rfl⟩

theorem readList_spoilt {cs : List Char} (hOpen : ∀ more, skipSpace cs ≠ ']' :: more)
    (hSpoilt : ∃ fault, readEntry cs = .error fault) (before : Gap)
    (slots : List (Slot Value)) :
    ∃ fault, readList readEntry (before.chars ++ '[' :: leading slots cs) = .error fault := by
  rw [readList, skipSpace_gap, skipSpace_cons (by decide)]
  cases slots with
  | nil =>
      have hBlanks : readEntry (skipSpace cs) = readEntry cs := by
        simp only [readEntry, skipSpace_skipSpace]
      obtain ⟨fault, hFault⟩ := hSpoilt
      -- By `hOpen` the list does not end here, so an entry is read.
      simp only [leading, List.flatMap_nil, List.nil_append, hBlanks, hFault]
      exact ⟨fault, rfl⟩
  | cons slot slots =>
      obtain ⟨c, more, hText, -, hClose⟩ := text_begins slot.value
      have hSlot := Reads.first reads_entry slot ⟨',', leading slots cs, rfl, .inl rfl⟩
      simp only [leading_cons, skipSpace_slot]
      split
      · next hCons =>
          rw [hText] at hCons
          exact absurd (List.cons.inj hCons).1 hClose
      · obtain ⟨entry, -, hRead⟩ | ⟨-, fault, hRead⟩ := hSlot.cases
        · simp only [hRead]
          exact readMoreItems_spoilt hSpoilt slots _ [entry] slot.after
        · simp only [hRead]
          exact ⟨fault, rfl⟩

end RelayRace.Json
