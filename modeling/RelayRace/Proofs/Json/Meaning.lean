import RelayRace.Proofs.Json.Scalars

/-!
# What a value says, and that it is heard

What a value says where a text, a port, a name, an option or a list is wanted is
told by the value alone (`Value.text?` and the functions beside it); where it says
nothing, the reader has to fail.  `Reads` says that a reader hears every value,
whatever blanks stand in front of it and whatever follows it.
-/

namespace RelayRace.Json

open Text

/-! ## Readers -/

/-- A reader hears what every value says, with blanks in front of it and anything
behind it with which a number cannot go on. -/
def Reads {α : Type} (read : List Char → Scanned α) (said : Value → Option α) : Prop :=
  ∀ (v : Value) (gap : Gap) {rest : List Char}, Apart rest →
    Hears (read (gap.chars ++ (v.text ++ rest))) rest (said v)

theorem skipSpace_text (v : Value) (gap : Gap) (rest : List Char) :
    skipSpace (gap.chars ++ (v.text ++ rest)) = v.text ++ rest := by
  obtain ⟨c, more, hText, hSolid, -⟩ := text_begins v
  rw [skipSpace_gap, hText]
  exact skipSpace_cons hSolid

/-- A number begins with no blank. -/
theorem skipSpace_numeral (n : Numeral) (rest : List Char) :
    skipSpace (n.text ++ rest) = n.text ++ rest :=
  skipSpace_text (.numeral n) ⟨[], rfl⟩ rest

theorem skipSpace_slot (slot : Slot Value) (rest : List Char) :
    skipSpace (slotText slot ++ rest) = slot.value.text ++ (slot.after.chars ++ rest) := by
  obtain ⟨before, v, after⟩ := slot
  rw [slotText, List.append_assoc, List.append_assoc, skipSpace_text]

theorem numeral_begins (n : Numeral) :
    ∃ c more, n.text = c :: more ∧ (isDigit c = true ∨ c = '-') := by
  obtain ⟨digit, more, hBody⟩ := body_begins n
  rw [Numeral.text, hBody]
  split
  · exact ⟨_, _, rfl, .inr rfl⟩
  · exact ⟨_, _, rfl, .inl (isDigit_digitChar digit)⟩

/-- No number begins with a mark of another value. -/
theorem numeral_ne (n : Numeral) {mark : Char} (hMark : isDigit mark = false ∧ mark ≠ '-')
    (rest more : List Char) : n.text ++ rest ≠ mark :: more := by
  obtain ⟨c, text, hText, hDigit | hSign⟩ := numeral_begins n <;> rw [hText, List.cons_append]
  · intro hCons
    obtain ⟨rfl, -⟩ := List.cons.inj hCons
    cases hMark.1.symm.trans hDigit
  · intro hCons
    obtain ⟨rfl, -⟩ := List.cons.inj hCons
    exact hMark.2 hSign

/-- The text that a value is. -/
def Value.text? : Value → Option String
  | .quoted glyphs => spelled glyphs
  | _ => none

theorem reads_textAs (wanted : String) : Reads (readTextAs wanted) Value.text? := by
  intro v gap rest hRest
  rw [readTextAs, skipSpace_text]
  cases v with
  | null => exact ⟨_, rfl⟩
  | boolean value => cases value <;> exact ⟨_, rfl⟩
  | numeral n =>
      rw [Value.text]
      split
      · next hCons => exact absurd hCons (numeral_ne n (by decide) _ _)
      · exact ⟨_, rfl⟩
  | quoted glyphs =>
      have hQuoted := hears_quoted glyphs rest
      simpa [Value.text, quotedText, Value.text?] using hQuoted
  | list inner slots =>
      rw [Value.text]
      exact ⟨_, rfl⟩
  | object inner members =>
      rw [Value.text]
      exact ⟨_, rfl⟩

theorem reads_text : Reads readText Value.text? := reads_textAs _

/-- The port that a value is: a natural number of 16 bits. -/
def Value.port? : Value → Option UInt16
  | .numeral n => n.natural?.bind fun number =>
      if number < 65536 then some (UInt16.ofNat number) else none
  | _ => none

theorem portOf_noNatural {answer : Scanned Number} (hNone : NoNatural answer) :
    ∃ fault, (match answer with
      | .ok (number, rest) => (portOf number).map (·, rest)
      | .error fault => .error fault : Scanned UInt16) = .error fault := by
  match answer with
  | .error fault => exact ⟨fault, rfl⟩
  | .ok (.natural number, rest) => exact (hNone number rest rfl).elim
  | .ok (.negative number, rest) => exact ⟨_, rfl⟩
  | .ok (.real bits, rest) => exact ⟨_, rfl⟩

theorem port?_eq_none {n : Numeral}
    (hLarge : ∀ number, n.natural? = some number → UInt64.size ≤ number) :
    Value.port? (.numeral n) = none := by
  cases hNatural : n.natural? with
  | none => simp [Value.port?, hNatural]
  | some number =>
      have hNoRoom : ¬ number < 65536 := by
        have hSize := hLarge number hNatural
        simp only [UInt64.size] at hSize
        omega
      simp [Value.port?, hNatural, hNoRoom]

/-- A number is read as a port if it is one. -/
theorem hears_numeral (n : Numeral) {rest : List Char} (hRest : Apart rest) :
    Hears (readPort (n.text ++ rest)) rest (Value.port? (.numeral n)) := by
  cases hSign : n.negative with
  | true =>
      have hLarge : ∀ number, n.natural? = some number → UInt64.size ≤ number := by
        simp [Numeral.natural?, hSign]
      rw [port?_eq_none hLarge, Numeral.text, if_pos hSign, readPort, List.cons_append,
        skipSpace_cons (by decide)]
      exact portOf_noNatural (readNumber_noNatural (n.body ++ rest))
  | false =>
      obtain ⟨digit, more, hBody⟩ := body_begins n
      have hRead : readPort (n.text ++ rest) =
          match readNumber false (n.body ++ rest) with
          | .ok (number, rest) => (portOf number).map (·, rest)
          | .error fault => .error fault := by
        rw [Numeral.text, hSign, if_neg Bool.false_ne_true, hBody, List.cons_append, readPort,
          skipSpace_cons (isSpace_digitChar digit)]
        split
        · next hCons =>
            exact absurd (List.cons.inj hCons).1 (digitChar_ne digit (by decide))
        · next hCons =>
            obtain ⟨rfl, rfl⟩ := List.cons.inj hCons
            exact if_pos (isDigit_digitChar digit)
        · next hNil => cases hNil
      rw [hRead]
      obtain ⟨number, hNatural, hNumber⟩ | ⟨hNone, hLarge⟩ := readNumber_body n hSign hRest
      · simp only [hNumber, portOf, Value.port?, hNatural, Option.bind_some]
        split
        · rfl
        · exact ⟨_, rfl⟩
      · rw [port?_eq_none hLarge]
        exact portOf_noNatural hNone

theorem reads_port : Reads readPort Value.port? := by
  intro v gap rest hRest
  have hBlanks : readPort (gap.chars ++ (v.text ++ rest)) = readPort (v.text ++ rest) := by
    simp only [readPort, skipSpace_gap]
  rw [hBlanks]
  cases v with
  | null => exact ⟨_, rfl⟩
  | boolean value => cases value <;> exact ⟨_, rfl⟩
  | numeral n =>
      rw [Value.text]
      exact hears_numeral n hRest
  | quoted glyphs =>
      rw [Value.text, quotedText]
      exact ⟨_, rfl⟩
  | list inner slots =>
      rw [Value.text]
      exact ⟨_, rfl⟩
  | object inner members =>
      rw [Value.text]
      exact ⟨_, rfl⟩

/-- Whether a value is null. -/
def Value.isNull : Value → Bool
  | .null => true
  | _ => false

theorem text_null {v : Value} {more : List Char} (hText : v.text = 'n' :: more) :
    v.isNull = true := by
  cases v with
  | null => rfl
  | boolean value => cases value <;> cases hText
  | numeral n =>
      rw [Value.text, ← List.append_nil n.text] at hText
      exact absurd hText (numeral_ne n (by decide) _ _)
  | quoted glyphs =>
      rw [Value.text, quotedText] at hText
      cases hText
  | list inner slots =>
      rw [Value.text] at hText
      cases hText
  | object inner members =>
      rw [Value.text] at hText
      cases hText

/-- What null or another value says. -/
def Value.optional? {α : Type} (said : Value → Option α) (v : Value) : Option (Option α) :=
  if v.isNull then some none else (said v).map some

theorem eq_null {v : Value} (hNull : v.isNull = true) : v = .null := by
  cases v <;> first | rfl | cases hNull

theorem Reads.optional {α : Type} {read : List Char → Scanned α} {said : Value → Option α}
    (hReads : Reads read said) : Reads (readOptional read) (Value.optional? said) := by
  intro v gap rest hRest
  rw [readOptional, skipSpace_text]
  cases hNull : v.isNull with
  | true =>
      obtain rfl := eq_null hNull
      rfl
  | false =>
      obtain ⟨c, more, hText, -⟩ := text_begins v
      have hOther : c ≠ 'n' := by
        rintro rfl
        cases hNull.symm.trans (text_null hText)
      have hRead := (hReads v ⟨[], rfl⟩ hRest).map some
      rw [Value.optional?, hNull, if_neg Bool.false_ne_true]
      rw [hText] at hRead ⊢
      split
      · next hCons => exact absurd (List.cons.inj hCons).1 hOther
      · exact hRead

/-- The one of several names that some glyphs spell. -/
def namedBy {α : Type} (all : List α) (name : α → String) (glyphs : List Glyph) : Option α :=
  (spelled glyphs).bind fun text => all.find? fun value => name value == text

/-- The one of several names that a value is: as a text, or as the only key of an
object whose value is null. -/
def Value.name? {α : Type} (all : List α) (name : α → String) : Value → Option α
  | .quoted glyphs => namedBy all name glyphs
  | .object _ [member] => if member.slot.value.isNull then namedBy all name member.key else none
  | _ => none

theorem hears_lookUp {α : Type} (all : List α) (name : α → String) (text : String)
    (rest : List Char) :
    Hears ((lookUp all name text).map (·, rest)) rest
      (all.find? fun value => name value == text) := by
  unfold lookUp
  split
  · next hFound =>
      rw [hFound]
      rfl
  · next hNone =>
      rw [hNone]
      exact ⟨_, rfl⟩

/-- The key of a member comes first, then its colon and its value. -/
theorem skipSpace_member (member : Member Value) (rest : List Char) :
    skipSpace (memberText member ++ rest) = '"' :: (member.key.flatMap Glyph.text ++
      '"' :: (member.gap.chars ++ ':' :: (slotText member.slot ++ rest))) := by
  obtain ⟨before, key, gap, slot⟩ := member
  simp [memberText, quotedText, skipSpace_cons (show isSpace '"' = false by decide)]

theorem passMark_skipped (mark : Char) (gap : Gap) (rest : List Char) :
    passMark mark (gap.chars ++ rest) = passMark mark rest := by
  simp only [passMark, skipSpace_gap]

/-- A name that is written as a key has null behind it. -/
theorem passUnit_slot (slot : Slot Value) (rest : List Char) :
    if slot.value.isNull then passUnit (slotText slot ++ rest) = passMark '\x7d' rest
    else ∃ fault, passUnit (slotText slot ++ rest) = .error fault := by
  obtain ⟨before, v, after⟩ := slot
  have hText : skipSpace (slotText ⟨before, v, after⟩ ++ rest) =
      v.text ++ (after.chars ++ rest) := skipSpace_slot _ rest
  split
  · next hNull =>
      obtain rfl := eq_null hNull
      rw [passUnit, hText, ← passMark_skipped '\x7d' after rest]
      rfl
  · next hOther =>
      obtain ⟨c, more, hBegins, -⟩ := text_begins v
      rw [passUnit, hText, hBegins]
      split
      · next hCons =>
          obtain ⟨rfl, -⟩ := List.cons.inj hCons
          exact absurd (text_null hBegins) hOther
      · exact ⟨_, rfl⟩

/-- The key is read as a text. -/
theorem hears_key (wanted : String) (gap : Gap) (member : Member Value) (rest : List Char) :
    Hears (readTextAs wanted (gap.chars ++ (memberText member ++ rest)))
      (member.gap.chars ++ ':' :: (slotText member.slot ++ rest)) (spelled member.key) := by
  rw [readTextAs, skipSpace_gap, skipSpace_member]
  exact hears_quoted member.key _

/-- Only an object of one key ends behind its first value. -/
theorem passMark_printMore (more : List (Member Value)) (rest : List Char) :
    passMark '\x7d' (printMore memberText more ++ '\x7d' :: rest) =
      if more.isEmpty then .ok rest else .error .malformed := by
  cases more with
  | nil => simp [printMore, passMark, skipSpace_cons (show isSpace '\x7d' = false by decide)]
  | cons member more =>
      simp [printMore_cons, passMark, skipSpace_cons (show isSpace ',' = false by decide)]

/-- A name that is written as a key has null behind it and no other key. -/
theorem hears_keyName {α : Type} (all : List α) (name : α → String) (inner : Gap)
    (members : List (Member Value)) (rest : List Char) :
    Hears (readName all name ((Value.object inner members).text ++ rest)) rest
      (Value.name? all name (.object inner members)) := by
  rw [object_append, readName, skipSpace_cons (by decide)]
  cases members with
  | nil =>
      have hClose : readTextAs "variant identifier" (inner.chars ++ '\x7d' :: rest) =
          .error (misfit "variant identifier" ('\x7d' :: rest)) := by
        rw [readTextAs, skipSpace_gap, skipSpace_cons (by decide)]
        rfl
      simp only [printItems, List.nil_append, hClose]
      exact ⟨_, rfl⟩
  | cons member more =>
      rw [printItems_cons, List.append_assoc]
      have hSaid : Value.name? all name (.object inner (member :: more)) =
          if more.isEmpty && member.slot.value.isNull then namedBy all name member.key
          else none := by
        cases more <;> simp [Value.name?]
      have hKey := hears_key "variant identifier" inner member
        (printMore memberText more ++ '\x7d' :: rest)
      have hColon := passMark_gap member.gap (show isSpace ':' = false by decide)
        (slotText member.slot ++ (printMore memberText more ++ '\x7d' :: rest))
      have hUnit := passUnit_slot member.slot (printMore memberText more ++ '\x7d' :: rest)
      rw [passMark_printMore] at hUnit
      rw [hSaid, namedBy]
      obtain ⟨text, hSpelled, hRead⟩ | ⟨hSpelled, fault, hRead⟩ := hKey.cases
      · simp only [hRead, hSpelled, Option.bind_some, lookUp]
        cases all.find? fun value => name value == text with
        | none =>
            simp only [ite_self]
            exact ⟨_, rfl⟩
        | some value =>
            simp only [hColon]
            cases hNull : member.slot.value.isNull with
            | false =>
                obtain ⟨fault, hFault⟩ : ∃ fault, passUnit _ = .error fault := by
                  simpa [hNull] using hUnit
                simp only [hFault, Bool.and_false]
                exact ⟨fault, rfl⟩
            | true =>
                simp only [hNull, if_true] at hUnit
                rw [hUnit]
                cases more with
                | nil => rfl
                | cons next more => exact ⟨_, rfl⟩
      · simp only [hRead, hSpelled, Option.bind_none, ite_self]
        exact ⟨fault, rfl⟩

theorem reads_name {α : Type} (all : List α) (name : α → String) :
    Reads (readName all name) (Value.name? all name) := by
  intro v gap rest hRest
  have hBlanks : readName all name (gap.chars ++ (v.text ++ rest)) =
      readName all name (v.text ++ rest) := by
    simp only [readName, skipSpace_gap]
  rw [hBlanks]
  cases v with
  | null => exact ⟨_, rfl⟩
  | boolean value => cases value <;> exact ⟨_, rfl⟩
  | numeral n =>
      rw [Value.text, readName, skipSpace_numeral]
      split
      · next hCons => exact absurd hCons (numeral_ne n (by decide) _ _)
      · next hCons => exact absurd hCons (numeral_ne n (by decide) _ _)
      · exact ⟨_, rfl⟩
  | quoted glyphs =>
      have hText : (Value.quoted glyphs).text ++ rest =
          '"' :: (glyphs.flatMap Glyph.text ++ '"' :: rest) := by
        simp [Value.text, quotedText]
      rw [hText, readName, skipSpace_cons (by decide), Value.name?, namedBy]
      obtain ⟨text, hSaid, hRead⟩ | ⟨hSaid, fault, hRead⟩ := (hears_quoted glyphs rest).cases
      · simp only [hRead, hSaid]
        exact hears_lookUp all name text rest
      · simp only [hRead, hSaid]
        exact ⟨fault, rfl⟩
  | list inner slots =>
      rw [Value.text]
      exact ⟨_, rfl⟩
  | object inner members => exact hears_keyName all name inner members rest

/-! ## Lists -/

/-- What the values of some slots say. -/
def saidBy {α : Type} (said : Value → Option α) (slots : List (Slot Value)) : Option (List α) :=
  slots.mapM fun slot => said slot.value

/-- What the values of a list say. -/
def Value.list? {α : Type} (said : Value → Option α) : Value → Option (List α)
  | .list _ slots => saidBy said slots
  | _ => none

section

variable {α : Type} {read : List Char → Scanned α} {said : Value → Option α}

/-- The blanks behind a value are left where they are. -/
theorem Reads.slot (hReads : Reads read said) (slot : Slot Value) {rest : List Char}
    (hRest : Delimited rest) :
    Hears (read (slotText slot ++ rest)) (slot.after.chars ++ rest) (said slot.value) := by
  obtain ⟨before, v, after⟩ := slot
  rw [slotText, List.append_assoc, List.append_assoc]
  exact hReads v before (apart_gap after hRest.apart)

/-- The blanks in front of the first value are gone before it is read. -/
theorem Reads.first (hReads : Reads read said) (slot : Slot Value) {rest : List Char}
    (hRest : Delimited rest) :
    Hears (read (slot.value.text ++ (slot.after.chars ++ rest))) (slot.after.chars ++ rest)
      (said slot.value) :=
  hReads slot.value ⟨[], rfl⟩ (apart_gap slot.after hRest.apart)

theorem saidBy_cons (slot : Slot Value) (slots : List (Slot Value)) :
    saidBy said (slot :: slots) =
      (said slot.value).bind fun value => (saidBy said slots).map (value :: ·) := by
  simp only [saidBy, List.mapM_cons]
  cases said slot.value with
  | none => rfl
  | some value => cases slots.mapM fun slot => said slot.value <;> rfl

theorem hears_moreSlots (hReads : Reads read said) (slots : List (Slot Value)) :
    ∀ {fuel : Nat} (reversed : List α) (gap : Gap) (rest : List Char), slots.length < fuel →
      Hears (readMoreItems read fuel reversed
        (gap.chars ++ (printMore slotText slots ++ ']' :: rest))) rest
        ((saidBy said slots).map (reversed.reverse ++ ·)) := by
  induction slots with
  | nil =>
      intro fuel reversed gap rest hFuel
      cases fuel with
      | zero => cases hFuel
      | succ fuel =>
          have hClose : skipSpace (']' :: rest) = ']' :: rest := skipSpace_cons (by decide)
          simp [readMoreItems, printMore, hClose, saidBy, Hears]
  | cons slot slots ih =>
      intro fuel reversed gap rest hFuel
      cases fuel with
      | zero => cases hFuel
      | succ fuel =>
          have hSlot := hReads.slot slot (delimited_printMore slotText slots (.inl rfl) rest)
          have hMore := fun value =>
            ih (value :: reversed) slot.after rest (Nat.lt_of_succ_lt_succ hFuel)
          rw [readMoreItems, skipSpace_gap, printMore_cons, List.cons_append, List.append_assoc,
            skipSpace_cons (by decide), saidBy_cons]
          obtain ⟨value, hSaid, hRead⟩ | ⟨hSaid, fault, hRead⟩ := hSlot.cases
          · simpa [hRead, hSaid, Function.comp_def] using hMore value
          · simp only [hRead, hSaid]
            exact ⟨fault, rfl⟩

theorem hears_list (hReads : Reads read said) (inner : Gap) (slots : List (Slot Value))
    (rest : List Char) :
    Hears (readList read ((Value.list inner slots).text ++ rest)) rest (saidBy said slots) := by
  rw [list_append, readList, skipSpace_cons (by decide)]
  simp only [skipSpace_gap]
  cases slots with
  | nil =>
      rw [printItems, List.nil_append, skipSpace_cons (by decide)]
      rfl
  | cons slot slots =>
      have hRest := delimited_printMore slotText slots (.inl rfl) rest
      have hMore := fun value => hears_moreSlots hReads slots [value] slot.after rest
        (length_behind slot.after slotText slots ']' rest)
      obtain ⟨c, more, hText, -, hClose⟩ := text_begins slot.value
      rw [printItems_cons, List.append_assoc, skipSpace_slot, saidBy_cons]
      split
      · next hCons =>
          rw [hText] at hCons
          exact absurd (List.cons.inj hCons).1 hClose
      · obtain ⟨value, hSaid, hRead⟩ | ⟨hSaid, fault, hRead⟩ := (hReads.first slot hRest).cases
        · simp only [hRead, hSaid]
          exact hMore value
        · simp only [hRead, hSaid]
          exact ⟨fault, rfl⟩

theorem Reads.list (hReads : Reads read said) : Reads (readList read) (Value.list? said) := by
  intro v gap rest hRest
  have hBlanks : readList read (gap.chars ++ (v.text ++ rest)) =
      readList read (v.text ++ rest) := by
    simp only [readList, skipSpace_gap]
  rw [hBlanks]
  cases v with
  | null => exact ⟨_, rfl⟩
  | boolean value => cases value <;> exact ⟨_, rfl⟩
  | numeral n =>
      rw [Value.text, readList, skipSpace_numeral]
      split
      · next hCons => exact absurd hCons (numeral_ne n (by decide) _ _)
      · exact ⟨_, rfl⟩
  | quoted glyphs =>
      rw [Value.text, quotedText]
      exact ⟨_, rfl⟩
  | object inner members =>
      rw [Value.text]
      exact ⟨_, rfl⟩
  | list inner slots => exact hears_list hReads inner slots rest

end

end RelayRace.Json
