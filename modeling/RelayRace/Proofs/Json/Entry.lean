import RelayRace.Proofs.Json.Parts
import RelayRace.ServerList

/-!
# A server list is read back as it was written

That a reader undoes a printer is said once (`Undoes`) and handed on from texts,
names and ports to options and lists of them, from there to the fields of an
entry, to entries, and to the list.

An object is read field by field into an entry that is empty at first.  What
comes of it is said by `Field.copy`: each field that was written is copied, and
the copies of all fields make up the entry.  The readers of lists and objects
count their steps down from the length of the text, which every item that is
still to come outlasts.
-/

namespace RelayRace.Json

open Text

section

variable {α : Type} {read : List Char → Scanned α} {print : α → List Char}

/-! ## Readers that undo a printer -/

/-- Whatever is written is read back where a value may end. -/
def Undoes (read : List Char → Scanned α) (print : α → List Char) : Prop :=
  ∀ value {rest}, Delimited rest → read (print value ++ rest) = .ok (value, rest)

/-- What is written is taken neither for null nor for the end of a list, and has
no blank in front. -/
def Solid (print : α → List Char) : Prop :=
  ∀ value, ∃ c more, print value = c :: more ∧ isSpace c = false ∧ c ≠ ']' ∧ c ≠ 'n'

theorem undoes_text : Undoes readText printText := by
  intro text rest hRest
  obtain ⟨quoted, hPrint, hRead⟩ := readQuoted_printText text rest
  rw [hPrint]
  exact hRead

theorem solid_text : Solid printText :=
  fun text => ⟨'"', text.toList.flatMap printChar ++ ['"'], rfl, by decide⟩

theorem undoes_port : Undoes readPort printPort := fun port _ => readPort_printPort port

theorem solid_port : Solid printPort := by
  intro port
  obtain ⟨c, more, hDigits, hDigit⟩ := toDigits_begins port.toNat
  refine ⟨c, more, hDigits, ?_, ?_, ?_⟩
  · cases hSpace : isSpace c with
    | false => rfl
    | true => cases (not_isDigit_of_isSpace (.inl hSpace)).symm.trans hDigit
  · rintro rfl
    cases hDigit
  · rintro rfl
    cases hDigit

/-- One of several names is read back if no two of them are the same. -/
theorem undoes_name {all : List α} {name : α → String}
    (hFind : ∀ value, (all.find? fun other => name other == name value) = some value) :
    Undoes (readName all name) fun value => printText (name value) := by
  intro value rest hRest
  obtain ⟨quoted, hPrint, hRead⟩ := readQuoted_printText (name value) rest
  have hSkip : skipSpace ('"' :: quoted) = '"' :: quoted := skipSpace_cons (by decide)
  rw [hPrint, readName, hSkip]
  simp [hRead, lookUp, hFind, Except.map]

theorem solid_name (name : α → String) : Solid fun value => printText (name value) :=
  fun value => solid_text (name value)

/-! ## Options and lists -/

theorem Undoes.optional (hUndoes : Undoes read print) (hSolid : Solid print) :
    Undoes (readOptional read) (printOptional print) := by
  intro value rest hRest
  cases value with
  | none => rfl
  | some value =>
      obtain ⟨c, more, hPrint, hSpace, -, hNull⟩ := hSolid value
      have hRead := hUndoes value hRest
      rw [printOptional]
      rw [hPrint, List.cons_append] at hRead ⊢
      rw [readOptional, skipSpace_cons hSpace]
      split
      · next hCons =>
          cases hCons
          exact absurd rfl hNull
      · rw [hRead]
        rfl

/-- The items after the first, each behind a comma. -/
def printMore (print : α → List Char) (items : List α) : List Char :=
  items.flatMap fun item => ',' :: print item

theorem printItems_cons (item : α) (items : List α) :
    printItems print (item :: items) = print item ++ printMore print items := by
  induction items generalizing item with
  | nil => simp [printItems, printMore]
  | cons next rest ih =>
      rw [printItems, ih]
      simp [printMore]

theorem delimited_printMore (print : α → List Char) (items : List α) {mark : Char}
    (hMark : mark = ']' ∨ mark = '\x7d') (rest : List Char) :
    Delimited (printMore print items ++ mark :: rest) := by
  cases items with
  | nil => exact ⟨mark, rest, rfl, .inr hMark⟩
  | cons item items => exact ⟨',', _, rfl, .inl rfl⟩

/-- Every item that is still to come makes the text longer. -/
theorem length_printMore (print : α → List Char) (items : List α) (mark : Char)
    (rest : List Char) :
    items.length < (printMore print items ++ mark :: rest).length := by
  induction items with
  | nil => simp [printMore]
  | cons item items ih =>
      simp only [printMore, List.flatMap_cons, List.length_append, List.length_cons] at ih ⊢
      omega

theorem readMoreItems_printMore (hUndoes : Undoes read print) (items : List α) :
    ∀ {fuel : Nat} (reversed : List α) (rest : List Char), items.length < fuel →
      readMoreItems read fuel reversed (printMore print items ++ ']' :: rest) =
        .ok (reversed.reverse ++ items, rest) := by
  induction items with
  | nil =>
      intro fuel reversed rest hFuel
      cases fuel with
      | zero => cases hFuel
      | succ fuel =>
          have hSkip : skipSpace (']' :: rest) = ']' :: rest := skipSpace_cons (by decide)
          simp [printMore, readMoreItems, hSkip]
  | cons item items ih =>
      intro fuel reversed rest hFuel
      cases fuel with
      | zero => cases hFuel
      | succ fuel =>
          have hText : printMore print (item :: items) ++ ']' :: rest =
              ',' :: (print item ++ (printMore print items ++ ']' :: rest)) := by
            simp [printMore]
          have hRead := hUndoes item (delimited_printMore print items (.inl rfl) rest)
          have hMore := ih (item :: reversed) rest (Nat.lt_of_succ_lt_succ hFuel)
          rw [hText, readMoreItems, skipSpace_cons (by decide)]
          simp only [hRead, hMore]
          simp

/-- A written list is read back, whatever follows it. -/
theorem readList_printList (hUndoes : Undoes read print) (hSolid : Solid print) (items : List α)
    (rest : List Char) : readList read (printList print items ++ rest) = .ok (items, rest) := by
  have hText : printList print items ++ rest = '[' :: (printItems print items ++ ']' :: rest) := by
    simp [printList]
  rw [hText, readList, skipSpace_cons (by decide)]
  cases items with
  | nil => rfl
  | cons item items =>
      obtain ⟨c, more, hPrint, hSpace, hClose, -⟩ := hSolid item
      have hRead := hUndoes item (delimited_printMore print items (.inl rfl) rest)
      have hMore := readMoreItems_printMore hUndoes items [item] rest
        (length_printMore print items ']' rest)
      rw [printItems_cons, List.append_assoc]
      rw [hPrint, List.cons_append] at hRead ⊢
      simp only [skipSpace_cons hSpace]
      split
      · next hCons =>
          cases hCons
          exact absurd rfl hClose
      · simp only [hRead, hMore]
        rfl

theorem Undoes.list (hUndoes : Undoes read print) (hSolid : Solid print) :
    Undoes (readList read) (printList print) :=
  fun items rest _ => readList_printList hUndoes hSolid items rest

end

/-! ## Fields -/

/-- Copies one field of an entry onto another entry. -/
def Field.copy (entry onto : Candidate) : Field → Candidate
  | .ipAddress => { onto with ipAddress := entry.ipAddress }
  | .region => { onto with region := entry.region }
  | .capabilities => { onto with capabilities := entry.capabilities }
  | .sshPort => { onto with sshPort := entry.sshPort }
  | .sshObfuscatedPort => { onto with sshObfuscatedPort := entry.sshObfuscatedPort }
  | .sshObfuscatedKey => { onto with sshObfuscatedKey := entry.sshObfuscatedKey }
  | .meekServerPort => { onto with meekServerPort := entry.meekServerPort }
  | .meekObfuscatedKey => { onto with meekObfuscatedKey := entry.meekObfuscatedKey }
  | .meekCookieKey => { onto with meekCookieKey := entry.meekCookieKey }
  | .meekFrontingDomain => { onto with meekFrontingDomain := entry.meekFrontingDomain }
  | .meekFrontingHost => { onto with meekFrontingHost := entry.meekFrontingHost }
  | .connType => { onto with connType := entry.connType }
  | .front => { onto with front := entry.front }

/-- The fields make up the entry. -/
theorem copy_all (entry : Candidate) :
    Field.all.foldl (fun onto field => field.copy entry onto) {} = entry := by
  simp only [Field.all, List.foldl_cons, List.foldl_nil, Field.copy]

theorem ofKey?_key (field : Field) : Field.ofKey? field.key = some field := by
  cases field <;> decide

theorem undoes_capability :
    Undoes (readName Capability.all Capability.name) fun c => printText c.name :=
  undoes_name Capability.ofName?_name

theorem undoes_protocol :
    Undoes (readName Protocol.all Protocol.name) fun p => printText p.name :=
  undoes_name Protocol.ofName?_name

/-- A value that is read back is set. -/
theorem setting_of {α : Type} {read : List Char → Scanned α} {print : α → List Char}
    (hUndoes : Undoes read print) (set : α → Candidate) (value : α) {rest : List Char}
    (hRest : Delimited rest) :
    Field.setting read set (print value ++ rest) = .ok (set value, rest) := by
  rw [Field.setting, hUndoes value hRest]
  rfl

/-- Reading the written value of a field copies the field. -/
theorem readInto_print (entry onto : Candidate) (field : Field) {rest : List Char}
    (hRest : Delimited rest) :
    field.readInto onto (field.print entry ++ rest) = .ok (field.copy entry onto, rest) := by
  have hPort := undoes_port.optional solid_port
  have hText := undoes_text.optional solid_text
  cases field <;> simp only [Field.readInto, Field.print, Field.copy]
  case ipAddress | region | sshObfuscatedKey | meekObfuscatedKey | meekCookieKey =>
      exact setting_of undoes_text _ _ hRest
  case sshPort | sshObfuscatedPort | meekServerPort => exact setting_of hPort _ _ hRest
  case meekFrontingDomain | meekFrontingHost | front => exact setting_of hText _ _ hRest
  case capabilities =>
      exact setting_of (undoes_capability.list (solid_name Capability.name)) _ _ hRest
  case connType =>
      exact setting_of (undoes_protocol.optional (solid_name Protocol.name)) _ _ hRest

/-! ## Entries -/

/-- Reading a written member copies its field, which no member before it had
set. -/
theorem readMember_printMember (entry onto : Candidate) {field : Field} {seen : List Field}
    (hNew : field ∉ seen) {rest : List Char} (hRest : Delimited rest) :
    ∃ quoted, printMember entry field ++ rest = '"' :: quoted ∧
      readMember seen onto quoted = .ok ((field :: seen, field.copy entry onto), rest) := by
  obtain ⟨quoted, hPrint, hRead⟩ :=
    readQuoted_printText field.key (':' :: (field.print entry ++ rest))
  refine ⟨quoted, ?_, ?_⟩
  · rw [printMember, List.append_assoc, ← hPrint]
    rfl
  · have hColon : passMark ':' (':' :: (field.print entry ++ rest)) =
        .ok (field.print entry ++ rest) := by
      simp [passMark, skipSpace_cons (show isSpace ':' = false by decide)]
    have hNotSeen : seen.contains field = false := by simpa using hNew
    simp only [readMember, hRead, ofKey?_key, hNotSeen, hColon,
      readInto_print entry onto field hRest]
    rfl

/-- Reading on in an entry copies all fields that are still to come. -/
theorem readMoreMembers_printMore (entry : Candidate) (due : List Field) :
    ∀ {fuel : Nat} (seen : List Field) (onto : Candidate) (rest : List Char), due.length < fuel →
      (∀ field ∈ due, field ∉ seen) → due.Nodup →
        readMoreMembers fuel seen onto (printMore (printMember entry) due ++ '\x7d' :: rest) =
          .ok (due.foldl (fun onto field => field.copy entry onto) onto, rest) := by
  induction due with
  | nil =>
      intro fuel seen onto rest hFuel _ _
      cases fuel with
      | zero => cases hFuel
      | succ fuel =>
          have hSkip : skipSpace ('\x7d' :: rest) = '\x7d' :: rest := skipSpace_cons (by decide)
          simp [printMore, readMoreMembers, hSkip]
  | cons field due ih =>
      intro fuel seen onto rest hFuel hNew hNodup
      cases fuel with
      | zero => cases hFuel
      | succ fuel =>
          obtain ⟨hOther, hDue⟩ := List.nodup_cons.mp hNodup
          have hText : printMore (printMember entry) (field :: due) ++ '\x7d' :: rest = ',' ::
              (printMember entry field ++
                (printMore (printMember entry) due ++ '\x7d' :: rest)) := by
            simp [printMore]
          obtain ⟨quoted, hPrint, hRead⟩ := readMember_printMember entry onto
            (hNew field List.mem_cons_self)
            (delimited_printMore (printMember entry) due (.inr rfl) rest)
          have hMore := ih (field :: seen) (field.copy entry onto) rest
            (Nat.lt_of_succ_lt_succ hFuel) ?_ hDue
          · rw [hText, readMoreMembers, skipSpace_cons (by decide)]
            simp only [hPrint, skipSpace_cons (show isSpace '"' = false by decide), hRead, hMore]
            rfl
          · intro other hMem
            rw [List.mem_cons, not_or]
            exact ⟨fun hSame => hOther (hSame ▸ hMem), hNew other (List.mem_cons_of_mem _ hMem)⟩

/-- A written entry is read back, whatever follows it. -/
theorem readEntry_printEntry (entry : Candidate) (rest : List Char) :
    readEntry (printEntry entry ++ rest) = .ok (entry, rest) := by
  obtain ⟨first, due, hAll⟩ : ∃ first due, Field.all = first :: due := ⟨_, _, rfl⟩
  have hNodup : (first :: due).Nodup := hAll ▸ (by decide : Field.all.Nodup)
  obtain ⟨hOther, hDue⟩ := List.nodup_cons.mp hNodup
  have hText : printEntry entry ++ rest = '\x7b' :: (printMember entry first ++
      (printMore (printMember entry) due ++ '\x7d' :: rest)) := by
    simp [printEntry, hAll, printItems_cons]
  have hNew : first ∉ [] := List.not_mem_nil
  obtain ⟨quoted, hPrint, hRead⟩ := readMember_printMember entry {} hNew
    (delimited_printMore (printMember entry) due (.inr rfl) rest)
  have hMore := readMoreMembers_printMore entry due [first] (first.copy entry {}) rest
    (length_printMore (printMember entry) due '\x7d' rest)
    (fun field hMem hSame => hOther (List.mem_singleton.mp hSame ▸ hMem)) hDue
  have hCopies : due.foldl (fun onto field => field.copy entry onto) (first.copy entry {}) =
      entry := by
    have hWhole := copy_all entry
    rwa [hAll] at hWhole
  rw [hText, readEntry, skipSpace_cons (by decide)]
  simp only [readObject, hPrint, skipSpace_cons (show isSpace '"' = false by decide), hRead, hMore,
    hCopies]

theorem undoes_entry : Undoes readEntry printEntry :=
  fun entry rest _ => readEntry_printEntry entry rest

theorem solid_entry : Solid printEntry :=
  fun entry => ⟨'\x7b', printItems (printMember entry) Field.all ++ ['\x7d'], rfl, by decide⟩

theorem readEntries_printEntries (entries : List Candidate) :
    readEntries (printEntries entries) = .ok entries := by
  have hRead := readList_printList undoes_entry solid_entry entries []
  rw [List.append_nil] at hRead
  rw [readEntries, printEntries, String.toList_ofList, hRead]
  rfl

end RelayRace.Json

namespace RelayRace.ServerList

/-- Whatever the entries of a list are, the list that is read from their written
form has exactly these entries. -/
theorem ofJson_toJson (list : ServerList) :
    ofJson list.toJson = .ok { entries := list.entries } := by
  rw [ofJson, toJson, Json.readEntries_printEntries]

end RelayRace.ServerList
