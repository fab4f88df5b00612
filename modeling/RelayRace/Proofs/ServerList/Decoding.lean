import Mathlib.Data.List.Forall2
import RelayRace.Proofs.Json.Written

/-!
# Lists of other versions are read

A saved list may come from another version, which orders the keys in its own way,
leaves some of them out or adds new ones.  What is read from it depends on the
entries that its objects write (`Json.Writes`) and on nothing else; whatever an
object says twice, or a value that is no entry, spoils the whole list.

Since a list is read as its values say (`Json.readEntries_text`), all this is shown
of the values, and no reader is run here.
-/

namespace RelayRace

open Json

/-! ## Lists of values -/

namespace Json

/-- A list says something if each of its values does. -/
theorem saidBy_eq_some {α : Type} {said : Value → Option α} {slots : List (Slot Value)}
    {values : List α} :
    saidBy said slots = some values ↔
      List.Forall₂ (fun slot value => said slot.value = some value) slots values := by
  induction slots generalizing values with
  | nil => cases values <;> simp [saidBy]
  | cons slot slots ih =>
      rw [saidBy_cons, List.forall₂_cons_left_iff]
      simp only [Option.bind_eq_some_iff, Option.map_eq_some_iff, ih]
      constructor
      · rintro ⟨value, hValue, rest, hRest, rfl⟩
        exact ⟨value, rest, hValue, hRest, rfl⟩
      · rintro ⟨value, rest, hValue, hRest, rfl⟩
        exact ⟨value, hValue, rest, hRest, rfl⟩

theorem saidBy_eq_none {α : Type} {said : Value → Option α} {slots : List (Slot Value)} :
    saidBy said slots = none ↔ ∃ slot ∈ slots, said slot.value = none := by
  induction slots with
  | nil => simp [saidBy]
  | cons slot slots ih =>
      rw [saidBy_cons, List.exists_mem_cons_iff, ← ih]
      cases said slot.value <;> simp

end Json

/-! ## Lists that stand alone -/

/-- A JSON list with blanks wherever they may stand. -/
structure Listing where
  before : Gap := {}
  gap : Gap := {}
  slots : List (Slot Value)
  after : Gap := {}

namespace Listing

def text (listing : Listing) : String :=
  String.ofList (slotText ⟨listing.before, .list listing.gap listing.slots, listing.after⟩)

/-- The values of the list are objects that write the entries, one for each. -/
def Writes (listing : Listing) (entries : List Candidate) : Prop :=
  List.Forall₂ (fun slot entry => ∃ gap members, slot.value = .object gap members ∧
    Json.Writes members entry) listing.slots entries

/-- Each object of the list is revised, any number of times. -/
def Revised (old new : Listing) : Prop :=
  List.Forall₂ (fun before after => ∃ gap gap' members members',
    before.value = .object gap members ∧ after.value = .object gap' members' ∧
      Relation.ReflTransGen Revises members members') old.slots new.slots

/-- An object of the list has the key of a field more than once. -/
def Repeats (listing : Listing) : Prop :=
  ∃ slot ∈ listing.slots, ∃ gap members, slot.value = .object gap members ∧
    ¬ (fieldsOf members).Nodup

theorem Writes.revised {old new : Listing} {entries : List Candidate}
    (hWrites : old.Writes entries) (hRevised : old.Revised new) : new.Writes entries := by
  obtain ⟨before, gap, olds, after⟩ := old
  obtain ⟨before', gap', news, after'⟩ := new
  simp only [Writes, Revised] at hWrites hRevised ⊢
  induction hRevised generalizing entries with
  | nil => exact hWrites
  | cons hHead _ ih =>
      cases hWrites with
      | cons hEntry hEntries =>
          refine .cons ?_ (ih hEntries)
          obtain ⟨inner, inner', members, members', hOld, hNew, hRevises⟩ := hHead
          obtain ⟨_, _, hValue, hMembers⟩ := hEntry
          cases hOld.symm.trans hValue
          exact ⟨inner', members', hNew, hMembers.reviseAll hRevises⟩

/-- The list of one value only. -/
def alone (slot : Slot Value) : Listing where
  slots := [slot]

end Listing

namespace ServerList

/-- The list is refused with a failure of the store. -/
def Refuses (text : String) : Prop := ∃ message, ofJson text = .error (.store message)

/-- What is read of a list is what its values say. -/
theorem ofJson_listing (listing : Listing) :
    (∃ entries, saidBy Value.entry? listing.slots = some entries ∧
      ofJson listing.text = .ok { entries }) ∨
    saidBy Value.entry? listing.slots = none ∧ Refuses listing.text := by
  have hRead := readEntries_text ⟨listing.before, .list listing.gap listing.slots, listing.after⟩
  rw [Value.list?] at hRead
  unfold Refuses ofJson Listing.text
  cases hEntries : readEntries _ with
  | ok entries =>
      rw [hEntries] at hRead
      exact .inl ⟨entries, hRead.symm, rfl⟩
  | error fault =>
      rw [hEntries] at hRead
      exact .inr ⟨hRead.symm, _, rfl⟩

/-- One value that tells of no entry spoils the list. -/
theorem refuses_of_mem {listing : Listing} {slot : Slot Value} (hMem : slot ∈ listing.slots)
    (hNone : slot.value.entry? = none) : Refuses listing.text := by
  have hSpoilt := saidBy_eq_none.mpr ⟨slot, hMem, hNone⟩
  obtain ⟨entries, hSaid, -⟩ | ⟨-, hRefuses⟩ := ofJson_listing listing
  · cases hSpoilt.symm.trans hSaid
  · exact hRefuses

theorem ofJson_writes {listing : Listing} {entries : List Candidate}
    (hWrites : listing.Writes entries) : ofJson listing.text = .ok { entries } := by
  have hSaid : saidBy Value.entry? listing.slots = some entries := by
    refine saidBy_eq_some.mpr (hWrites.imp fun slot entry hEntry => ?_)
    obtain ⟨gap, members, hValue, hMembers⟩ := hEntry
    rw [hValue]
    exact hMembers.object?
  obtain ⟨other, hOther, hRead⟩ | ⟨hNone, -⟩ := ofJson_listing listing
  · cases hSaid.symm.trans hOther
    exact hRead
  · cases hSaid.symm.trans hNone

theorem refuses_of_repeats {listing : Listing} (hRepeats : listing.Repeats) :
    Refuses listing.text := by
  obtain ⟨slot, hMem, gap, members, hValue, hRepeated⟩ := hRepeats
  refine refuses_of_mem hMem ?_
  rw [hValue]
  exact object?_repeated hRepeated

/-- Whether a value is an entry does not depend on the list it stands in. -/
theorem refuses_of_alone {listing : Listing} {slot : Slot Value} (hMem : slot ∈ listing.slots)
    (hAlone : Refuses (Listing.alone slot).text) : Refuses listing.text := by
  obtain ⟨entries, -, hRead⟩ | ⟨hNone, -⟩ := ofJson_listing (Listing.alone slot)
  · obtain ⟨message, hRefused⟩ := hAlone
    cases hRead.symm.trans hRefused
  · obtain ⟨other, hOther, hEntry⟩ := saidBy_eq_none.mp hNone
    obtain rfl := List.mem_singleton.mp hOther
    exact refuses_of_mem hMem hEntry

/-- Where an entry is to come and none can be read, the list is refused, whatever
stands in front and behind. -/
theorem refuses_spoilt {cs : List Char} (hOpen : ∀ more, skipSpace cs ≠ ']' :: more)
    (hSpoilt : ∃ fault, readEntry cs = .error fault) (before : Gap)
    (slots : List (Slot Value)) :
    Refuses (String.ofList (before.chars ++ '[' :: leading slots cs)) := by
  obtain ⟨fault, hFault⟩ := readList_spoilt hOpen hSpoilt before slots
  refine ⟨"JSON error: " ++ fault.message, ?_⟩
  rw [ofJson, readEntries, String.toList_ofList, hFault]
  rfl

/-! ## What is read -/

theorem exists_slots (entries : List Candidate) :
    ∃ slots : List (Slot Value), slots.map slotText = entries.map printEntry ∧
      List.Forall₂ (fun slot entry => ∃ gap members, slot.value = .object gap members ∧
        Json.Writes members entry) slots entries := by
  induction entries with
  | nil => exact ⟨[], rfl, .nil⟩
  | cons entry entries ih =>
      obtain ⟨slots, hText, hWrites⟩ := ih
      obtain ⟨members, hObject, hMembers⟩ := exists_object entry
      refine ⟨{ value := .object {} members } :: slots, ?_,
        .cons ⟨{}, members, rfl, hMembers⟩ hWrites⟩
      simp [slotText, hObject, hText]

/-- What is written here is such a list. -/
theorem exists_listing (list : ServerList) :
    ∃ listing : Listing, listing.text = list.toJson ∧ listing.Writes list.entries := by
  obtain ⟨slots, hText, hWrites⟩ := exists_slots list.entries
  refine ⟨{ slots := slots }, ?_, hWrites⟩
  rw [Listing.text, toJson, printEntries, slotText, Value.text, slotsText_eq, printItems_map, hText,
    ← printItems_map, printList]
  simp

/-- How lists are read that other versions have saved.  What is written here is a
list of objects that write the entries (first part).  From such a list the entries are
read, and so they are from every revision of it: the keys of each object in any
order, any of its empty fields left out, any keys that no field has put in with
whatever values (second part).  If an object has the key of a field twice, the list
is refused (third part), and so it is if any of its values is no entry (fourth part)
or a text that cannot be read stands where an entry is to come (fifth part). -/
theorem decodes_revisions :
    (∀ list : ServerList,
      ∃ listing : Listing, listing.text = list.toJson ∧ listing.Writes list.entries) ∧
    (∀ (old new : Listing) (entries : List Candidate), old.Writes entries → old.Revised new →
      ofJson old.text = .ok { entries } ∧ ofJson new.text = ofJson old.text) ∧
    (∀ listing : Listing, listing.Repeats → Refuses listing.text) ∧
    (∀ (listing : Listing) (slot : Slot Value), slot ∈ listing.slots →
      Refuses (Listing.alone slot).text → Refuses listing.text) ∧
    (∀ (before : Gap) (slots : List (Slot Value)) (cs : List Char),
      (∀ more, skipSpace cs ≠ ']' :: more) → (∃ fault, readEntry cs = .error fault) →
        Refuses (String.ofList (before.chars ++ '[' :: leading slots cs))) := by
  refine ⟨exists_listing, ?_, fun _ => refuses_of_repeats, fun _ _ => refuses_of_alone,
    fun before slots _ hOpen hSpoilt => refuses_spoilt hOpen hSpoilt before slots⟩
  intro old new entries hWrites hRevised
  have hOld := ofJson_writes hWrites
  exact ⟨hOld, (ofJson_writes (hWrites.revised hRevised)).trans hOld.symm⟩

namespace Sample

/-- A text of plain characters, each spelled by itself. -/
def spell (text : String) : List Glyph :=
  text.toList.filterMap fun c =>
    if hPlain : 0x20 ≤ c.toNat ∧ c ≠ '"' ∧ c ≠ '\\' then some (.plain c hPlain) else none

def member (key : String) (v : Value) : Member Value where
  key := spell key
  slot := { value := v }

def address : Member Value := member "ip_address" (.quoted (spell "198.51.100.4"))

def noRegion : Member Value := member "region" (.quoted [])

def capabilities : Member Value :=
  member "capabilities" (.list {} [{ value := .quoted (spell "OSSH") }])

/-- The first half of a surrogate pair. -/
def half : CodeUnit where
  first := { value := ⟨13, by decide⟩ }
  second := { value := ⟨8, by decide⟩ }
  third := { value := ⟨0, by decide⟩ }
  fourth := { value := ⟨0, by decide⟩ }

/-- A key that no field has.  In its value a field is told twice, and a surrogate
stands alone. -/
def note : Member Value :=
  member "note" (.object {} [noRegion, member "region" (.quoted [.unit half])])

/-- A list of one object. -/
def listing (members : List (Member Value)) : Listing where
  slots := [{ value := .object {} members }]

example : (listing [note, capabilities, address]).text =
    "[\x7b\"note\":\x7b\"region\":\"\",\"region\":\"\\ud800\"\x7d," ++
      "\"capabilities\":[\"OSSH\"],\"ip_address\":\"198.51.100.4\"\x7d]" := by
  decide

/-- The entry that the objects write. -/
def entry : Candidate where
  ipAddress := "198.51.100.4"
  capabilities := [.ossh]

theorem listing_writes : (listing [address, noRegion, capabilities]).Writes [entry] := by
  have hSaid : ∀ member ∈ [address, noRegion, capabilities], member.Unknown ∨
      ∃ field, member.field? = some field ∧
        field.told? member.slot.value = some (field.copy entry {}) := by
    simp only [List.forall_mem_cons]
    exact ⟨.inr ⟨.ipAddress, by decide⟩, .inr ⟨.region, by decide⟩,
      .inr ⟨.capabilities, by decide⟩, fun _ hMem => absurd hMem List.not_mem_nil⟩
  have hFields : fieldsOf [address, noRegion, capabilities] =
      [.ipAddress, .region, .capabilities] := by
    decide
  refine .cons ⟨{}, _, rfl, hSaid, by decide, fun field hOut => ?_⟩ .nil
  rw [hFields] at hOut
  cases field <;> first | rfl | exact absurd (by decide) hOut

theorem listing_revised :
    (listing [address, noRegion, capabilities]).Revised
      (listing [note, capabilities, address]) := by
  have hRegion : noRegion.field? = some .region := by decide
  have hEmpty : Field.told? noRegion.slot.value .region = some {} := by decide
  have hLeaveOut : Revises ([address] ++ noRegion :: [capabilities])
      ([address] ++ [capabilities]) := .leaveOut hRegion hEmpty
  have hReorder : Revises [address, capabilities] [capabilities, address] :=
    .reorder (.swap capabilities address [])
  have hInsert : Revises ([] ++ [capabilities, address]) ([] ++ note :: [capabilities, address]) :=
    .insert ⟨"note", by decide, by decide⟩
  exact .cons ⟨{}, {}, _, _, rfl, rfl, .head hLeaveOut (.head hReorder (.single hInsert))⟩ .nil

/-- A region that is left out, keys in another order and a note make no difference;
a second region does, and so do a null and a text that is no JSON. -/
theorem note_makes_no_difference :
    ofJson (listing [note, capabilities, address]).text = .ok { entries := [entry] } ∧
    Refuses (listing [address, noRegion, note, noRegion]).text ∧
    Refuses (Listing.text { slots := [{ value := .object {} [address] }, { value := .null }] }) ∧
    Refuses (String.ofList ('[' :: leading [{ value := .object {} [address] }]
      ['\x7b', 'b', 'r', 'o', 'k', 'e', 'n'])) := by
  obtain ⟨-, hRevised, hRepeated, hSpoilt, hBroken⟩ := decodes_revisions
  refine ⟨?_, ?_, ?_, ?_⟩
  · obtain ⟨hOld, hNew⟩ := hRevised _ _ [entry] listing_writes listing_revised
    exact hNew.trans hOld
  · exact hRepeated _ ⟨_, List.mem_singleton_self _, {}, _, rfl, by decide⟩
  · refine hSpoilt _ { value := .null } (by simp) ?_
    exact refuses_of_mem (List.mem_singleton_self _) rfl
  · exact hBroken {} _ _ (fun more hClose => by cases hClose) ⟨_, rfl⟩

end Sample

end ServerList

end RelayRace
