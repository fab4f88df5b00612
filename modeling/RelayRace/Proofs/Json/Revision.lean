import Mathlib.Logic.Relation
import RelayRace.Proofs.Json.EntryMeaning

/-!
# Objects that write the same entry

An object writes an entry if each of its members tells one of the entry's fields or
has a key that no field has, no field being told twice, and if the fields that it
leaves out are empty in the entry (`Writes`).  Neither the order of the members nor
what stands under the other keys matters, so an object may be revised (`Revises`)
and still writes the entry.
-/

namespace RelayRace.Json

/-! ## Parts of entries -/

/-- A field is copied whatever the entry holds in the other fields. -/
theorem copy_copy (field other : Field) (entry onto more : Candidate) :
    field.copy (other.copy entry onto) more =
      if field = other then field.copy entry more else field.copy onto more := by
  cases field <;> cases other <;> rfl

theorem copy_empty (field : Field) : field.copy {} {} = {} := by
  cases field <;> rfl

/-- An entry is known by its fields. -/
theorem eq_of_copies {entry other : Candidate}
    (hSame : ∀ field : Field, field.copy entry {} = field.copy other {}) : entry = other := by
  have hCopy : (fun (onto : Candidate) (field : Field) => field.copy entry onto) =
      fun onto field => field.copy other onto := by
    funext onto field
    have hFields := congrArg (field.copy · onto) (hSame field)
    simpa [copy_copy] using hFields
  rw [← copy_all entry, hCopy, copy_all]

/-- Copying some fields leaves the other ones as they were. -/
theorem copy_foldl (field : Field) (entry : Candidate) (fields : List Field) (onto : Candidate) :
    field.copy (fields.foldl (fun onto field => field.copy entry onto) onto) {} =
      if field ∈ fields then field.copy entry {} else field.copy onto {} := by
  induction fields generalizing onto with
  | nil => simp
  | cons other fields ih =>
      rw [List.foldl_cons, ih, copy_copy]
      by_cases hHere : field = other <;> simp [hHere]

/-! ## Members -/

/-- The field whose key a member has. -/
def Member.field? (member : Member Value) : Option Field :=
  (spelled member.key).bind Field.ofKey?

/-- The key of a member is a text that no field has. -/
def Member.Unknown (member : Member Value) : Prop :=
  ∃ key, spelled member.key = some key ∧ Field.ofKey? key = none

/-- The fields that some members have, in order. -/
def fieldsOf (members : List (Member Value)) : List Field := members.filterMap Member.field?

theorem Member.Unknown.field? {member : Member Value} (hUnknown : member.Unknown) :
    member.field? = none := by
  obtain ⟨key, hKey, hNone⟩ := hUnknown
  rw [Member.field?, hKey, Option.bind_some, hNone]

theorem fieldsOf_cons (member : Member Value) (members : List (Member Value)) :
    fieldsOf (member :: members) = member.field?.toList ++ fieldsOf members := by
  cases hField : member.field? <;> simp [fieldsOf, hField]

/-- A member that is taken has the key of no field, or sets a field that was not
set. -/
theorem takeMember_cases {seen : List Field} {onto : Candidate} {member : Member Value}
    {taken : List Field × Candidate} (hTake : takeMember (seen, onto) member = some taken) :
    (member.field? = none ∧ taken = (seen, onto)) ∨
      ∃ field told, member.field? = some field ∧ field ∉ seen ∧
        field.told? member.slot.value = some told ∧
        taken = (field :: seen, field.copy told onto) := by
  obtain ⟨key, hKey, hTake⟩ := Option.bind_eq_some_iff.mp hTake
  have hField : member.field? = Field.ofKey? key := by rw [Member.field?, hKey, Option.bind_some]
  cases hFound : Field.ofKey? key with
  | none =>
      simp only [hFound, Option.some.injEq] at hTake
      exact .inl ⟨hField.trans hFound, hTake.symm⟩
  | some field =>
      simp only [hFound] at hTake
      by_cases hSeen : field ∈ seen
      · simp [hSeen] at hTake
      · simp only [hSeen, if_false, Field.put?, Option.map_map] at hTake
        obtain ⟨told, hTold, hTaken⟩ := Option.map_eq_some_iff.mp hTake
        exact .inr ⟨field, told, hField.trans hFound, hSeen, hTold, hTaken.symm⟩

/-- No field is set twice. -/
theorem nodup_of_takeMembers {members : List (Member Value)} {seen : List Field}
    {onto : Candidate} {taken : List Field × Candidate}
    (hTake : takeMembers (seen, onto) members = some taken) :
    (fieldsOf members).Nodup ∧ ∀ field ∈ fieldsOf members, field ∉ seen := by
  induction members generalizing seen onto with
  | nil => simp [fieldsOf]
  | cons member members ih =>
      rw [takeMembers_cons] at hTake
      obtain ⟨next, hNext, hTake⟩ := Option.bind_eq_some_iff.mp hTake
      rw [fieldsOf_cons]
      obtain ⟨hField, rfl⟩ | ⟨field, told, hField, hNew, -, rfl⟩ := takeMember_cases hNext
      · simpa [hField] using ih hTake
      · obtain ⟨hNodup, hApart⟩ := ih hTake
        simp only [hField, Option.toList_some, List.singleton_append, List.nodup_cons,
          List.forall_mem_cons]
        refine ⟨⟨fun hMem => hApart field hMem List.mem_cons_self, hNodup⟩, hNew, ?_⟩
        exact fun other hMem hSeen => hApart other hMem (List.mem_cons_of_mem field hSeen)

/-- An object in which the key of a field is repeated tells of no entry. -/
theorem object?_repeated {members : List (Member Value)}
    (hRepeated : ¬ (fieldsOf members).Nodup) : object? members = none := by
  cases hTake : takeMembers ([], {}) members with
  | none => rw [object?, hTake, Option.map_none]
  | some taken => exact absurd (nodup_of_takeMembers hTake).1 hRepeated

/-! ## Objects that write an entry -/

/-- The members write the entry: all that they say is true of it, and what they leave
out is empty in it. -/
structure Writes (members : List (Member Value)) (entry : Candidate) : Prop where
  said : ∀ member ∈ members, member.Unknown ∨
    ∃ field, member.field? = some field ∧
      field.told? member.slot.value = some (field.copy entry {})
  once : (fieldsOf members).Nodup
  leftOut : ∀ field, field ∉ fieldsOf members → field.copy entry {} = {}

/-- What the members of an object that writes an entry set is copied from the
entry. -/
theorem takeMembers_said {entry : Candidate} {members : List (Member Value)} :
    ∀ {seen : List Field} (onto : Candidate),
      (∀ member ∈ members, member.Unknown ∨ ∃ field, member.field? = some field ∧
        field.told? member.slot.value = some (field.copy entry {})) →
      (fieldsOf members).Nodup → (∀ field ∈ fieldsOf members, field ∉ seen) →
        (takeMembers (seen, onto) members).map Prod.snd =
          some ((fieldsOf members).foldl (fun onto field => field.copy entry onto) onto) := by
  induction members with
  | nil =>
      intro seen onto _ _ _
      rfl
  | cons member members ih =>
      intro seen onto hSaid hOnce hNew
      have hMore := fun other hMem => hSaid other (List.mem_cons_of_mem member hMem)
      rw [takeMembers_cons]
      obtain ⟨key, hKey, hNone⟩ | ⟨field, hField, hTold⟩ := hSaid member List.mem_cons_self
      · have hField : member.field? = none := Member.Unknown.field? ⟨key, hKey, hNone⟩
        rw [fieldsOf_cons, hField, Option.toList_none, List.nil_append] at hOnce hNew ⊢
        rw [takeMember, hKey, Option.bind_some, hNone]
        exact ih onto hMore hOnce hNew
      · obtain ⟨key, hKey, hFound⟩ := Option.bind_eq_some_iff.mp hField
        rw [fieldsOf_cons, hField, Option.toList_some, List.singleton_append] at hOnce hNew ⊢
        obtain ⟨hOther, hRest⟩ := List.nodup_cons.mp hOnce
        have hHere : field ∉ seen := hNew field List.mem_cons_self
        have hPut : field.put? onto member.slot.value = some (field.copy entry onto) := by
          simp [Field.put?, hTold, copy_copy]
        simp only [takeMember, hKey, Option.bind_some, hFound, hHere, if_false, hPut,
          Option.map_some]
        refine ih (field.copy entry onto) hMore hRest fun other hMem hSeen => ?_
        obtain rfl | hSeen := List.mem_cons.mp hSeen
        · exact hOther hMem
        · exact hNew other (List.mem_cons_of_mem field hMem) hSeen

/-- An object that writes an entry is read as that entry. -/
theorem Writes.object? {members : List (Member Value)} {entry : Candidate}
    (hWrites : Writes members entry) : object? members = some entry := by
  have hTake := takeMembers_said {} hWrites.said hWrites.once
    fun field _ hSeen => List.not_mem_nil hSeen
  rw [Json.object?, hTake]
  refine congrArg some (eq_of_copies fun field => ?_)
  rw [copy_foldl]
  split
  · rfl
  · next hLeftOut => rw [hWrites.leftOut field hLeftOut, copy_empty]

/-- One change to the members of an object that changes nothing of what they say. -/
inductive Revises : List (Member Value) → List (Member Value) → Prop where
  /-- The members change places. -/
  | reorder {old new : List (Member Value)} (hPerm : old.Perm new) : Revises old new
  /-- A member is left out whose field is told to be empty. -/
  | leaveOut {front back : List (Member Value)} {member : Member Value} {field : Field}
      (hField : member.field? = some field) (hEmpty : field.told? member.slot.value = some {}) :
      Revises (front ++ member :: back) (front ++ back)
  /-- A member with a key that no field has comes in, whatever its value. -/
  | insert {front back : List (Member Value)} {member : Member Value}
      (hUnknown : member.Unknown) : Revises (front ++ back) (front ++ member :: back)
  /-- A member with a key that no field has goes. -/
  | drop {front back : List (Member Value)} {member : Member Value}
      (hUnknown : member.Unknown) : Revises (front ++ member :: back) (front ++ back)

theorem Writes.perm {old new : List (Member Value)} {entry : Candidate}
    (hWrites : Writes old entry) (hPerm : old.Perm new) : Writes new entry := by
  have hFields : (fieldsOf old).Perm (fieldsOf new) := hPerm.filterMap _
  exact
    { said := fun member hMem => hWrites.said member (hPerm.mem_iff.mpr hMem)
      once := hFields.nodup_iff.mp hWrites.once
      leftOut := fun field hOut =>
        hWrites.leftOut field fun hMem => hOut (hFields.mem_iff.mp hMem) }

theorem writes_cons_unknown {member : Member Value} (hUnknown : member.Unknown)
    (members : List (Member Value)) (entry : Candidate) :
    Writes (member :: members) entry ↔ Writes members entry := by
  have hFields : fieldsOf (member :: members) = fieldsOf members := by
    rw [fieldsOf_cons, hUnknown.field?, Option.toList_none, List.nil_append]
  constructor
  · rintro ⟨hSaid, hOnce, hLeftOut⟩
    rw [hFields] at hOnce hLeftOut
    exact ⟨fun other hMem => hSaid other (List.mem_cons_of_mem member hMem), hOnce, hLeftOut⟩
  · rintro ⟨hSaid, hOnce, hLeftOut⟩
    rw [← hFields] at hOnce hLeftOut
    refine ⟨fun other hMem => ?_, hOnce, hLeftOut⟩
    obtain rfl | hMem := List.mem_cons.mp hMem
    · exact .inl hUnknown
    · exact hSaid other hMem

/-- A field that is told to be empty need not be told. -/
theorem Writes.leaveOut {member : Member Value} {members : List (Member Value)}
    {entry : Candidate} {field : Field} (hWrites : Writes (member :: members) entry)
    (hField : member.field? = some field) (hEmpty : field.told? member.slot.value = some {}) :
    Writes members entry := by
  obtain ⟨hSaid, hOnce, hLeftOut⟩ := hWrites
  rw [fieldsOf_cons, hField, Option.toList_some, List.singleton_append] at hOnce hLeftOut
  refine
    { said := fun other hMem => hSaid other (List.mem_cons_of_mem member hMem)
      once := (List.nodup_cons.mp hOnce).2
      leftOut := fun other hOut => ?_ }
  by_cases hSame : other = field
  · subst hSame
    obtain hUnknown | ⟨told, hTold, hValue⟩ := hSaid member List.mem_cons_self
    · cases hField.symm.trans hUnknown.field?
    · cases hField.symm.trans hTold
      exact Option.some.inj (hValue.symm.trans hEmpty)
  · exact hLeftOut other fun hMem => (List.mem_cons.mp hMem).elim hSame hOut

/-- A revised object still writes the entry. -/
theorem Writes.revise {old new : List (Member Value)} {entry : Candidate}
    (hWrites : Writes old entry) (hRevises : Revises old new) : Writes new entry := by
  cases hRevises with
  | reorder hPerm => exact hWrites.perm hPerm
  | leaveOut hField hEmpty => exact (hWrites.perm List.perm_middle).leaveOut hField hEmpty
  | insert hUnknown =>
      exact ((writes_cons_unknown hUnknown _ entry).mpr hWrites).perm List.perm_middle.symm
  | drop hUnknown =>
      exact (writes_cons_unknown hUnknown _ entry).mp (hWrites.perm List.perm_middle)

theorem Writes.reviseAll {old new : List (Member Value)} {entry : Candidate}
    (hWrites : Writes old entry) (hRevises : Relation.ReflTransGen Revises old new) :
    Writes new entry := by
  induction hRevises with
  | refl => exact hWrites
  | tail _ hStep ih => exact ih.revise hStep

end RelayRace.Json
