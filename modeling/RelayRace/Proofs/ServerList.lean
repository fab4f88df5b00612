import Mathlib.Data.List.Basic
import RelayRace.Proofs.FirstMatch
import RelayRace.ServerList

/-!
# What moving to the front does to the list

`moveOnto` goes through the winners one after the other and takes each one's
entry out of what is left of the list.  The result is described here at once,
without the intermediate lists: the entries that are moved (`moved`), one for
each distinct address among the winners that is in the list, and behind them the
entries that are left (`remaining`), in the order that they had.
-/

namespace RelayRace

namespace ServerList

/-! ## The two parts -/

/-- The winners without those whose address an earlier one has. -/
def firstOfEach : List Candidate → List Candidate
  | [] => []
  | winner :: rest => winner :: (firstOfEach rest).filter fun other => !other.sameServer winner

/-- The first entry with the address of a candidate, with what the candidate
wrote back. -/
def movedEntry (entries : List Candidate) (winner : Candidate) : Option Candidate :=
  (entries.find? fun entry => entry.sameServer winner).map fun entry =>
    entry.takeWrittenBack winner

/-- The moved entries: for each distinct address among the winners the first entry
with it, in the order of the winners. -/
def moved (entries winners : List Candidate) : List Candidate :=
  (firstOfEach winners).filterMap (movedEntry entries)

/-- The entries without the first one of each of the given addresses. -/
def remaining (addresses : List String) : List Candidate → List Candidate
  | [] => []
  | entry :: rest =>
      if entry.ipAddress ∈ addresses then
        remaining (addresses.filter fun address => address != entry.ipAddress) rest
      else entry :: remaining addresses rest

/-! ## Addresses that matter -/

theorem sameServer_iff {a b : Candidate} : a.sameServer b = true ↔ a.ipAddress = b.ipAddress := by
  rw [Candidate.sameServer, beq_iff_eq]

/-- The first entry with an address. -/
def firstAt (entries : List Candidate) (address : String) : Option Candidate :=
  entries.find? fun entry => entry.ipAddress == address

theorem ipAddress_of_firstAt {address : String} {entries : List Candidate} {entry : Candidate}
    (hFirst : firstAt entries address = some entry) : entry.ipAddress = address := by
  have hSame := List.find?_some hFirst
  exact beq_iff_eq.mp hSame

theorem firstAt_eq_none {address : String} {entries : List Candidate} :
    firstAt entries address = none ↔ address ∉ entries.map Candidate.ipAddress := by
  rw [firstAt, List.find?_eq_none, List.mem_map, not_exists]
  refine forall_congr' fun entry => ?_
  rw [beq_iff_eq, not_and]

theorem exists_firstAt {address : String} {entries : List Candidate}
    (hMem : address ∈ entries.map Candidate.ipAddress) :
    ∃ entry, firstAt entries address = some entry := by
  refine Option.ne_none_iff_exists'.mp fun hNone => ?_
  exact firstAt_eq_none.mp hNone hMem

theorem firstAt_nil (address : String) : firstAt [] address = none := rfl

theorem firstAt_cons_same {address : String} {entry : Candidate}
    (hSame : entry.ipAddress = address) {rest : List Candidate} :
    firstAt (entry :: rest) address = some entry :=
  List.find?_cons_of_pos (beq_iff_eq.mpr hSame)

theorem firstAt_cons_other {address : String} {entry : Candidate}
    (hOther : entry.ipAddress ≠ address) {rest : List Candidate} :
    firstAt (entry :: rest) address = firstAt rest address :=
  List.find?_cons_of_neg fun hSame => hOther (beq_iff_eq.mp hSame)

theorem firstAt_append (front entries : List Candidate) (address : String) :
    firstAt (front ++ entries) address = (firstAt front address).or (firstAt entries address) :=
  List.find?_append

/-- Only the addresses of entries matter for what is left. -/
theorem remaining_congr : ∀ (entries : List Candidate) {left right : List String},
    (∀ entry ∈ entries, entry.ipAddress ∈ left ↔ entry.ipAddress ∈ right) →
      remaining left entries = remaining right entries
  | [], _, _, _ => rfl
  | entry :: rest, left, right, hSame => by
      have hEntry := hSame entry List.mem_cons_self
      have hRest : ∀ other ∈ rest, other.ipAddress ∈ left ↔ other.ipAddress ∈ right :=
        fun other hMem => hSame other (List.mem_cons_of_mem _ hMem)
      simp only [remaining]
      by_cases hLeft : entry.ipAddress ∈ left
      · rw [if_pos hLeft, if_pos (hEntry.mp hLeft)]
        refine remaining_congr rest fun other hMem => ?_
        rw [List.mem_filter, List.mem_filter, hRest other hMem]
      · rw [if_neg hLeft, if_neg fun hRight => hLeft (hEntry.mpr hRight)]
        rw [remaining_congr rest hRest]

theorem remaining_nil (entries : List Candidate) : remaining [] entries = entries := by
  induction entries with
  | nil => rfl
  | cons entry rest ih => rw [remaining, if_neg List.not_mem_nil, ih]

/-- Leaving out one more address is leaving out its first entry beforehand. -/
theorem remaining_cons (winner : Candidate) :
    ∀ (entries : List Candidate) {addresses : List String}, winner.ipAddress ∉ addresses →
      remaining (winner.ipAddress :: addresses) entries =
        remaining addresses (entries.eraseP fun entry => entry.sameServer winner)
  | [], _, _ => rfl
  | entry :: rest, addresses, hNew => by
      by_cases hSame : entry.ipAddress = winner.ipAddress
      · have hErase : ((entry :: rest).eraseP fun other => other.sameServer winner) = rest :=
          List.eraseP_cons_of_pos (sameServer_iff.mpr hSame)
        rw [hErase, remaining, if_pos (by rw [hSame]; exact List.mem_cons_self)]
        refine remaining_congr rest fun other _ => ?_
        rw [List.mem_filter, List.mem_cons, bne_iff_ne, hSame]
        constructor
        · rintro ⟨hWinner | hOther, hNe⟩
          · exact absurd hWinner hNe
          · exact hOther
        · intro hOther
          exact ⟨.inr hOther, fun hEq => hNew (hEq ▸ hOther)⟩
      · have hBeq : ¬(entry.sameServer winner = true) := fun h => hSame (sameServer_iff.mp h)
        have hHead : winner.ipAddress ≠ entry.ipAddress := fun h => hSame h.symm
        have hErase : ((entry :: rest).eraseP fun other => other.sameServer winner) =
            entry :: rest.eraseP fun other => other.sameServer winner :=
          List.eraseP_cons_of_neg hBeq
        rw [hErase]
        simp only [remaining, List.mem_cons, hSame, false_or]
        by_cases hMem : entry.ipAddress ∈ addresses
        · rw [if_pos hMem, if_pos hMem, List.filter_cons_of_pos (by simpa using hHead)]
          refine remaining_cons winner rest fun hFiltered => hNew ?_
          exact (List.mem_filter.mp hFiltered).1
        · rw [if_neg hMem, if_neg hMem, remaining_cons winner rest hNew]

/-! ## One winner after the other -/

/-- Whether no entry in front has the address of a candidate. -/
def isNew (front : List Candidate) (winner : Candidate) : Bool :=
  !front.any fun entry => entry.sameServer winner

/-- Taking out the entry of one address does not move the first entry of another. -/
theorem movedEntry_eraseP {winner other : Candidate} (hOther : other.sameServer winner = false)
    (entries : List Candidate) :
    movedEntry (entries.eraseP fun entry => entry.sameServer winner) other =
      movedEntry entries other := by
  have hApart : ∀ entry : Candidate, entry.sameServer winner = true →
      entry.sameServer other = false := by
    intro entry hWinner
    by_cases hSame : entry.sameServer other = true
    · have hEq := (sameServer_iff.mp hSame).symm.trans (sameServer_iff.mp hWinner)
      rw [sameServer_iff.mpr hEq] at hOther
      cases hOther
    · simpa using hSame
  rw [movedEntry, movedEntry, find?_eraseP_of_apart hApart]

/-- A winner without an entry moves nothing, and neither does another of its
address. -/
theorem movedEntry_of_absent {entries : List Candidate} {winner other : Candidate}
    (hAbsent : (entries.find? fun entry => entry.sameServer winner) = none)
    (hSame : other.sameServer winner = true) : movedEntry entries other = none := by
  rw [movedEntry, Option.map_eq_none_iff, List.find?_eq_none]
  intro entry hMem hOther
  refine List.find?_eq_none.mp hAbsent entry hMem ?_
  exact sameServer_iff.mpr ((sameServer_iff.mp hOther).trans (sameServer_iff.mp hSame))

theorem ipAddress_of_find? {entries : List Candidate} {winner entry : Candidate}
    (hFind : (entries.find? fun entry => entry.sameServer winner) = some entry) :
    entry.ipAddress = winner.ipAddress := by
  have hSame := List.find?_some hFind
  exact sameServer_iff.mp hSame

/-- Bringing one entry to the front keeps the addresses. -/
theorem addresses_toFront (front : List Candidate) {entries : List Candidate}
    {winner entry : Candidate}
    (hFind : (entries.find? fun entry => entry.sameServer winner) = some entry) :
    ((front ++ [entry.takeWrittenBack winner] ++
      entries.eraseP fun entry => entry.sameServer winner).map Candidate.ipAddress).Perm
        ((front ++ entries).map Candidate.ipAddress) := by
  have hPerm := (perm_of_find? hFind).map Candidate.ipAddress
  rw [List.append_assoc, List.map_append, List.map_append, List.map_append]
  exact hPerm.append_left _

/-- Winners of an address that has no entry can be left out. -/
theorem filterMap_absent {entries : List Candidate} {winner : Candidate}
    (hAbsent : (entries.find? fun entry => entry.sameServer winner) = none)
    (winners : List Candidate) :
    (winner :: winners.filter fun other => !other.sameServer winner).filterMap
        (movedEntry entries) = winners.filterMap (movedEntry entries) := by
  have hSelf : winner.sameServer winner = true := sameServer_iff.mpr rfl
  rw [List.filterMap_cons_none (movedEntry_of_absent hAbsent hSelf), List.filterMap_filter]
  refine List.filterMap_congr fun other _ => ?_
  by_cases hSame : other.sameServer winner = true
  · simp [hSame, movedEntry_of_absent hAbsent hSame]
  · simp [hSame]

theorem remaining_absent {entries : List Candidate} {winner : Candidate}
    (hAbsent : (entries.find? fun entry => entry.sameServer winner) = none)
    (winners : List Candidate) :
    remaining ((winner :: winners.filter fun other => !other.sameServer winner).map
        Candidate.ipAddress) entries =
      remaining (winners.map Candidate.ipAddress) entries := by
  refine remaining_congr entries fun entry hMem => ?_
  have hOther : entry.ipAddress ≠ winner.ipAddress := fun hEq =>
    List.find?_eq_none.mp hAbsent entry hMem (sameServer_iff.mpr hEq)
  rw [List.map_cons, List.mem_cons, or_iff_right hOther, List.mem_map, List.mem_map]
  constructor
  · rintro ⟨other, hMem, hEq⟩
    exact ⟨other, (List.mem_filter.mp hMem).1, hEq⟩
  · rintro ⟨other, hMem, hEq⟩
    refine ⟨other, List.mem_filter.mpr ⟨hMem, ?_⟩, hEq⟩
    have hNot : ¬(other.sameServer winner = true) := fun hSame =>
      hOther (hEq.symm.trans (sameServer_iff.mp hSame))
    simpa using hNot

section Fresh

variable {front : List Candidate} {winner : Candidate}

/-- A winner that is in front already adds nothing. -/
theorem filter_firstOfEach_known (hKnown : isNew front winner = false) (rest : List Candidate) :
    (firstOfEach (winner :: rest)).filter (isNew front) =
      (firstOfEach rest).filter (isNew front) := by
  rw [firstOfEach, List.filter_cons_of_neg (by simp [hKnown]), List.filter_filter]
  refine List.filter_congr fun other _ => ?_
  by_cases hSame : other.sameServer winner = true
  · have hOther : isNew front other = isNew front winner := by
      simp only [isNew, Candidate.sameServer, sameServer_iff.mp hSame]
    rw [hOther, hKnown]
    rfl
  · simp [hSame]

/-- A new winner comes first, and those of its address behind it add nothing. -/
theorem filter_firstOfEach_new (hNew : isNew front winner = true) (rest : List Candidate) :
    (firstOfEach (winner :: rest)).filter (isNew front) =
      winner :: ((firstOfEach rest).filter (isNew front)).filter fun other =>
        !other.sameServer winner := by
  rw [firstOfEach, List.filter_cons_of_pos hNew, List.filter_filter, List.filter_filter]
  congr 1
  refine List.filter_congr fun other _ => ?_
  exact Bool.and_comm _ _

/-- Once an entry of a winner is in front, the others of its address are known. -/
theorem filter_isNew_append {entry : Candidate} (hSame : entry.ipAddress = winner.ipAddress)
    (winners : List Candidate) :
    winners.filter (isNew (front ++ [entry])) =
      (winners.filter (isNew front)).filter fun other => !other.sameServer winner := by
  rw [List.filter_filter]
  refine List.filter_congr fun other _ => ?_
  have hBeq : entry.sameServer other = other.sameServer winner := by
    rw [Candidate.sameServer, Candidate.sameServer, hSame, Bool.beq_comm]
  simp only [isNew, List.any_append, List.any_cons, List.any_nil, Bool.or_false, Bool.not_or,
    hBeq, Bool.and_comm]

end Fresh

/-- Going through the winners one after the other. -/
theorem moveOnto_eq : ∀ (winners front entries : List Candidate),
    moveOnto front entries winners =
      front ++ ((firstOfEach winners).filter (isNew front)).filterMap (movedEntry entries) ++
        remaining (((firstOfEach winners).filter (isNew front)).map Candidate.ipAddress) entries
  | [], front, entries => by
      simp [moveOnto, firstOfEach, remaining_nil]
  | winner :: rest, front, entries => by
      simp only [moveOnto]
      by_cases hFront : (front.any fun entry => entry.sameServer winner) = true
      · rw [if_pos hFront, moveOnto_eq rest, filter_firstOfEach_known (by simp [isNew, hFront])]
      · have hNew : isNew front winner = true := by simpa [isNew] using hFront
        rw [if_neg hFront, filter_firstOfEach_new hNew]
        generalize hFresh : (firstOfEach rest).filter (isNew front) = fresh
        split
        · rename_i entry hFind
          have hSame := ipAddress_of_find? hFind
          have hMoved : movedEntry entries winner = some (entry.takeWrittenBack winner) := by
            rw [movedEntry, hFind, Option.map_some]
          have hOthers : ∀ other ∈ fresh.filter (fun other => !other.sameServer winner),
              other.sameServer winner = false := by
            intro other hMem
            simpa using (List.mem_filter.mp hMem).2
          rw [moveOnto_eq rest, filter_isNew_append (by exact hSame), hFresh, List.map_cons,
            List.filterMap_cons_some hMoved]
          generalize fresh.filter (fun other => !other.sameServer winner) = others at hOthers
          have hUnknown : winner.ipAddress ∉ others.map Candidate.ipAddress := by
            intro hMem
            obtain ⟨other, hOther, hEq⟩ := List.mem_map.mp hMem
            have hNot := hOthers other hOther
            rw [sameServer_iff.mpr hEq] at hNot
            cases hNot
          rw [remaining_cons winner entries hUnknown]
          have hFound : others.filterMap
              (movedEntry (entries.eraseP fun entry => entry.sameServer winner)) =
              others.filterMap (movedEntry entries) :=
            List.filterMap_congr fun other hMem => movedEntry_eraseP (hOthers other hMem) entries
          rw [hFound]
          simp
        · rename_i hAbsent
          rw [moveOnto_eq rest, hFresh, filterMap_absent hAbsent, remaining_absent hAbsent]

/-! ## The whole list -/

theorem firstOfEach_subset {winners : List Candidate} {winner : Candidate}
    (hMem : winner ∈ firstOfEach winners) : winner ∈ winners := by
  induction winners with
  | nil => exact hMem
  | cons first rest ih =>
      rw [firstOfEach] at hMem
      rcases List.mem_cons.mp hMem with rfl | hRest
      · exact List.mem_cons_self
      · exact List.mem_cons_of_mem _ (ih (List.mem_filter.mp hRest).1)

/-- Every winner's address is one of the kept ones. -/
theorem exists_firstOfEach {winners : List Candidate} {winner : Candidate}
    (hMem : winner ∈ winners) :
    ∃ kept ∈ firstOfEach winners, kept.ipAddress = winner.ipAddress := by
  induction winners with
  | nil => exact absurd hMem List.not_mem_nil
  | cons first rest ih =>
      rw [firstOfEach]
      by_cases hSame : winner.ipAddress = first.ipAddress
      · exact ⟨first, List.mem_cons_self, hSame.symm⟩
      · rcases List.mem_cons.mp hMem with rfl | hRest
        · exact absurd rfl hSame
        · obtain ⟨kept, hKept, hEq⟩ := ih hRest
          refine ⟨kept, List.mem_cons_of_mem _ (List.mem_filter.mpr ⟨hKept, ?_⟩), hEq⟩
          have hNot : ¬(kept.sameServer first = true) := fun hFirst =>
            hSame (hEq.symm.trans (sameServer_iff.mp hFirst))
          simpa using hNot

/-- Moving to the front puts the moved entries before the others, and keeps the
others in their order. -/
theorem entries_moveToFront (list : ServerList) (winners : List Candidate) :
    (list.moveToFront winners).entries =
      moved list.entries winners ++ remaining (winners.map Candidate.ipAddress) list.entries := by
  have hAll : (firstOfEach winners).filter (isNew []) = firstOfEach winners :=
    List.filter_eq_self.mpr fun _ _ => rfl
  show moveOnto [] list.entries winners = _
  rw [moveOnto_eq, hAll, List.nil_append, moved]
  congr 1
  refine remaining_congr list.entries fun entry _ => ?_
  rw [List.mem_map, List.mem_map]
  constructor
  · rintro ⟨winner, hMem, hEq⟩
    exact ⟨winner, firstOfEach_subset hMem, hEq⟩
  · rintro ⟨winner, hMem, hEq⟩
    obtain ⟨kept, hKept, hSame⟩ := exists_firstOfEach hMem
    exact ⟨kept, hKept, hSame.trans hEq⟩

/-- No address is lost, added or doubled. -/
theorem addresses_moveOnto (winners : List Candidate) :
    ∀ front entries : List Candidate,
      ((moveOnto front entries winners).map Candidate.ipAddress).Perm
        ((front ++ entries).map Candidate.ipAddress) := by
  induction winners with
  | nil =>
      intro front entries
      exact .refl _
  | cons winner rest ih =>
      intro front entries
      rw [moveOnto]
      split
      · exact ih front entries
      · split
        · rename_i entry hFind
          exact (ih _ _).trans (addresses_toFront front hFind)
        · exact ih front entries

/-- An entry that is moved differs from its old value in what was written back
only. -/
theorem mem_moved {entries winners : List Candidate} {entry : Candidate}
    (hMem : entry ∈ moved entries winners) :
    ∃ old ∈ entries, ∃ winner ∈ winners,
      old.ipAddress = winner.ipAddress ∧ entry = old.takeWrittenBack winner := by
  obtain ⟨winner, hWinner, hMoved⟩ := List.mem_filterMap.mp hMem
  obtain ⟨old, hFind, hEq⟩ := Option.map_eq_some_iff.mp hMoved
  exact ⟨old, List.mem_of_find?_eq_some hFind, winner, firstOfEach_subset hWinner,
    ipAddress_of_find? hFind, hEq.symm⟩

/-- When every winner has an entry, each distinct address among them is moved. -/
theorem map_ipAddress_moved {entries winners : List Candidate}
    (hKnown : ∀ winner ∈ winners, ∃ entry ∈ entries, entry.ipAddress = winner.ipAddress) :
    (moved entries winners).map Candidate.ipAddress =
      (firstOfEach winners).map Candidate.ipAddress := by
  have hKept : ∀ winner ∈ firstOfEach winners,
      ∃ entry ∈ entries, entry.ipAddress = winner.ipAddress :=
    fun winner hMem => hKnown winner (firstOfEach_subset hMem)
  rw [moved]
  generalize firstOfEach winners = kept at hKept ⊢
  induction kept with
  | nil => rfl
  | cons winner rest ih =>
      obtain ⟨entry, hMem, hSame⟩ := hKept winner List.mem_cons_self
      have hSome : (entries.find? fun entry => entry.sameServer winner).isSome = true :=
        List.find?_isSome.mpr ⟨entry, hMem, sameServer_iff.mpr hSame⟩
      obtain ⟨found, hFind⟩ := Option.isSome_iff_exists.mp hSome
      have hMoved : movedEntry entries winner = some (found.takeWrittenBack winner) := by
        rw [movedEntry, hFind, Option.map_some]
      rw [List.filterMap_cons_some hMoved, List.map_cons, List.map_cons,
        Candidate.takeWrittenBack_ipAddress, ipAddress_of_find? hFind,
        ih fun other hOther => hKept other (List.mem_cons_of_mem _ hOther)]

end ServerList

end RelayRace
