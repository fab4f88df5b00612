import Mathlib.Data.Option.NAry
import RelayRace.Proofs.ServerList

/-!
# The list after winners were brought to its front

The winners of a round are looked for by their addresses.  Winners may be unknown
or repeated, and the list may have several entries of one address, so what is
moved is told for each distinct address among the winners (`leads`): the first
entry with it goes to the front, with what the first winner with it wrote back.
All others stay in their order, and nothing but these two fields of the moved
entries changes (`BroughtForward`).

That describes the new list by the old one, so it also describes what happens
when the same winners are brought to the front once more: the same pairs are
found in front already, and nothing changes.
-/

namespace RelayRace

namespace Candidate

/-- Taking over the same fields once more changes nothing. -/
theorem takeWrittenBack_takeWrittenBack (entry winner : Candidate) :
    (entry.takeWrittenBack winner).takeWrittenBack winner = entry.takeWrittenBack winner := by
  simp only [takeWrittenBack, ← Option.or_assoc, Option.or_self]

end Candidate

namespace ServerList

/-! ## What is moved -/

/-- For each distinct address of a winner that some entry has, in the order in
which these addresses first appear among the winners: the first entry with it and
the first winner with it. -/
def leads (entries winners : List Candidate) : List (Candidate × Candidate) :=
  (winners.map Candidate.ipAddress).eraseDups.filterMap fun address =>
    Option.map₂ Prod.mk (firstAt entries address) (firstAt winners address)

/-- How a list stands after some winners were brought to its front. -/
structure BroughtForward (before winners after : List Candidate) : Prop where
  /-- The entries of the winners are in front, each with the protocol and the
  front that its winner wrote back, where it wrote them.  Behind them are the
  others, unchanged and in their old order. -/
  order : after =
    (leads before winners).map (fun (entry, winner) =>
      { entry with
        connType := winner.connType.or entry.connType
        front := winner.front.or entry.front }) ++
      before.diff ((leads before winners).map Prod.fst)
  /-- No address is lost, added or doubled. -/
  addresses : (after.map Candidate.ipAddress).Perm (before.map Candidate.ipAddress)

/-! ## From one winner after the other -/

theorem firstAt_of_mem_firstOfEach {winners : List Candidate} {winner : Candidate}
    (hMem : winner ∈ firstOfEach winners) : firstAt winners winner.ipAddress = some winner := by
  induction winners with
  | nil => exact absurd hMem List.not_mem_nil
  | cons first rest ih =>
      rw [firstOfEach] at hMem
      rcases List.mem_cons.mp hMem with rfl | hRest
      · exact List.find?_cons_of_pos (beq_iff_eq.mpr rfl)
      · obtain ⟨hWinner, hOther⟩ := List.mem_filter.mp hRest
        have hBeq : (first.ipAddress == winner.ipAddress) = false := by
          rw [Bool.beq_comm]
          simpa [Candidate.sameServer] using hOther
        rw [firstAt, List.find?_cons, hBeq]
        exact ih hWinner

theorem map_ipAddress_firstOfEach (winners : List Candidate) :
    (firstOfEach winners).map Candidate.ipAddress =
      (winners.map Candidate.ipAddress).eraseDups := by
  induction winners with
  | nil => rfl
  | cons winner rest ih =>
      rw [firstOfEach, List.map_cons, List.map_cons, List.eraseDups_cons, eraseDups_filter, ← ih,
        List.filter_map]
      rfl

/-- The moved entries, pair for pair. -/
theorem moved_eq (entries winners : List Candidate) :
    moved entries winners =
      (leads entries winners).map fun (entry, winner) => entry.takeWrittenBack winner := by
  rw [leads, ← map_ipAddress_firstOfEach, List.filterMap_map, List.map_filterMap, moved]
  refine List.filterMap_congr fun winner hMem => ?_
  rw [Function.comp_apply, firstAt_of_mem_firstOfEach hMem, Option.map₂_coe_right, Option.map_map]
  rfl

/-- The moved entries, address for address. -/
theorem moved_eq_filterMap (entries winners : List Candidate) :
    moved entries winners = (winners.map Candidate.ipAddress).eraseDups.filterMap fun address =>
      Option.map₂ Candidate.takeWrittenBack (firstAt entries address)
        (firstAt winners address) := by
  rw [moved_eq, leads, List.map_filterMap]
  refine List.filterMap_congr fun address _ => ?_
  rw [Option.map_map₂]

/-- The entries that are moved, as they were before. -/
theorem map_fst_leads (entries winners : List Candidate) :
    (leads entries winners).map Prod.fst =
      (winners.map Candidate.ipAddress).eraseDups.filterMap (firstAt entries) := by
  rw [leads, List.map_filterMap]
  refine List.filterMap_congr fun address hMem => ?_
  obtain ⟨winner, hWinner⟩ := exists_firstAt (List.mem_eraseDups.mp hMem)
  rw [hWinner, Option.map₂_coe_right, Option.map_map]
  exact Option.map_id'

/-- Leaving out the first entry of each of some distinct addresses. -/
theorem remaining_eq_diff : ∀ (addresses : List String) (entries : List Candidate),
    addresses.Nodup → remaining addresses entries =
      entries.diff (addresses.filterMap (firstAt entries))
  | [], entries, _ => remaining_nil entries
  | address :: rest, entries, hDistinct => by
      obtain ⟨hNew, hRest⟩ := List.nodup_cons.mp hDistinct
      have hLeft : remaining (address :: rest) entries =
          remaining rest (entries.eraseP fun entry => entry.ipAddress == address) :=
        remaining_cons (.ofAddress address) entries hNew
      have hOthers : rest.filterMap
          (firstAt (entries.eraseP fun entry => entry.ipAddress == address)) =
            rest.filterMap (firstAt entries) := by
        refine List.filterMap_congr fun other hOther => find?_eraseP_of_apart ?_ entries
        intro entry hSame
        have hNe : address ≠ other := fun hEq => hNew (hEq ▸ hOther)
        rw [beq_iff_eq.mp hSame]
        exact beq_eq_false_iff_ne.mpr hNe
      rw [hLeft, remaining_eq_diff rest _ hRest, hOthers]
      cases hFirst : firstAt entries address with
      | none =>
          rw [List.filterMap_cons_none hFirst,
            List.eraseP_of_forall_not (List.find?_eq_none.mp hFirst)]
      | some found =>
          rw [List.filterMap_cons_some hFirst, List.diff_cons, erase_of_find? hFirst]

theorem broughtForward (list : ServerList) (winners : List Candidate) :
    BroughtForward list.entries winners (list.moveToFront winners).entries where
  order := by
    have hRemaining : remaining (winners.map Candidate.ipAddress) list.entries =
        remaining (winners.map Candidate.ipAddress).eraseDups list.entries :=
      remaining_congr list.entries fun entry _ => List.mem_eraseDups.symm
    rw [entries_moveToFront, moved_eq, hRemaining, remaining_eq_diff _ _ (nodup_eraseDups _),
      map_fst_leads]
    rfl
  addresses := addresses_moveOnto winners [] list.entries

/-! ## Once more -/

/-- Looking among entries that were made for one address each. -/
theorem firstAt_filterMap {make : String → Option Candidate}
    (hMake : ∀ address entry, make address = some entry → entry.ipAddress = address)
    (address : String) (addresses : List String) :
    firstAt (addresses.filterMap make) address =
      if address ∈ addresses then make address else none := by
  induction addresses with
  | nil => rfl
  | cons first rest ih =>
      cases hMade : make first with
      | none =>
          rw [List.filterMap_cons_none hMade, ih]
          by_cases hFirst : address = first
          · simp [hFirst, hMade]
          · simp [hFirst]
      | some entry =>
          have hEntry := hMake first entry hMade
          rw [List.filterMap_cons_some hMade, firstAt, List.find?_cons, hEntry]
          by_cases hFirst : address = first
          · simp [hFirst, hMade]
          · have hBeq : (first == address) = false := by simpa using fun h => hFirst h.symm
            rw [hBeq, if_congr (List.mem_cons.trans (or_iff_right hFirst)) rfl rfl]
            exact ih

namespace BroughtForward

variable {before winners after : List Candidate}

theorem order_eq (hForward : BroughtForward before winners after) :
    after = moved before winners ++ before.diff ((leads before winners).map Prod.fst) := by
  rw [moved_eq]
  exact hForward.order

/-- The first entry of a winner's address is the one that was moved. -/
theorem firstAt_eq (hForward : BroughtForward before winners after) {address : String}
    (hMem : address ∈ winners.map Candidate.ipAddress) :
    firstAt after address =
      Option.map₂ Candidate.takeWrittenBack (firstAt before address)
        (firstAt winners address) := by
  have hMake : ∀ address entry,
      Option.map₂ Candidate.takeWrittenBack (firstAt before address) (firstAt winners address) =
        some entry → entry.ipAddress = address := by
    intro address entry hEntry
    obtain ⟨old, winner, hOld, -, rfl⟩ := Option.map₂_eq_some_iff.mp hEntry
    have hAddress : old.ipAddress = address := ipAddress_of_firstAt hOld
    exact hAddress
  rw [hForward.order_eq, firstAt_append, moved_eq_filterMap, firstAt_filterMap hMake,
    if_pos (List.mem_eraseDups.mpr hMem)]
  cases hOld : firstAt before address with
  | some old =>
      obtain ⟨winner, hWinner⟩ := exists_firstAt hMem
      rw [hWinner]
      rfl
  | none =>
      -- Nobody has the address, neither in front nor among the others.
      rw [Option.map₂_none_left, Option.none_or, firstAt_eq_none]
      intro hLeft
      refine firstAt_eq_none.mp hOld ?_
      exact ((List.diff_sublist _ _).map Candidate.ipAddress).subset hLeft

/-- Once more the same entries are found, with what they took over. -/
theorem leads_eq (hForward : BroughtForward before winners after) :
    leads after winners = (leads before winners).map fun (entry, winner) =>
      (entry.takeWrittenBack winner, winner) := by
  rw [leads, leads, List.map_filterMap]
  refine List.filterMap_congr fun address hMem => ?_
  have hWinners := List.mem_eraseDups.mp hMem
  obtain ⟨winner, hWinner⟩ := exists_firstAt hWinners
  rw [hForward.firstAt_eq hWinners, hWinner, Option.map₂_coe_right, Option.map₂_coe_right,
    Option.map₂_coe_right, Option.map_map, Option.map_map]
  rfl

/-- Nothing changes any more. -/
theorem again_eq (hForward : BroughtForward before winners after) {again : List Candidate}
    (hAgain : BroughtForward after winners again) : again = after := by
  have hFound : (leads after winners).map Prod.fst = moved before winners := by
    rw [hForward.leads_eq, List.map_map, moved_eq]
    rfl
  have hMoved : moved after winners = moved before winners := by
    rw [moved_eq, moved_eq, hForward.leads_eq, List.map_map]
    refine List.map_congr_left fun (entry, winner) _ => ?_
    exact Candidate.takeWrittenBack_takeWrittenBack entry winner
  have hRest : after.diff (moved before winners) =
      before.diff ((leads before winners).map Prod.fst) := by
    rw [hForward.order_eq, append_diff_self]
  calc again
      = moved after winners ++ after.diff ((leads after winners).map Prod.fst) := hAgain.order_eq
    _ = moved before winners ++ before.diff ((leads before winners).map Prod.fst) := by
        rw [hMoved, hFound, hRest]
    _ = after := hForward.order_eq.symm

end BroughtForward

/-- Bringing winners to the front, whoever they are and whatever is stored: the
first entry of each of their addresses is moved, in the order in which these
first appear among the winners; nothing but the two fields that were written back
changes; and bringing the same winners to the front once more changes nothing. -/
theorem moveToFront_brings_forward (list : ServerList) (winners : List Candidate) :
    BroughtForward list.entries winners (list.moveToFront winners).entries ∧
      list.moveToFront winners =
        { list with entries := (list.moveToFront winners).entries } ∧
      (list.moveToFront winners).moveToFront winners = list.moveToFront winners := by
  have hForward := broughtForward list winners
  have hAgain := broughtForward (list.moveToFront winners) winners
  refine ⟨hForward, rfl, ?_⟩
  calc (list.moveToFront winners).moveToFront winners
      = { list with entries := ((list.moveToFront winners).moveToFront winners).entries } := rfl
    _ = list.moveToFront winners := by rw [hForward.again_eq hAgain]; rfl

example :
    (moveToFront { entries := [.ofAddress "a", .ofAddress "b", .ofAddress "c", .ofAddress "b"] }
      [.ofAddress "c", .ofAddress "x", .ofAddress "b", .ofAddress "c"]).addresses =
        ["c", "b", "a", "b"] := by
  decide +kernel

end ServerList

end RelayRace
