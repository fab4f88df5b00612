import RelayRace.Proofs.Selection.Conclusion

/-!
# The order of preference

The responders of a round are sorted by their dispatch index, shuffled, and the
server that stood first in the stored list is brought to the front.  Dispatch
indices are distinct, so there is one order of dispatch (`InDispatchOrder`), and
`StickyOrder` tells from it what the three steps come to: the shuffled order,
with one outcome taken out of its place and put before the others.

A server is known by its address.  Several responders may share the address of
the one that stood first; then the one among them that the shuffle put first is
preferred.
-/

namespace RelayRace

/-! ## The order of dispatch -/

/-- Whether some outcomes are the given responders in the order in which these
were dispatched. -/
structure InDispatchOrder (dispatched responders : List Outcome) : Prop where
  perm : dispatched.Perm responders
  ascending : dispatched.Pairwise fun a b => a.index < b.index

/-- There is no second order of dispatch. -/
theorem InDispatchOrder.unique {left right responders : List Outcome}
    (hLeft : InDispatchOrder left responders) (hRight : InDispatchOrder right responders) :
    left = right := by
  refine List.Perm.eq_of_pairwise (fun a b _ _ hAB hBA => ?_) hLeft.ascending hRight.ascending
    (hLeft.perm.trans hRight.perm.symm)
  omega

/-- Sorting by distinct dispatch indices yields the order of dispatch. -/
theorem inDispatchOrder_mergeSort {responders : List Outcome}
    (hDistinct : (responders.map Outcome.index).Nodup) :
    InDispatchOrder (responders.mergeSort dispatchedBefore) responders := by
  have hPerm := List.mergeSort_perm responders dispatchedBefore
  have hSorted : (responders.mergeSort dispatchedBefore).Pairwise
      fun a b => dispatchedBefore a b = true := by
    refine List.pairwise_mergeSort (fun a b c hAB hBC => ?_) (fun a b => ?_) responders
    · simp only [dispatchedBefore, decide_eq_true_eq] at hAB hBC ⊢
      omega
    · simp only [dispatchedBefore, Bool.or_eq_true, decide_eq_true_eq]
      omega
  have hApart : (responders.mergeSort dispatchedBefore).Pairwise
      fun a b => a.index ≠ b.index :=
    List.pairwise_map.mp ((hPerm.map Outcome.index).nodup_iff.mpr hDistinct)
  refine ⟨hPerm, (hSorted.and hApart).imp fun {a b} hBoth => ?_⟩
  obtain ⟨hBefore, hNe⟩ := hBoth
  simp only [dispatchedBefore, decide_eq_true_eq] at hBefore
  omega

/-! ## The preferred server -/

section

variable {α : Type} {test : α → Bool} {entries : List α}

/-- The first match is taken out of its place, and the others stay in order. -/
theorem exists_firstToFront (hSome : ∃ entry ∈ entries, test entry = true) :
    ∃ before best after, entries = before ++ best :: after ∧
      (∀ entry ∈ before, ¬(test entry = true)) ∧ test best = true ∧
        firstToFront test entries = best :: (before ++ after) := by
  obtain ⟨best, hFind⟩ := Option.isSome_iff_exists.mp (List.find?_isSome.mpr hSome)
  obtain ⟨hBest, before, after, rfl, hBefore⟩ := List.find?_eq_some_iff_append.mp hFind
  have hNone : ∀ entry ∈ before, ¬(test entry = true) := by
    intro entry hMem
    simpa using hBefore entry hMem
  refine ⟨before, best, after, rfl, hNone, hBest, ?_⟩
  rw [firstToFront, hFind, List.eraseP_append_right _ hNone, List.eraseP_cons_of_pos hBest]

/-- Without a match nothing is moved. -/
theorem firstToFront_of_none (hNone : ∀ entry ∈ entries, ¬(test entry = true)) :
    firstToFront test entries = entries := by
  rw [firstToFront, List.find?_eq_none.mpr hNone]

end

theorem Outcome.isOf_iff {server : Candidate} {o : Outcome} :
    o.isOf server = true ↔ o.candidate.ipAddress = server.ipAddress := by
  rw [Outcome.isOf, Candidate.sameServer, beq_iff_eq]

/-- The first outcome of a server that responded is put before the others. -/
theorem exists_preferFirst {server : Candidate} {shuffled : List Outcome}
    (hSome : ∃ o ∈ shuffled, o.candidate.ipAddress = server.ipAddress) :
    ∃ before best after, shuffled = before ++ best :: after ∧
      (∀ o ∈ before, o.candidate.ipAddress ≠ server.ipAddress) ∧
        best.candidate.ipAddress = server.ipAddress ∧
          preferFirst (some server) shuffled = best :: (before ++ after) := by
  obtain ⟨o, hMem, hServer⟩ := hSome
  obtain ⟨before, best, after, hShuffled, hBefore, hBest, hFront⟩ :=
    exists_firstToFront ⟨o, hMem, Outcome.isOf_iff.mpr hServer⟩
  refine ⟨before, best, after, hShuffled, fun other hOther hSame => ?_,
    Outcome.isOf_iff.mp hBest, hFront⟩
  exact hBefore other hOther (Outcome.isOf_iff.mpr hSame)

/-- A server that did not respond leaves the order alone. -/
theorem preferFirst_of_nobody {first : Option Candidate} {shuffled : List Outcome}
    (hNobody : ∀ server ∈ first, ∀ o ∈ shuffled, o.candidate.ipAddress ≠ server.ipAddress) :
    preferFirst first shuffled = shuffled := by
  cases first with
  | none => rfl
  | some server =>
      refine firstToFront_of_none fun o hMem hServer => ?_
      exact hNobody server rfl o hMem (Outcome.isOf_iff.mp hServer)

/-! ## The whole order -/

/-- What responders come to that are put in order with the generator `g` after
`first` stood first in the stored list.  `dispatched` are the responders in the
order of dispatch, and `result` is their order of preference with the generator
behind it. -/
structure StickyOrder (g : Generator) (first : Option Candidate)
    (responders dispatched : List Outcome) (result : List Outcome × Generator) : Prop where
  /-- Nobody is lost, added or doubled. -/
  perm : result.1.Perm responders
  /-- Nothing is drawn but what one shuffle draws. -/
  generator : result.2 = (g.shuffle dispatched).2
  /-- If nobody responded for the server that stood first, the order is that of
  the shuffle. -/
  shuffled :
    (∀ server ∈ first, ∀ o ∈ responders, o.candidate.ipAddress ≠ server.ipAddress) →
      result.1 = (g.shuffle dispatched).1
  /-- Otherwise the first of that server in the shuffled order is put before the
  others, which keep that order. -/
  preferred : ∀ server ∈ first,
    (∃ o ∈ responders, o.candidate.ipAddress = server.ipAddress) →
      ∃ before best after, (g.shuffle dispatched).1 = before ++ best :: after ∧
        (∀ o ∈ before, o.candidate.ipAddress ≠ server.ipAddress) ∧
          best.candidate.ipAddress = server.ipAddress ∧
            result.1 = best :: (before ++ after)
  /-- So that server wins whenever it responded, with its only outcome if there
  is one only. -/
  wins : ∀ server ∈ first, ∀ o ∈ responders, o.candidate.ipAddress = server.ipAddress →
    ∃ best losers, result.1 = best :: losers ∧
      best.candidate.ipAddress = server.ipAddress ∧
        ((∀ p ∈ responders, p.candidate.ipAddress = server.ipAddress → p = o) → best = o) ∧
          ∀ list, (Conclusion.award list result.2 result.1).winner = best.select.1

/-- Responders with distinct dispatch indices, in whatever order they arrived and
whatever the state of the generator: their order of preference is that of one
shuffle of the order of dispatch, with the server that stood first in the list
put first if it responded. -/
theorem orderResponders_sticky (g : Generator) (first : Option Candidate)
    {responders : List Outcome} (hDistinct : (responders.map Outcome.index).Nodup) :
    (∃ dispatched, InDispatchOrder dispatched responders) ∧
      ∀ dispatched, InDispatchOrder dispatched responders →
        StickyOrder g first responders dispatched (orderResponders g first responders) := by
  have hSorted := inDispatchOrder_mergeSort hDistinct
  refine ⟨⟨_, hSorted⟩, fun dispatched hDispatched => ?_⟩
  obtain rfl := hDispatched.unique hSorted
  have hMem : ∀ o, o ∈ (g.shuffle (responders.mergeSort dispatchedBefore)).1 ↔ o ∈ responders :=
    fun o => ((g.perm_shuffle _).trans hSorted.perm).mem_iff
  have hPreferred : ∀ server ∈ first,
      (∃ o ∈ responders, o.candidate.ipAddress = server.ipAddress) →
        ∃ before best after,
          (g.shuffle (responders.mergeSort dispatchedBefore)).1 = before ++ best :: after ∧
            (∀ o ∈ before, o.candidate.ipAddress ≠ server.ipAddress) ∧
              best.candidate.ipAddress = server.ipAddress ∧
                (orderResponders g first responders).1 = best :: (before ++ after) := by
    rintro server rfl ⟨o, hResponder, hServer⟩
    exact exists_preferFirst ⟨o, (hMem o).mpr hResponder, hServer⟩
  exact
    { perm := perm_orderResponders g first responders
      generator := rfl
      shuffled := fun hNobody =>
        preferFirst_of_nobody fun server hFirst o hShuffled =>
          hNobody server hFirst o ((hMem o).mp hShuffled)
      preferred := hPreferred
      wins := by
        intro server hFirst o hResponder hServer
        obtain ⟨before, best, after, hShuffled, -, hBest, hFront⟩ :=
          hPreferred server hFirst ⟨o, hResponder, hServer⟩
        have hBestResponder : best ∈ responders := by
          rw [← hMem, hShuffled]
          exact List.mem_append_right _ List.mem_cons_self
        refine ⟨best, before ++ after, hFront, hBest, fun hOnly => ?_, fun list => ?_⟩
        · exact hOnly best hBestResponder hBest
        · rw [hFront]
          rfl }

namespace Sample

/-- Four outcomes in the order of dispatch, two of them of one server. -/
def dispatched : List Outcome :=
  [{ index := 0, candidate := .ofAddress "a", responded := true },
    { index := 1, candidate := .ofAddress "b", responded := true },
    { index := 2, candidate := .ofAddress "a", responded := true },
    { index := 4, candidate := .ofAddress "c", responded := true }]

end Sample

/-- The outcomes arrive in reverse, and the shuffle puts two others before the
server that stood first: its first outcome is brought before them. -/
theorem sticky_behind_two_others :
    (Sample.dispatched.reverse.map Outcome.index).Nodup ∧
      ((Generator.ofSeed 4).shuffle Sample.dispatched).1.map Outcome.index = [4, 1, 0, 2] ∧
      (orderResponders (.ofSeed 4) (some (.ofAddress "a")) Sample.dispatched.reverse).1.map
          Outcome.index = [0, 4, 1, 2] ∧
      StickyOrder (.ofSeed 4) (some (.ofAddress "a")) Sample.dispatched.reverse Sample.dispatched
        (orderResponders (.ofSeed 4) (some (.ofAddress "a")) Sample.dispatched.reverse) := by
  have hDistinct : (Sample.dispatched.reverse.map Outcome.index).Nodup := by decide +kernel
  have hDispatched : InDispatchOrder Sample.dispatched Sample.dispatched.reverse :=
    ⟨(List.reverse_perm _).symm, by decide +kernel⟩
  have hSorted : Sample.dispatched.reverse.mergeSort dispatchedBefore = Sample.dispatched :=
    (inDispatchOrder_mergeSort hDistinct).unique hDispatched
  refine ⟨hDistinct, by decide +kernel, ?_,
    (orderResponders_sticky (.ofSeed 4) (some (.ofAddress "a")) hDistinct).2 _ hDispatched⟩
  rw [orderResponders, hSorted]
  decide +kernel

end RelayRace
