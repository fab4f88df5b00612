import RelayRace.TargetSequence

/-!
# What a target sequence comes round to

A sequence is shared: between any two calls of one caller others may advance it.
Every call is taken as a whole, so whatever several callers do is one list of calls
(`TargetSequence.Use`), and all that a call depends on is the number of advances
before it (`TargetSequence.serveAll_eq`).

The index counts the advances modulo the number of sets.  Any residue is among that
many numbers in a row, so each set has its turn again and again, and with it every
candidate that supports one of its protocols.
-/

namespace RelayRace

/-! ## Supported protocols -/

namespace Candidate

/-- The candidate offers what the protocol needs. -/
def Offers (candidate : Candidate) (protocol : Protocol) : Prop :=
  protocol.requiredCapability ∈ candidate.capabilities ∧
    (protocol = .frontedMeekOssh → ∃ domain, candidate.meekFrontingDomain = some domain)

theorem supports_iff {candidate : Candidate} {protocol : Protocol} :
    candidate.supports protocol = true ↔ candidate.Offers protocol := by
  unfold supports has Offers
  rw [Bool.and_eq_true, List.contains_iff_mem]
  cases protocol <;> simp [Option.isSome_iff_exists]

end Candidate

namespace TargetSequence

variable {sets : List (List Protocol)} {start : TargetSequence}

/-- A choice from a set: the first of its protocols that the candidate supports, and
nothing exactly if it supports none. -/
structure Chosen (set : List Protocol) (candidate : Candidate) (choice : Option Protocol) :
    Prop where
  none_iff : choice = none ↔ ∀ protocol ∈ set, ¬ candidate.Offers protocol
  some_iff : ∀ protocol, choice = some protocol ↔ candidate.Offers protocol ∧
    ∃ before after, set = before ++ protocol :: after ∧
      ∀ earlier ∈ before, ¬ candidate.Offers earlier

theorem chosen_choose (set : List Protocol) (candidate : Candidate) :
    Chosen set candidate (choose set candidate) where
  none_iff := by
    simp only [choose, List.find?_eq_none, Candidate.supports_iff]
  some_iff protocol := by
    simp only [choose, List.find?_eq_some_iff_append, Candidate.supports_iff, Bool.not_eq_true',
      ← Bool.not_eq_true]

/-! ## Sequences that are accepted -/

/-- A list of sets is accepted if there is a set and none is empty, and the sequence
starts at the first one. -/
theorem ofSets_eq_ok_iff :
    ofSets sets = .ok start ↔
      sets ≠ [] ∧ (∀ set ∈ sets, set ≠ []) ∧ start.sets = sets ∧ start.index = 0 := by
  unfold ofSets
  split
  · next index hEmpty =>
      obtain ⟨hIndex, hNil, -⟩ := List.findIdx?_eq_some_iff_getElem.mp hEmpty
      refine iff_of_false (by simp) fun hAccepted => ?_
      exact hAccepted.2.1 sets[index] (List.getElem_mem hIndex) (List.isEmpty_iff.mp hNil)
  · next hNone =>
      split
      · next hSome =>
          have hSets : ∀ set ∈ sets, set ≠ [] := by
            intro set hMem hNil
            have hFull := List.findIdx?_eq_none_iff.mp hNone set hMem
            simp [hNil] at hFull
          obtain ⟨sets', index, hNonempty, hIndex⟩ := start
          simp only [Except.ok.injEq, mk.injEq]
          constructor
          · rintro ⟨rfl, rfl⟩
            exact ⟨List.length_pos_iff.mp hSome, hSets, rfl, rfl⟩
          · rintro ⟨-, -, rfl, rfl⟩
            exact ⟨rfl, rfl⟩
      · next hNothing =>
          refine iff_of_false (by simp) fun hAccepted => ?_
          exact hNothing (List.length_pos_iff.mpr hAccepted.1)

/-- Otherwise it is refused for having no set, or for the first of its sets that is
empty. -/
theorem ofSets_eq_error_iff {fault : TargetFault} :
    ofSets sets = .error fault ↔ sets = [] ∧ fault = .noSets ∨
      ∃ before after, sets = before ++ [] :: after ∧ (∀ set ∈ before, set ≠ []) ∧
        fault = .emptySet before.length := by
  constructor
  · intro hRefused
    unfold ofSets at hRefused
    split at hRefused
    · next index hEmpty =>
        obtain ⟨hIndex, hNil, hFirst⟩ := List.findIdx?_eq_some_iff_getElem.mp hEmpty
        refine .inr ⟨sets.take index, sets.drop (index + 1), ?_, fun set hSet hEmpty => ?_, ?_⟩
        · rw [← List.isEmpty_iff.mp hNil, List.getElem_cons_drop, List.take_append_drop]
        · obtain ⟨place, hPlace, hAt⟩ := List.mem_take_iff_getElem.mp hSet
          refine hFirst place (Nat.lt_of_lt_of_le hPlace (Nat.min_le_left _ _)) ?_
          rw [hAt, hEmpty, List.isEmpty_nil]
        · rw [List.length_take_of_le (Nat.le_of_lt hIndex)]
          exact (Except.error.inj hRefused).symm
    · split at hRefused
      · cases hRefused
      · next hNone =>
          refine .inl ⟨List.length_eq_zero_iff.mp (Nat.eq_zero_of_not_pos hNone), ?_⟩
          exact (Except.error.inj hRefused).symm
  · rintro (⟨rfl, rfl⟩ | ⟨before, after, rfl, hFirst, rfl⟩)
    · rfl
    · have hFull : before.findIdx? List.isEmpty = none :=
        List.findIdx?_eq_none_iff.mpr fun set hSet => by simpa using hFirst set hSet
      have hEmpty : (before ++ [] :: after).findIdx? List.isEmpty = some before.length := by
        simp [List.findIdx?_append, hFull, List.findIdx?_cons]
      unfold ofSets
      split
      · next index hIndex =>
          rw [Option.some.inj (hIndex.symm.trans hEmpty)]
      · next hNone =>
          rw [hNone] at hEmpty
          cases hEmpty

/-! ## Advancing -/

/-- The sequence so many advances later. -/
def later (t : TargetSequence) (advances : Nat) : TargetSequence :=
  { t with
    index := (t.index + advances) % t.sets.length
    index_lt := Nat.mod_lt _ (Nat.lt_of_le_of_lt (Nat.zero_le _) t.index_lt) }

theorem later_zero (t : TargetSequence) : t.later 0 = t := by
  obtain ⟨sets, index, hNonempty, hIndex⟩ := t
  simp only [later, Nat.add_zero, Nat.mod_eq_of_lt hIndex]

theorem advance_later (t : TargetSequence) (advances : Nat) :
    (t.later advances).advance = t.later (advances + 1) := by
  simp only [later, advance, Nat.mod_add_mod, Nat.add_assoc]

/-- Of as many numbers in a row as there are residues, one has the residue that is
asked for. -/
theorem exists_turn {count place : Nat} (hPlace : place < count) (first : Nat) :
    ∃ ahead, ahead < count ∧ (first + ahead) % count = place := by
  have hPositive : 0 < count := Nat.lt_of_le_of_lt (Nat.zero_le _) hPlace
  have hLess := Nat.mod_lt first hPositive
  refine ⟨(place + (count - first % count)) % count, Nat.mod_lt _ hPositive, ?_⟩
  have hRound :
      first + (place + (count - first % count)) = place + count * (first / count + 1) := by
    have hWhole := Nat.div_add_mod first count
    rw [Nat.mul_succ]
    omega
  rw [Nat.add_mod_mod, hRound, Nat.add_mul_mod_self_left, Nat.mod_eq_of_lt hPlace]

/-! ## Calls in any order -/

/-- What callers do with a sequence that they share. -/
inductive Use where
  | advance
  | select (candidate : Candidate)
  | label
  | index

/-- What a call comes to.  An advance tells the log which targets are current then. -/
inductive Answer where
  | rotated (label : String)
  | selected (choice : Option Protocol)
  | labelled (label : String)
  | indexed (index : Nat)

/-- One call. -/
def serve (t : TargetSequence) : Use → TargetSequence × Answer
  | .advance => (t.advance, .rotated t.advance.label)
  | .select candidate => (t, .selected (t.select candidate))
  | .label => (t, .labelled t.label)
  | .index => (t, .indexed t.index)

/-- One call after the other. -/
def serveAll (t : TargetSequence) : List Use → TargetSequence × List Answer
  | [] => (t, [])
  | use :: uses =>
      let (next, answer) := t.serve use
      let (last, answers) := next.serveAll uses
      (last, answer :: answers)

/-- Whether a call advances the sequence. -/
def Use.advances : Use → Bool
  | .advance => true
  | .select _ | .label | .index => false

/-- How many of some calls advance the sequence. -/
def advancesIn (uses : List Use) : Nat := uses.countP Use.advances

theorem serve_later (t : TargetSequence) (advances : Nat) (use : Use) :
    ((t.later advances).serve use).1 = t.later (advances + advancesIn [use]) := by
  cases use with
  | advance => exact t.advance_later advances
  | select candidate | label | index => rfl

/-- After some calls, a sequence is as many advances later as there were among
them. -/
theorem serveAll_later (t : TargetSequence) (advances : Nat) (uses : List Use) :
    ((t.later advances).serveAll uses).1 = t.later (advances + advancesIn uses) := by
  induction uses generalizing advances with
  | nil => rfl
  | cons use uses ih =>
      have hAdvances : advancesIn ([use] ++ uses) = advancesIn [use] + advancesIn uses :=
        List.countP_append
      rw [List.singleton_append] at hAdvances
      simp only [serveAll]
      rw [serve_later, ih, hAdvances, Nat.add_assoc]

theorem serveAll_eq (t : TargetSequence) (uses : List Use) :
    (t.serveAll uses).1 = t.later (advancesIn uses) := by
  have hLater := t.serveAll_later 0 uses
  rwa [later_zero, Nat.zero_add] at hLater

/-- Each call is answered in its turn, by the sequence as it stands then. -/
theorem getElem?_serveAll (t : TargetSequence) (earlier : List Use) (use : Use)
    (rest : List Use) :
    (t.serveAll (earlier ++ use :: rest)).2[earlier.length]? =
      some ((t.serveAll earlier).1.serve use).2 := by
  induction earlier generalizing t with
  | nil => rfl
  | cons first earlier ih => exact ih (t.serve first).1

/-- Calls that advance a sequence often pass through every smaller number of
advances. -/
theorem exists_split {uses : List Use} {advances : Nat} (hEnough : advances ≤ advancesIn uses) :
    ∃ before after, uses = before ++ after ∧ advancesIn before = advances := by
  induction uses generalizing advances with
  | nil => exact ⟨[], [], rfl, (Nat.le_zero.mp hEnough).symm⟩
  | cons use uses ih =>
      cases advances with
      | zero => exact ⟨[], use :: uses, rfl, rfl⟩
      | succ advances =>
          by_cases hAdvances : use.advances = true
          · simp only [advancesIn, List.countP_cons_of_pos hAdvances] at hEnough
            obtain ⟨before, after, rfl, hBefore⟩ := ih (Nat.le_of_succ_le_succ hEnough)
            refine ⟨use :: before, after, rfl, ?_⟩
            rw [← hBefore]
            exact List.countP_cons_of_pos hAdvances
          · simp only [advancesIn, List.countP_cons_of_neg hAdvances] at hEnough
            obtain ⟨before, after, rfl, hBefore⟩ := ih hEnough
            refine ⟨use :: before, after, rfl, ?_⟩
            rw [← hBefore]
            exact List.countP_cons_of_neg hAdvances

/-! ## What becomes of accepted sets -/

/-- What a call is answered so many advances after the start. -/
inductive Told (sets : List (List Protocol)) (advances : Nat) : Use → Answer → Prop where
  | rotated {set : List Protocol} :
      sets[(advances + 1) % sets.length]? = some set →
      Told sets advances .advance (.rotated (" ".intercalate (set.map Protocol.name)))
  | selected {set : List Protocol} {candidate : Candidate} {choice : Option Protocol} :
      sets[advances % sets.length]? = some set → Chosen set candidate choice →
      Told sets advances (.select candidate) (.selected choice)
  | labelled {set : List Protocol} :
      sets[advances % sets.length]? = some set →
      Told sets advances .label (.labelled (" ".intercalate (set.map Protocol.name)))
  | indexed : Told sets advances .index (.indexed (advances % sets.length))

/-- A sequence so many advances after its start at the first of the sets. -/
structure Stands (sets : List (List Protocol)) (advances : Nat) (t : TargetSequence) : Prop where
  index : t.index = advances % sets.length
  current : sets[advances % sets.length]? = some t.current

theorem stands_later (hSets : start.sets = sets) (hIndex : start.index = 0) (advances : Nat) :
    Stands sets advances (start.later advances) := by
  subst hSets
  have hLater : (start.later advances).index = advances % start.sets.length := by
    simp only [later, hIndex, Nat.zero_add]
  refine ⟨hLater, ?_⟩
  rw [← hLater]
  exact List.getElem?_eq_getElem (start.later advances).index_lt

theorem Stands.told {t : TargetSequence} {advances : Nat} (hStands : Stands sets advances t)
    (hNext : Stands sets (advances + 1) t.advance) (use : Use) :
    Told sets advances use (t.serve use).2 := by
  cases use with
  | advance => exact .rotated hNext.current
  | select candidate => exact .selected hStands.current (chosen_choose _ _)
  | label => exact .labelled hStands.current
  | index =>
      show Told sets advances .index (.indexed t.index)
      rw [hStands.index]
      exact .indexed

/-- What callers may rely on who share a sequence of accepted sets. -/
structure Rotates (sets : List (List Protocol)) (start : TargetSequence) : Prop where
  /-- The index counts the advances modulo the number of sets, and names one of the
  sets, which is not empty. -/
  stands : ∀ uses, Stands sets (advancesIn uses) (start.serveAll uses).1 ∧
    (start.serveAll uses).1.current ≠ []
  /-- Every call is answered in its turn. -/
  told : ∀ earlier use rest, ∃ answer,
    (start.serveAll (earlier ++ use :: rest)).2[earlier.length]? = some answer ∧
      Told sets (advancesIn earlier) use answer
  /-- While the sequence passes through as many indices in a row as there are sets, a
  protocol is selected for every candidate that offers one of any set. -/
  fair : ∀ candidate : Candidate,
    (∃ set ∈ sets, ∃ protocol ∈ set, candidate.Offers protocol) →
    ∀ earlier uses, sets.length ≤ advancesIn uses + 1 →
    ∃ before after protocol, uses = before ++ after ∧
      (start.serveAll (earlier ++ before)).1.select candidate = some protocol
  offered : ∀ uses (candidate : Candidate) protocol,
    (start.serveAll uses).1.select candidate = some protocol → candidate.Offers protocol

/-- Whatever sets are accepted, and however calls that advance the sequence and calls
that read it follow each other: after so many advances the index is their number
modulo the number of sets, and the set of that index decides every answer.  No
candidate that offers a protocol of some set is passed over for as many indices in a
row as there are sets. -/
theorem rotation_reaches_every_set (hAccepted : ofSets sets = .ok start) :
    Rotates sets start := by
  obtain ⟨-, hFull, hSets, hIndex⟩ := ofSets_eq_ok_iff.mp hAccepted
  have hStands : ∀ uses, Stands sets (advancesIn uses) (start.serveAll uses).1 := fun uses => by
    rw [serveAll_eq]
    exact stands_later hSets hIndex _
  refine ⟨fun uses => ⟨hStands uses, ?_⟩, fun earlier use rest => ?_, ?_, ?_⟩
  · exact hFull _ (List.mem_of_getElem? (hStands uses).current)
  · refine ⟨_, start.getElem?_serveAll earlier use rest, (hStands earlier).told ?_ use⟩
    rw [serveAll_eq, advance_later]
    exact stands_later hSets hIndex _
  · rintro candidate ⟨set, hSet, protocol, hProtocol, hOffers⟩ earlier uses hEnough
    obtain ⟨place, hPlace, hAt⟩ := List.mem_iff_getElem.mp hSet
    obtain ⟨ahead, hAhead, hTurn⟩ := exists_turn hPlace (advancesIn earlier)
    have hPassed : ahead ≤ advancesIn uses := by omega
    obtain ⟨before, after, hSplit, hBefore⟩ := exists_split hPassed
    have hAdvances : advancesIn (earlier ++ before) = advancesIn earlier + ahead := by
      rw [← hBefore]
      exact List.countP_append
    have hCurrent := (hStands (earlier ++ before)).current
    rw [hAdvances, hTurn, List.getElem?_eq_getElem hPlace, hAt, Option.some.injEq] at hCurrent
    have hSome : (start.serveAll (earlier ++ before)).1.select candidate ≠ none := fun hNone => by
      rw [select, ← hCurrent, (chosen_choose set candidate).none_iff] at hNone
      exact hNone protocol hProtocol hOffers
    obtain ⟨chosen, hChosen⟩ := Option.ne_none_iff_exists'.mp hSome
    exact ⟨before, after, chosen, hSplit, hChosen⟩
  · intro uses candidate protocol hSelect
    exact (((chosen_choose _ candidate).some_iff protocol).mp hSelect).1

namespace Sample

/-- Two sets, of which only the second one holds a fronted protocol. -/
def twoSets : List (List Protocol) := [[.ossh], [.unfrontedMeekOssh, .frontedMeekOssh, .ossh]]

/-- A candidate that is reached through a web front only. -/
def frontedOnly : Candidate :=
  { capabilities := [.frontedMeek], meekFrontingDomain := some "front.example" }

end Sample

/-- A candidate that the first of two sets does not reach is reached after one
advance. -/
theorem fronted_reached_after_advance :
    ∃ start, ofSets Sample.twoSets = .ok start ∧ Rotates Sample.twoSets start ∧
      start.select Sample.frontedOnly = none ∧
      (start.serveAll [.index, .advance, .label]).1.select Sample.frontedOnly =
        some .frontedMeekOssh :=
  ⟨_, rfl, rotation_reaches_every_set rfl, by decide, by decide⟩

end TargetSequence

end RelayRace
