import RelayRace.Proofs.Statistics

/-!
# The counts of the statistics are sums

Apart from the average and the last round, the statistics of some rounds are sums
over them (`Statistics.Sums`): each round adds to a count what it brings by itself,
whatever was counted before.  So the order of the rounds does not matter, and a
count that fits its width in the end fitted it all the way.

The most common protocol has the most wins, and of several with that many it is
the most preferred one (`Wins.Leads`).  There is at most one such protocol.  That
is why a table of the wins can be gone through in any order to find it
(`Wins.greatest`), although a later entry displaces an earlier one of equal worth.
-/

namespace RelayRace

theorem Protocol.rank_injective {protocol other : Protocol} (hRank : protocol.rank = other.rank) :
    protocol = other := by
  cases protocol <;> cases other <;> first | rfl | cases hRank

theorem Protocol.mem_all (protocol : Protocol) : protocol ∈ all := by
  cases protocol <;> decide

/-! ## The most common protocol -/

namespace Wins

variable {wins : Wins}

theorem eq_of_count {other : Wins}
    (hCount : ∀ protocol, wins.count protocol = other.count protocol) : wins = other := by
  obtain ⟨ossh, unfronted, fronted⟩ := wins
  obtain ⟨ossh', unfronted', fronted'⟩ := other
  have hOssh : ossh = ossh' := hCount .ossh
  have hUnfronted : unfronted = unfronted' := hCount .unfrontedMeekOssh
  have hFronted : fronted = fronted' := hCount .frontedMeekOssh
  rw [hOssh, hUnfronted, hFronted]

/-- A protocol has more wins than another, or as many of them and is no less
preferred. -/
def Outranks (wins : Wins) (protocol other : Protocol) : Prop :=
  wins.count other < wins.count protocol ∨
    (wins.count other = wins.count protocol ∧ protocol.rank ≤ other.rank)

/-- A protocol has won, and outranks every other one. -/
structure Leads (wins : Wins) (protocol : Protocol) : Prop where
  won : 0 < wins.count protocol
  outranks : ∀ other, wins.Outranks protocol other

theorem Outranks.refl (wins : Wins) (protocol : Protocol) : wins.Outranks protocol protocol :=
  .inr ⟨rfl, Nat.le_refl _⟩

theorem Outranks.trans {protocol other third : Protocol} (hFirst : wins.Outranks protocol other)
    (hSecond : wins.Outranks other third) : wins.Outranks protocol third := by
  unfold Outranks at *
  omega

theorem Leads.unique {protocol other : Protocol} (hLeads : wins.Leads protocol)
    (hOther : wins.Leads other) : protocol = other := by
  have hAhead : wins.Outranks protocol other := hLeads.outranks other
  have hBehind : wins.Outranks other protocol := hOther.outranks protocol
  apply Protocol.rank_injective
  unfold Outranks at hAhead hBehind
  omega

/-- The best of the protocols that were looked at, if one of them has won. -/
def BestOf (wins : Wins) (seen : List Protocol) : Option Protocol → Prop
  | none => ∀ protocol ∈ seen, wins.count protocol = 0
  | some best => best ∈ seen ∧ 0 < wins.count best ∧ ∀ other ∈ seen, wins.Outranks best other

/-- Looking at a less preferred protocol keeps the best, also where both have
equally many wins. -/
theorem BestOf.better {seen : List Protocol} {best : Option Protocol} {next : Protocol}
    (hBest : wins.BestOf seen best) (hLess : ∀ protocol ∈ seen, protocol.rank < next.rank) :
    wins.BestOf (seen ++ [next]) (wins.better best next) := by
  unfold Wins.better
  split
  · next hNever =>
      -- A protocol without a win changes nothing.
      cases best with
      | none =>
          intro protocol hMem
          rcases List.mem_append.mp hMem with hSeen | hNext
          · exact hBest protocol hSeen
          · rw [List.mem_singleton.mp hNext, hNever]
      | some held =>
          obtain ⟨hHeld, hWon, hOthers⟩ := hBest
          refine ⟨List.mem_append_left _ hHeld, hWon, fun other hMem => ?_⟩
          rcases List.mem_append.mp hMem with hSeen | hNext
          · exact hOthers other hSeen
          · rw [List.mem_singleton.mp hNext]
            exact .inl (hNever ▸ hWon)
  · next hSome =>
      have hWon : 0 < wins.count next := Nat.pos_of_ne_zero hSome
      cases best with
      | none =>
          refine ⟨by simp, hWon, fun other hMem => ?_⟩
          rcases List.mem_append.mp hMem with hSeen | hNext
          · exact .inl (hBest other hSeen ▸ hWon)
          · rw [List.mem_singleton.mp hNext]
            exact .refl wins next
      | some held =>
          obtain ⟨hHeld, hHeldWon, hOthers⟩ := hBest
          have hRank : held.rank < next.rank := hLess held hHeld
          by_cases hMore : wins.count held < wins.count next
          · simp only [hMore, if_true]
            refine ⟨by simp, hWon, fun other hMem => ?_⟩
            rcases List.mem_append.mp hMem with hSeen | hNext
            · exact .trans (.inl hMore) (hOthers other hSeen)
            · rw [List.mem_singleton.mp hNext]
              exact .refl wins next
          · simp only [hMore, if_false]
            refine ⟨List.mem_append_left _ hHeld, hHeldWon, fun other hMem => ?_⟩
            rcases List.mem_append.mp hMem with hSeen | hNext
            · exact hOthers other hSeen
            · rw [List.mem_singleton.mp hNext]
              unfold Outranks
              omega

/-- The best of a list of protocols, the most preferred ones first. -/
theorem bestOf_foldl {protocols : List Protocol}
    (hOrder : protocols.Pairwise fun protocol next => protocol.rank < next.rank) :
    wins.BestOf protocols (protocols.foldl wins.better none) := by
  induction protocols using List.reverseRecOn with
  | nil => exact fun protocol hMem => absurd hMem List.not_mem_nil
  | append_singleton protocols next ih =>
      obtain ⟨hBefore, -, hLess⟩ := List.pairwise_append.mp hOrder
      rw [List.foldl_concat]
      exact (ih hBefore).better fun protocol hMem => hLess protocol hMem next (by simp)

theorem bestOf_mostCommon (wins : Wins) : wins.BestOf Protocol.all wins.mostCommon :=
  bestOf_foldl (by decide)

/-- The most common protocol is the one that leads. -/
theorem mostCommon_eq_some_iff {protocol : Protocol} :
    wins.mostCommon = some protocol ↔ wins.Leads protocol := by
  have hBest := wins.bestOf_mostCommon
  constructor
  · intro hCommon
    rw [hCommon] at hBest
    exact ⟨hBest.2.1, fun other => hBest.2.2 other other.mem_all⟩
  · intro hLeads
    cases hCommon : wins.mostCommon with
    | none =>
        rw [hCommon] at hBest
        exact absurd (hBest protocol protocol.mem_all) (Nat.pos_iff_ne_zero.mp hLeads.won)
    | some best =>
        rw [hCommon] at hBest
        have hBestLeads : wins.Leads best :=
          ⟨hBest.2.1, fun other => hBest.2.2 other other.mem_all⟩
        rw [hBestLeads.unique hLeads]

theorem mostCommon_eq_none_iff :
    wins.mostCommon = none ↔ ∀ protocol, wins.count protocol = 0 := by
  have hBest := wins.bestOf_mostCommon
  constructor
  · intro hCommon protocol
    rw [hCommon] at hBest
    exact hBest protocol protocol.mem_all
  · intro hNever
    cases hCommon : wins.mostCommon with
    | none => rfl
    | some best =>
        rw [hCommon] at hBest
        exact absurd (hNever best) (Nat.pos_iff_ne_zero.mp hBest.2.1)

/-! ## Tables of the wins -/

/-- A table has an entry for each protocol that has won, in any order. -/
structure ListedIn (wins : Wins) (table : List (Protocol × Nat)) : Prop where
  once : (table.map Prod.fst).Nodup
  mem_iff : ∀ protocol count,
    (protocol, count) ∈ table ↔ count = wins.count protocol ∧ 0 < count

/-- Whether an entry is at least as good as another: the count is greater, or it is
the same and the protocol no less preferred. -/
def atLeast (entry other : Protocol × Nat) : Bool :=
  other.2 < entry.2 || (other.2 == entry.2 && entry.1.rank ≤ other.1.rank)

/-- The better of the best entry so far and another: of equals, the later one. -/
def greater (best : Option (Protocol × Nat)) (entry : Protocol × Nat) : Option (Protocol × Nat) :=
  match best with
  | none => some entry
  | some held => if atLeast entry held then some entry else some held

/-- The best entry of a table that is gone through from its first entry on. -/
def greatest (table : List (Protocol × Nat)) : Option (Protocol × Nat) :=
  table.foldl greater none

theorem atLeast_iff {entry other : Protocol × Nat} :
    atLeast entry other = true ↔
      other.2 < entry.2 ∨ (other.2 = entry.2 ∧ entry.1.rank ≤ other.1.rank) := by
  simp [atLeast]

theorem atLeast_trans {entry other third : Protocol × Nat} (hFirst : atLeast entry other = true)
    (hSecond : atLeast other third = true) : atLeast entry third = true := by
  rw [atLeast_iff] at *
  omega

theorem atLeast_total {entry other : Protocol × Nat} (hNot : ¬ atLeast entry other = true) :
    atLeast other entry = true := by
  rw [atLeast_iff] at *
  omega

/-- No entry of a table is better than the one that is found. -/
theorem greatest_spec (table : List (Protocol × Nat)) :
    match greatest table with
    | none => table = []
    | some best => best ∈ table ∧ ∀ other ∈ table, atLeast best other = true := by
  induction table using List.reverseRecOn with
  | nil => rfl
  | append_singleton table entry ih =>
      have hSelf : atLeast entry entry = true := by simp [atLeast]
      have hStep : greatest (table ++ [entry]) = greater (greatest table) entry := by
        simp [greatest]
      rw [hStep]
      cases hHeld : greatest table with
      | none =>
          rw [hHeld] at ih
          simp [greater, ih, hSelf]
      | some held =>
          rw [hHeld] at ih
          obtain ⟨hMem, hOthers⟩ := ih
          by_cases hEntry : atLeast entry held = true
          · simp only [greater, hEntry, if_true]
            refine ⟨by simp, fun other hOther => ?_⟩
            rcases List.mem_append.mp hOther with hTable | hLast
            · exact atLeast_trans hEntry (hOthers other hTable)
            · rw [List.mem_singleton.mp hLast]
              exact hSelf
          · simp only [greater, hEntry]
            refine ⟨List.mem_append_left _ hMem, fun other hOther => ?_⟩
            rcases List.mem_append.mp hOther with hTable | hLast
            · exact hOthers other hTable
            · rw [List.mem_singleton.mp hLast]
              exact atLeast_total hEntry

/-- The best entry of a table is the one of the most common protocol. -/
theorem ListedIn.greatest_eq {table : List (Protocol × Nat)} (hTable : wins.ListedIn table) :
    (greatest table).map Prod.fst = wins.mostCommon := by
  have hSpec := greatest_spec table
  cases hGreatest : greatest table with
  | none =>
      rw [hGreatest] at hSpec
      refine (mostCommon_eq_none_iff.mpr fun protocol => ?_).symm
      by_contra hSome
      have hMem := (hTable.mem_iff protocol _).mpr ⟨rfl, Nat.pos_of_ne_zero hSome⟩
      rw [hSpec] at hMem
      cases hMem
  | some best =>
      rw [hGreatest] at hSpec
      obtain ⟨hMem, hOthers⟩ := hSpec
      obtain ⟨hCount, hWon⟩ := (hTable.mem_iff best.1 best.2).mp hMem
      refine (mostCommon_eq_some_iff.mpr ⟨hCount ▸ hWon, fun other => ?_⟩).symm
      by_cases hOther : wins.count other = 0
      · exact .inl (hOther ▸ hCount ▸ hWon)
      · have hEntry := (hTable.mem_iff other _).mpr ⟨rfl, Nat.pos_of_ne_zero hOther⟩
        have hBest := atLeast_iff.mp (hOthers _ hEntry)
        rw [hCount] at hBest
        exact hBest

end Wins

/-! ## Sums over the rounds -/

/-- Whether the round had a winner that was reached over the protocol. -/
def Summary.wonOver (s : Summary) (protocol : Protocol) : Bool :=
  s.succeeded && s.protocol == some protocol

/-- Whether the round had a winner of which the protocol is known. -/
def Summary.namesProtocol (s : Summary) : Bool := s.succeeded && s.protocol.isSome

namespace Statistics

variable {rounds other : List Summary} {stats : Statistics}

/-- What the statistics count over some rounds. -/
structure Sums (rounds : List Summary) (stats : Statistics) : Prop where
  total : stats.total = rounds.length
  successful : stats.successful = rounds.countP Summary.succeeded
  failed : stats.failed = rounds.countP fun s => !s.succeeded
  dispatched : stats.dispatched = (rounds.map Summary.dispatched).sum
  responded : stats.responded = (rounds.map Summary.responded).sum
  wins : ∀ protocol, stats.wins.count protocol = rounds.countP fun s => s.wonOver protocol

theorem count_wins_record (stats : Statistics) (s : Summary) (protocol : Protocol) :
    (stats.record s).wins.count protocol =
      stats.wins.count protocol + if s.wonOver protocol then 1 else 0 := by
  cases hWon : s.succeeded with
  | false => simp [record, Summary.wonOver, hWon]
  | true =>
      cases hProtocol : s.protocol with
      | none => simp [record, recordWin, Summary.wonOver, hWon, hProtocol]
      | some won =>
          simp [record, recordWin, Summary.wonOver, hWon, hProtocol, Wins.count_bump,
            eq_comm (a := won)]

/-- A round adds to each count what it brings. -/
theorem Sums.record (hSums : Sums rounds stats) (s : Summary) :
    Sums (rounds ++ [s]) (stats.record s) where
  total := by simp [Statistics.record, hSums.total]
  successful := by
    cases hWon : s.succeeded <;> simp [Statistics.record, recordWin, hWon, hSums.successful]
  failed := by
    cases hWon : s.succeeded <;> simp [Statistics.record, recordWin, hWon, hSums.failed]
  dispatched := by simp [Statistics.record, hSums.dispatched]
  responded := by simp [Statistics.record, hSums.responded]
  wins protocol := by
    rw [count_wins_record, hSums.wins, List.countP_append, List.countP_singleton]

theorem sums_ofRounds (rounds : List Summary) : Sums rounds (ofRounds rounds) := by
  induction rounds using List.reverseRecOn with
  | nil => exact ⟨rfl, rfl, rfl, rfl, rfl, fun protocol => by cases protocol <;> rfl⟩
  | append_singleton rounds s ih =>
      rw [ofRounds_snoc]
      exact ih.record s

/-- Sums do not depend on the order of the rounds. -/
theorem Sums.perm (hSums : Sums rounds stats) (hOrder : rounds.Perm other) : Sums other stats where
  total := hSums.total.trans hOrder.length_eq
  successful := hSums.successful.trans (hOrder.countP_eq _)
  failed := hSums.failed.trans (hOrder.countP_eq _)
  dispatched := hSums.dispatched.trans (hOrder.map _).sum_eq
  responded := hSums.responded.trans (hOrder.map _).sum_eq
  wins protocol := (hSums.wins protocol).trans (hOrder.countP_eq _)

/-- Two statistics agree in every count. -/
structure SameCounts (stats other : Statistics) : Prop where
  total : stats.total = other.total
  successful : stats.successful = other.successful
  failed : stats.failed = other.failed
  dispatched : stats.dispatched = other.dispatched
  responded : stats.responded = other.responded
  wins : stats.wins = other.wins

/-- The sums of some rounds are all that is counted. -/
theorem Sums.same {later : Statistics} (hSums : Sums rounds stats) (hLater : Sums rounds later) :
    stats.SameCounts later where
  total := hSums.total.trans hLater.total.symm
  successful := hSums.successful.trans hLater.successful.symm
  failed := hSums.failed.trans hLater.failed.symm
  dispatched := hSums.dispatched.trans hLater.dispatched.symm
  responded := hSums.responded.trans hLater.responded.symm
  wins := Wins.eq_of_count fun protocol => (hSums.wins protocol).trans (hLater.wins protocol).symm

/-- Every round is counted either as won or as failed. -/
theorem Sums.balanced (hSums : Sums rounds stats) :
    stats.total = stats.successful + stats.failed := by
  rw [hSums.total, hSums.successful, hSums.failed,
    List.length_eq_countP_add_countP Summary.succeeded]
  simp only [Bool.not_eq_true, Bool.decide_eq_false]

/-- A winner whose protocol is known is counted for one protocol. -/
theorem sum_wonOver (rounds : List Summary) :
    (Protocol.all.map fun protocol => rounds.countP fun s => s.wonOver protocol).sum =
      rounds.countP Summary.namesProtocol := by
  induction rounds with
  | nil => rfl
  | cons s rounds ih =>
      have hOnce : (Protocol.all.map fun protocol => if s.wonOver protocol then 1 else 0).sum =
          if s.namesProtocol then 1 else 0 := by
        unfold Summary.wonOver Summary.namesProtocol
        cases s.succeeded with
        | false => rfl
        | true =>
            cases s.protocol with
            | none => rfl
            | some won => cases won <;> rfl
      simp only [List.countP_cons, List.sum_map_add, ih, hOnce]

/-! ## Widths -/

/-- Every count is a number of 64 bits. -/
structure Fits (stats : Statistics) : Prop where
  total : stats.total < UInt64.size
  successful : stats.successful < UInt64.size
  failed : stats.failed < UInt64.size
  dispatched : stats.dispatched < UInt64.size
  responded : stats.responded < UInt64.size
  wins : ∀ protocol, stats.wins.count protocol < UInt64.size

theorem Sums.fits (hSums : Sums rounds stats) (hRounds : rounds.length < UInt64.size)
    (hDispatched : (rounds.map Summary.dispatched).sum < UInt64.size)
    (hResponded : (rounds.map Summary.responded).sum < UInt64.size) : stats.Fits where
  total := hSums.total ▸ hRounds
  successful := hSums.successful ▸ List.countP_le_length.trans_lt hRounds
  failed := hSums.failed ▸ List.countP_le_length.trans_lt hRounds
  dispatched := hSums.dispatched ▸ hDispatched
  responded := hSums.responded ▸ hResponded
  wins protocol := hSums.wins protocol ▸ List.countP_le_length.trans_lt hRounds

/-- What the counts over some rounds are. -/
structure Aggregates (rounds : List Summary) (stats : Statistics) : Prop where
  sums : Sums rounds stats
  balanced : stats.total = stats.successful + stats.failed
  named : (Protocol.all.map stats.wins.count).sum = rounds.countP Summary.namesProtocol
  leads : ∀ protocol, stats.mostCommon = some protocol ↔ stats.wins.Leads protocol
  nobody : stats.mostCommon = none ↔ ∀ protocol, stats.wins.count protocol = 0
  /-- Counts that fit their width in the end fitted it after every round. -/
  fits : rounds.length < UInt64.size → (rounds.map Summary.dispatched).sum < UInt64.size →
    (rounds.map Summary.responded).sum < UInt64.size →
    ∀ before later, rounds = before ++ later → (ofRounds before).Fits

theorem aggregates_ofRounds (rounds : List Summary) : Aggregates rounds (ofRounds rounds) where
  sums := sums_ofRounds rounds
  balanced := (sums_ofRounds rounds).balanced
  named := by
    rw [← sum_wonOver, funext (sums_ofRounds rounds).wins]
  leads _ := Wins.mostCommon_eq_some_iff
  nobody := Wins.mostCommon_eq_none_iff
  fits := by
    rintro hRounds hDispatched hResponded before later rfl
    rw [List.length_append] at hRounds
    rw [List.map_append, List.sum_append] at hDispatched hResponded
    exact (sums_ofRounds before).fits (by omega) (by omega) (by omega)

/-- Whatever rounds are recorded, in whatever order: every count is its sum over the
rounds, the rounds are the won and the failed ones together, and the wins of the
protocols make up the winners that name one.  The most common protocol is the most
preferred of those with the most wins, and is found in a table of the wins in
whatever order the table is gone through. -/
theorem counts_are_sums_in_any_order {rounds other : List Summary}
    {table : List (Protocol × Nat)} (hOrder : rounds.Perm other)
    (hTable : (ofRounds rounds).wins.ListedIn table) :
    Aggregates rounds (ofRounds rounds) ∧ (ofRounds other).SameCounts (ofRounds rounds) ∧
      (Wins.greatest table).map Prod.fst = (ofRounds rounds).mostCommon :=
  ⟨aggregates_ofRounds rounds, (sums_ofRounds other).same ((sums_ofRounds rounds).perm hOrder),
    hTable.greatest_eq⟩

namespace Sample

/-- Two winners over different protocols, and a failed round between them. -/
def mixedRounds : List Summary :=
  [{ won 3 with protocol := some .unfrontedMeekOssh }, { dispatched := 4 }, won 5]

theorem mixedRounds_listed :
    (ofRounds mixedRounds).wins.ListedIn [(.unfrontedMeekOssh, 1), (.ossh, 1)] := by
  refine ⟨by decide, fun protocol count => ?_⟩
  have hWins : (ofRounds mixedRounds).wins = ⟨1, 1, 0⟩ := by decide
  rw [hWins]
  cases protocol <;> grind [Wins.count]

end Sample

/-- Of two protocols with one win each the preferred one is the most common, although
the other one won first and stands first in the table. -/
theorem equal_wins_go_to_the_preferred :
    Aggregates Sample.mixedRounds (ofRounds Sample.mixedRounds) ∧
      (ofRounds Sample.mixedRounds.reverse).SameCounts (ofRounds Sample.mixedRounds) ∧
      (Wins.greatest [(.unfrontedMeekOssh, 1), (.ossh, 1)]).map Prod.fst = some Protocol.ossh := by
  have hOrder : Sample.mixedRounds.Perm Sample.mixedRounds.reverse :=
    (List.reverse_perm _).symm
  obtain ⟨hAggregates, hSame, hFound⟩ :=
    counts_are_sums_in_any_order hOrder Sample.mixedRounds_listed
  have hCommon : (ofRounds Sample.mixedRounds).mostCommon = some .ossh := by decide
  exact ⟨hAggregates, hSame, hFound.trans hCommon⟩

end Statistics

end RelayRace
