import RelayRace.Proofs.Proxy.Wire

/-!
# Reading the head of an answer

The head of an answer is the shortest beginning of it that ends in an empty line
(`IsHead`).  The loop that reads it takes one byte after the other as long as what
it has does not end so (`readHead_through`), and the wire is then left as it was
except for the bytes that were taken (`Leaves`).

What the loop comes to is thus told by the bytes up to its end and by what stands
right behind them, on any wire: a head, so many bytes as a head may have, a fault
or the end of the wire.
-/

namespace RelayRace.Proxy

/-! ## Heads -/

/-- The end of a line and an empty line. -/
def emptyLine : List UInt8 := [13, 10, 13, 10]

/-- The first `n` bytes of an answer end in an empty line, and no fewer do. -/
structure IsHead (answer : List UInt8) (n : Nat) : Prop where
  ends : emptyLine <:+ answer.take n
  first : ∀ fewer < n, ¬emptyLine <:+ answer.take fewer

theorem IsHead.le_length {answer : List UInt8} {n : Nat} (hHead : IsHead answer n) :
    n ≤ answer.length := by
  refine Nat.le_of_not_lt fun hLong => ?_
  have hAll : answer.take n = answer.take answer.length := by
    rw [List.take_length, List.take_of_length_le (by omega)]
  exact hHead.first answer.length (by omega) (hAll ▸ hHead.ends)

/-- A head is the head of itself. -/
theorem IsHead.take {answer : List UInt8} {n : Nat} (hHead : IsHead answer n) :
    IsHead (answer.take n) (answer.take n).length where
  ends := by
    rw [List.take_length]
    exact hHead.ends
  first fewer hFewer := by
    rw [List.length_take_of_le hHead.le_length] at hFewer
    rw [List.take_take, Nat.min_eq_left (Nat.le_of_lt hFewer)]
    exact hHead.first fewer hFewer

theorem endsHead_iff (reversed : List UInt8) :
    endsHead reversed = true ↔ emptyLine <:+ reversed.reverse := by
  have hPrefix : emptyLine <:+ reversed.reverse ↔ [10, 13, 10, 13] <+: reversed := by
    rw [← List.reverse_prefix, List.reverse_reverse]
    rfl
  rw [hPrefix]
  constructor
  · intro hEnds
    unfold endsHead at hEnds
    split at hEnds
    · exact ⟨_, rfl⟩
    · cases hEnds
  · rintro ⟨rest, rfl⟩
    rfl

/-- Of bytes with an empty line among them, some beginning ends in one. -/
theorem not_suffix_take {bytes : List UInt8} (hNone : ¬emptyLine <:+: bytes) (n : Nat) :
    ¬emptyLine <:+ bytes.take n :=
  fun hEnds => hNone (hEnds.isInfix.trans (List.take_prefix n bytes).isInfix)

/-- If no beginning of so many bytes is a head, no empty line is among these. -/
theorem not_infix_take {answer : List UInt8} {limit : Nat}
    (hNone : ∀ n ≤ limit, ¬IsHead answer n) : ¬emptyLine <:+: answer.take limit := by
  -- The shortest beginning that ends in an empty line would be a head.
  have hNoEnd : ∀ n, n ≤ limit → ¬emptyLine <:+ answer.take n := by
    intro n
    induction n using Nat.strongRecOn with
    | ind n ih =>
        exact fun hLe hEnds =>
          hNone n hLe ⟨hEnds, fun fewer hLt => ih fewer hLt (Nat.le_trans (Nat.le_of_lt hLt) hLe)⟩
  rintro ⟨before, after, hParts⟩
  have hTake : answer.take (min (before ++ emptyLine).length limit) = before ++ emptyLine := by
    rw [← List.take_take, ← hParts, List.take_left']
    rfl
  exact hNoEnd _ (Nat.min_le_right _ _) (hTake ▸ List.suffix_append before emptyLine)

/-! ## The loop -/

/-- A wire off which only reading has taken something, so that these bytes and
faults are left. -/
structure Leaves (wire : Wire) (left : List (Except IoFault UInt8)) (now : Wire) : Prop where
  events : now.events = left
  heldOpen : now.heldOpen = wire.heldOpen
  written : now.written = wire.written

section Loop

variable {wire now : Wire} {left : List (Except IoFault UInt8)}

theorem readHead_end {room : Nat} {reversed : List UInt8} (hEnds : endsHead reversed = true) :
    readHead room reversed wire = (.finished (.ok reversed.reverse), wire) := by
  cases room <;> rw [readHead, if_pos hEnds]

theorem readHead_byte {room : Nat} {reversed : List UInt8} {b : UInt8}
    (hEnds : ¬endsHead reversed = true) (hRead : wire.read = (.byte b, now)) :
    readHead (room + 1) reversed wire = readHead room (b :: reversed) now := by
  rw [readHead, if_neg hEnds, hRead]

/-- As long as there is no end, the loop takes bytes. -/
theorem readHead_through (room : Nat) (bytes : List UInt8) :
    ∀ (reversed : List UInt8) (wire : Wire), wire.events = bytes.map .ok ++ left →
      (∀ fewer < bytes.length, ¬emptyLine <:+ reversed.reverse ++ bytes.take fewer) →
      ∃ now, Leaves wire left now ∧
        readHead (bytes.length + room) reversed wire =
          readHead room (bytes.reverse ++ reversed) now := by
  induction bytes with
  | nil =>
      intro reversed wire hEvents _
      exact ⟨wire, ⟨hEvents, rfl, rfl⟩, by rw [List.length_nil, Nat.zero_add]; rfl⟩
  | cons b bytes ih =>
      intro reversed wire hEvents hNone
      have hEnds : ¬endsHead reversed = true := by
        rw [endsHead_iff, ← List.append_nil reversed.reverse]
        exact hNone 0 (Nat.succ_pos _)
      obtain ⟨rest, hRest, hRead⟩ := Wire.read_byte hEvents
      have hLater : ∀ fewer < bytes.length,
          ¬emptyLine <:+ (b :: reversed).reverse ++ bytes.take fewer := by
        intro fewer hFewer
        rw [List.reverse_cons, List.append_assoc]
        exact hNone (fewer + 1) (Nat.succ_lt_succ hFewer)
      obtain ⟨now, hLeaves, hSame⟩ := ih (b :: reversed) { wire with incoming := rest } hRest hLater
      refine ⟨now, ⟨hLeaves.events, hLeaves.heldOpen, hLeaves.written⟩, ?_⟩
      rw [List.length_cons, Nat.add_right_comm, readHead_byte hEnds hRead, hSame,
        List.reverse_cons, List.append_assoc]
      rfl

/-- The loop writes nothing. -/
theorem readHead_written (room : Nat) :
    ∀ (reversed : List UInt8) (wire : Wire),
      (readHead room reversed wire).2.written = wire.written := by
  induction room with
  | zero =>
      intro reversed wire
      rw [readHead]
      split <;> rfl
  | succ room ih =>
      intro reversed wire
      have hWritten := wire.read_written
      rw [readHead]
      split
      · rfl
      · generalize wire.read = taken at hWritten ⊢
        rcases taken with ⟨b | fault | _ | _, after⟩
        case byte => exact (ih (b :: reversed) after).trans hWritten
        all_goals exact hWritten

variable {bytes : List UInt8}

/-- The loop comes as far as no beginning ends in an empty line. -/
theorem exists_readHead (hEvents : wire.events = bytes.map .ok ++ left)
    (hFits : bytes.length ≤ headLimit)
    (hFirst : ∀ fewer < bytes.length, ¬emptyLine <:+ bytes.take fewer) :
    ∃ now, Leaves wire left now ∧
      readHead headLimit [] wire = readHead (headLimit - bytes.length) bytes.reverse now := by
  obtain ⟨now, hLeaves, hSame⟩ :=
    readHead_through (headLimit - bytes.length) bytes [] wire hEvents hFirst
  rw [Nat.add_sub_of_le hFits, List.append_nil] at hSame
  exact ⟨now, hLeaves, hSame⟩

/-- A head is read, and nothing behind it. -/
theorem readHead_head (hEvents : wire.events = bytes.map .ok ++ left)
    (hHead : IsHead bytes bytes.length) (hFits : bytes.length ≤ headLimit) :
    ∃ now, Leaves wire left now ∧ readHead headLimit [] wire = (.finished (.ok bytes), now) := by
  obtain ⟨now, hLeaves, hSame⟩ := exists_readHead hEvents hFits hHead.first
  have hEnds : endsHead bytes.reverse = true := by
    rw [endsHead_iff, List.reverse_reverse, ← List.take_length (l := bytes)]
    exact hHead.ends
  refine ⟨now, hLeaves, ?_⟩
  rw [hSame, readHead_end hEnds, List.reverse_reverse]

section NoHead

variable (hNone : ¬emptyLine <:+: bytes)

include hNone

theorem not_endsHead : ¬endsHead bytes.reverse = true := by
  rw [endsHead_iff, List.reverse_reverse]
  exact fun hEnds => hNone hEnds.isInfix

/-- No more bytes are read than a head may have. -/
theorem readHead_tooLarge (hEvents : wire.events = bytes.map .ok ++ left)
    (hFull : bytes.length = headLimit) :
    ∃ now, Leaves wire left now ∧ readHead headLimit [] wire =
      (.finished (.error (.proxyTunnel "proxy response header too large")), now) := by
  obtain ⟨now, hLeaves, hSame⟩ :=
    exists_readHead hEvents (Nat.le_of_eq hFull) fun fewer _ => not_suffix_take hNone fewer
  refine ⟨now, hLeaves, ?_⟩
  rw [hSame, hFull, Nat.sub_self, readHead, if_neg (not_endsHead hNone)]

variable (hShort : bytes.length < headLimit)

include hShort

/-- Where there is room and no end, the loop reads on. -/
theorem exists_readHead_reading (hEvents : wire.events = bytes.map .ok ++ left) :
    ∃ room now, Leaves wire left now ∧
      readHead headLimit [] wire = readHead (room + 1) bytes.reverse now := by
  obtain ⟨now, hLeaves, hSame⟩ :=
    exists_readHead hEvents (Nat.le_of_lt hShort) fun fewer _ => not_suffix_take hNone fewer
  obtain ⟨room, hRoom⟩ := Nat.exists_eq_succ_of_ne_zero (Nat.sub_ne_zero_of_lt hShort)
  rw [hRoom] at hSame
  exact ⟨room, now, hLeaves, hSame⟩

/-- A fault ends the reading. -/
theorem readHead_broken {fault : IoFault}
    (hEvents : wire.events = bytes.map .ok ++ .error fault :: left) :
    ∃ now, Leaves wire left now ∧ readHead headLimit [] wire =
      (.finished (.error (.proxyTunnel ("read CONNECT response: " ++ fault.text))), now) := by
  obtain ⟨room, now, hLeaves, hSame⟩ := exists_readHead_reading hNone hShort hEvents
  obtain ⟨rest, hRest, hRead⟩ := Wire.read_fault hLeaves.events
  refine ⟨{ now with incoming := rest }, ⟨hRest, hLeaves.heldOpen, hLeaves.written⟩, ?_⟩
  rw [hSame, readHead, if_neg (not_endsHead hNone)]
  simp only [hRead]

/-- Where nothing follows, it depends on whether the wire closes. -/
theorem readHead_ended (hEvents : wire.events = bytes.map .ok) :
    ∃ now, Leaves wire [] now ∧ readHead headLimit [] wire =
      (if wire.heldOpen then .waiting else .finished
        (.error (.proxyTunnel "proxy closed connection before completing response")), now) := by
  obtain ⟨room, now, hLeaves, hSame⟩ :=
    exists_readHead_reading hNone hShort (hEvents.trans (List.append_nil _).symm)
  have hRead := Wire.read_nothing hLeaves.events
  refine ⟨{ now with incoming := [] }, ⟨rfl, hLeaves.heldOpen, hLeaves.written⟩, ?_⟩
  rw [hSame, readHead, if_neg (not_endsHead hNone), hRead, hLeaves.heldOpen]
  cases wire.heldOpen <;> rfl

end NoHead

end Loop

end RelayRace.Proxy
