import RelayRace.Proxy.Tunnel

/-!
# Reading and writing on a wire

A wire brings bytes in as they were cut by the other side and the network, with
faults between them.  Who reads one byte at a time does not see the cuts: all
there is to a wire is which bytes and faults come one after the other (`events`),
and a read takes the first of them (`read_byte`, `read_fault`).

On the writing side a wire lets go out what it has room for and no more, in
however many writes, and then fails (`writeAll_eq`); each of them takes something
as long as there is room.

A wire without faults brings in certain cuts and then closes (`Delivers`), and
takes the whole of everything it is given (`TakesAll`).
-/

namespace RelayRace.Proxy

/-! ## What comes in -/

/-- The bytes and faults that some arrivals bring, one after the other. -/
def eventsOf (incoming : List Arrival) : List (Except IoFault UInt8) :=
  incoming.flatMap fun
    | .data bytes => bytes.map .ok
    | .fault fault => [.error fault]

theorem filterMap_map_ok (bytes : List UInt8) :
    (bytes.map (Except.ok : UInt8 → Except IoFault UInt8)).filterMap Except.toOption = bytes := by
  rw [List.filterMap_map]
  exact List.filterMap_some

namespace Wire

/-- The bytes and faults that are still to come in. -/
def events (wire : Wire) : List (Except IoFault UInt8) := eventsOf wire.incoming

/-- The wire brings in these cuts, none of which is a fault, and then closes. -/
structure Delivers (wire : Wire) (cuts : List (List UInt8)) : Prop where
  incoming : wire.incoming = cuts.map .data
  closes : wire.heldOpen = false

/-- Every write takes something, and none fails. -/
structure TakesAll (wire : Wire) : Prop where
  room : wire.room = none
  writeMax : wire.writeMax ≠ some 0

/-! ## Reading -/

theorem Delivers.events {wire : Wire} {cuts : List (List UInt8)} (hDelivers : wire.Delivers cuts) :
    wire.events = cuts.flatten.map .ok := by
  rw [Wire.events, hDelivers.incoming, eventsOf, List.flatMap_map, List.map_flatten]
  rfl

/-- The bytes that are still to come in are those among the events. -/
theorem unread_eq (wire : Wire) : wire.unread = wire.events.filterMap Except.toOption := by
  rw [unread, events, eventsOf]
  induction wire.incoming with
  | nil => rfl
  | cons arrival incoming ih =>
      rw [List.flatMap_cons, List.flatMap_cons, List.filterMap_append, ← ih]
      cases arrival with
      | fault fault => rfl
      | data bytes => simp only [filterMap_map_ok]

/-- What is taken off some arrivals is the first of their events. -/
theorem take_events (incoming : List Arrival) :
    match eventsOf incoming with
    | [] => take incoming = none
    | .ok b :: left => ∃ rest, eventsOf rest = left ∧ take incoming = some (.byte b, rest)
    | .error fault :: left =>
        ∃ rest, eventsOf rest = left ∧ take incoming = some (.fault fault, rest) := by
  induction incoming with
  | nil => rfl
  | cons arrival incoming ih =>
      cases arrival with
      | fault fault => exact ⟨incoming, rfl, rfl⟩
      | data bytes =>
          cases bytes with
          | nil => exact ih
          | cons b bytes => exact ⟨.data bytes :: incoming, rfl, rfl⟩

section Read

variable {wire : Wire} {left : List (Except IoFault UInt8)}

theorem read_byte {b : UInt8} (hNext : wire.events = .ok b :: left) :
    ∃ rest, eventsOf rest = left ∧ wire.read = (.byte b, { wire with incoming := rest }) := by
  have hTake := take_events wire.incoming
  rw [show eventsOf wire.incoming = _ from hNext] at hTake
  obtain ⟨rest, hLeft, hTake⟩ := hTake
  exact ⟨rest, hLeft, by rw [read, hTake]⟩

theorem read_fault {fault : IoFault} (hNext : wire.events = .error fault :: left) :
    ∃ rest, eventsOf rest = left ∧ wire.read = (.fault fault, { wire with incoming := rest }) := by
  have hTake := take_events wire.incoming
  rw [show eventsOf wire.incoming = _ from hNext] at hTake
  obtain ⟨rest, hLeft, hTake⟩ := hTake
  exact ⟨rest, hLeft, by rw [read, hTake]⟩

/-- When nothing is left, a read tells whether the wire has closed. -/
theorem read_nothing (hNone : wire.events = []) :
    wire.read = (if wire.heldOpen then .silent else .ended, { wire with incoming := [] }) := by
  have hTake := take_events wire.incoming
  rw [show eventsOf wire.incoming = _ from hNone] at hTake
  rw [read, show take wire.incoming = none from hTake]

theorem read_written (wire : Wire) : wire.read.2.written = wire.written := by
  rw [read]
  split <;> rfl

end Read

/-! ## Writing -/

/-- How many of some bytes go out before writing fails. -/
def capacity (wire : Wire) (count : Nat) : Nat :=
  match wire.room with
  | some room => min room count
  | none => count

/-- How a write is told that finds no room. -/
def writeFailure (wire : Wire) : IoFault := wire.writeFault.getD (.ofKind .writeZero)

theorem capacity_le (wire : Wire) (count : Nat) : wire.capacity count ≤ count := by
  unfold capacity
  split
  · exact Nat.min_le_right _ _
  · exact Nat.le_refl _

theorem capacity_mono (wire : Wire) {fewer count : Nat} (hFewer : fewer ≤ count) :
    wire.capacity fewer ≤ wire.capacity count := by
  unfold capacity
  split
  · omega
  · exact hFewer

/-- Nothing of some bytes goes out only if there is no room. -/
theorem room_of_capacity {wire : Wire} {count : Nat} (hCount : 0 < count)
    (hNone : wire.capacity count = 0) : wire.room = some 0 := by
  unfold capacity at hNone
  split at hNone
  · next room hRoom =>
    rw [hRoom]
    exact congrArg some (by omega)
  · omega

/-- One write takes what there is room for of some of the bytes, one at least. -/
theorem exists_accepts {wire : Wire} (hMost : wire.writeMax ≠ some 0) {count : Nat}
    (hCount : 0 < count) :
    ∃ limited, 0 < limited ∧ limited ≤ count ∧ wire.accepts count = wire.capacity limited := by
  cases hMax : wire.writeMax with
  | none =>
      refine ⟨count, hCount, Nat.le_refl count, ?_⟩
      cases hRoom : wire.room <;> simp only [accepts, capacity, hMax, hRoom]
  | some most =>
      have hPos : most ≠ 0 := fun hZero => hMost (hMax.trans (congrArg some hZero))
      refine ⟨min most count, by omega, Nat.min_le_right _ _, ?_⟩
      cases hRoom : wire.room <;> simp only [accepts, capacity, hMax, hRoom]

@[simp] theorem put_nil (wire : Wire) : wire.put [] = wire := by
  simp [put]

theorem put_put (wire : Wire) (bytes more : List UInt8) :
    (wire.put bytes).put more = wire.put (bytes ++ more) := by
  simp [put, Function.comp_def, Nat.sub_sub]

theorem capacity_put (wire : Wire) (bytes : List UInt8) (count : Nat) :
    (wire.put bytes).capacity count = wire.capacity (bytes.length + count) - bytes.length := by
  cases hRoom : wire.room with
  | none => simp [capacity, put, hRoom]
  | some room =>
      simp only [capacity, put, hRoom, Option.map_some]
      omega

/-- As much goes out as there is room for, and if that is not all, writing fails. -/
theorem writeAll_eq (bytes : List UInt8) :
    ∀ {wire : Wire}, wire.writeMax ≠ some 0 →
      wire.writeAll bytes =
        (if wire.capacity bytes.length = bytes.length then .ok () else .error wire.writeFailure,
          wire.put (bytes.take (wire.capacity bytes.length))) := by
  induction hLength : bytes.length using Nat.strongRecOn generalizing bytes with
  | ind length ih =>
      subst hLength
      intro wire hMost
      have hBound := wire.capacity_le bytes.length
      rw [writeAll]
      by_cases hDone : bytes.length = 0
      · rw [dif_pos hDone, if_pos (by omega), List.eq_nil_of_length_eq_zero hDone, List.take_nil,
          put_nil]
      · obtain ⟨limited, hPos, hLimited, hAccepts⟩ :=
          exists_accepts hMost (Nat.pos_of_ne_zero hDone)
        have hTaken := wire.capacity_mono hLimited
        rw [dif_neg hDone, hAccepts]
        by_cases hNone : wire.capacity limited = 0
        · -- There is no room, and the write that finds this out fails.
          have hRoom := room_of_capacity hPos hNone
          have hCapacity : wire.capacity bytes.length = 0 := by simp [capacity, hRoom]
          have hRefusal : wire.refusal = wire.writeFailure := by
            rw [refusal, writeFailure, hRoom]
            cases wire.writeFault <;> rfl
          rw [dif_pos hNone, hCapacity, if_neg (Ne.symm hDone), hRefusal, List.take_zero, put_nil]
        · rw [dif_neg hNone]
          generalize wire.capacity limited = taken at hTaken hNone
          have hFront : (bytes.take taken).length = taken := by
            rw [List.length_take]
            omega
          have hBack : (bytes.drop taken).length = bytes.length - taken := List.length_drop
          have hWhole : taken + (bytes.length - taken) = bytes.length := by omega
          have hMore : (wire.put (bytes.take taken)).capacity (bytes.length - taken) =
              wire.capacity bytes.length - taken := by
            rw [capacity_put, hFront, hWhole]
          have hStill : (wire.put (bytes.take taken)).writeMax ≠ some 0 := hMost
          have hRest := ih _ (by omega) (bytes.drop taken) hBack hStill
          have hParts : bytes.take (wire.capacity bytes.length) =
              bytes.take taken ++ (bytes.drop taken).take (wire.capacity bytes.length - taken) := by
            rw [← List.take_add, Nat.add_sub_of_le hTaken]
          have hAll : wire.capacity bytes.length - taken = bytes.length - taken ↔
              wire.capacity bytes.length = bytes.length := by omega
          rw [hRest, hMore, put_put, ← hParts, show
            (wire.put (bytes.take taken)).writeFailure = wire.writeFailure from rfl]
          simp only [hAll]

theorem TakesAll.writeAll {wire : Wire} (hTakes : wire.TakesAll) (bytes : List UInt8) :
    wire.writeAll bytes = (.ok (), { wire with written := wire.written ++ bytes }) := by
  have hCapacity : wire.capacity bytes.length = bytes.length := by
    simp [capacity, hTakes.room]
  rw [writeAll_eq bytes hTakes.writeMax, hCapacity, if_pos rfl, List.take_length]
  simp [put, hTakes.room]

end Wire

end RelayRace.Proxy
