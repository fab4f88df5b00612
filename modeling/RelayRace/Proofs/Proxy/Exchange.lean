import RelayRace.Proofs.Proxy.Head

/-!
# An exchange with a proxy on any wire

Writing may take the request in any number of pieces and fail at any byte, and
reading may fail at any byte of the answer and at several.  What an exchange comes
to is decided by how far it got at the first of these places: the request goes out
as far as there is room for it, nothing is read before all of it is out, and the
answer is then judged by the bytes in front of its first fault (`Answered`).  What
stands behind the head of an answer, a fault or not, is left where it is.
-/

namespace RelayRace.Proxy

open Text

variable {α β : Type}

/-- An exchange whose result is looked at further. -/
def Exchange.andThen (next : α → Except Failure β) : Exchange α → Exchange β
  | .waiting => .waiting
  | .finished result => .finished (result.bind next)

/-- What an exchange comes to when its request is out, told by the bytes and faults
that come in; `left` is what it leaves of them. -/
structure Answered (host : String) (port : UInt16) (coming : List (Except IoFault UInt8))
    (heldOpen : Bool) (result : Exchange Unit) (left : List (Except IoFault UInt8)) : Prop where
  /-- A head that fits is judged by its bytes, and what is behind it stays. -/
  head : ∀ bytes behind, coming = bytes.map .ok ++ behind → IsHead bytes bytes.length →
    bytes.length ≤ headLimit → result = .finished (verdict host port bytes) ∧ left = behind
  /-- Of bytes without an empty line among them no more are read than a head may have. -/
  tooLarge : ∀ bytes behind, coming = bytes.map .ok ++ behind → ¬emptyLine <:+: bytes →
    bytes.length = headLimit →
    result = .finished (.error (.proxyTunnel "proxy response header too large")) ∧ left = behind
  /-- A fault in front of the end of the head ends the exchange. -/
  broken : ∀ bytes fault behind, coming = bytes.map .ok ++ .error fault :: behind →
    ¬emptyLine <:+: bytes → bytes.length < headLimit →
    result = .finished (.error (.proxyTunnel ("read CONNECT response: " ++ fault.text))) ∧
      left = behind
  /-- So does the end of the answer, and silence keeps it waiting. -/
  ended : ∀ bytes, coming = bytes.map .ok → ¬emptyLine <:+: bytes → bytes.length < headLimit →
    result = (if heldOpen then .waiting else
      .finished (.error (.proxyTunnel "proxy closed connection before completing response"))) ∧
      left = []

section Sent

variable {wire asked : Wire} {host : String} {port : UInt16} {credentials : Option Credentials}

/-- When its request is out, an exchange reads the head of the answer and judges it. -/
theorem openTunnel_of_sent
    (hSent : wire.writeAll (Utf8.encode (connectRequest host port credentials)) = (.ok (), asked)) :
    openTunnel wire host port credentials =
      ((readHead headLimit [] asked).1.andThen (verdict host port),
        (readHead headLimit [] asked).2) := by
  simp only [openTunnel, hSent]
  rcases readHead headLimit [] asked with ⟨_ | result, after⟩
  · rfl
  · cases result <;> rfl

theorem written_of_sent
    (hSent : wire.writeAll (Utf8.encode (connectRequest host port credentials)) = (.ok (), asked)) :
    (openTunnel wire host port credentials).2.written = asked.written := by
  rw [openTunnel_of_sent hSent]
  exact readHead_written headLimit [] asked

theorem answered_of_sent
    (hSent : wire.writeAll (Utf8.encode (connectRequest host port credentials)) = (.ok (), asked)) :
    Answered host port asked.events asked.heldOpen (openTunnel wire host port credentials).1
      (openTunnel wire host port credentials).2.events := by
  rw [openTunnel_of_sent hSent]
  constructor
  case head =>
    intro bytes behind hComing hHead hFits
    obtain ⟨now, hLeaves, hRead⟩ := readHead_head hComing hHead hFits
    rw [hRead]
    exact ⟨rfl, hLeaves.events⟩
  case tooLarge =>
    intro bytes behind hComing hNone hFull
    obtain ⟨now, hLeaves, hRead⟩ := readHead_tooLarge hNone hComing hFull
    rw [hRead]
    exact ⟨rfl, hLeaves.events⟩
  case broken =>
    intro bytes fault behind hComing hNone hShort
    obtain ⟨now, hLeaves, hRead⟩ := readHead_broken hNone hShort hComing
    rw [hRead]
    exact ⟨rfl, hLeaves.events⟩
  case ended =>
    intro bytes hComing hNone hShort
    obtain ⟨now, hLeaves, hRead⟩ := readHead_ended hNone hShort hComing
    rw [hRead]
    refine ⟨?_, hLeaves.events⟩
    cases asked.heldOpen <;> rfl

/-- Where the wire takes all of it, the request is out. -/
theorem answered_of_takesAll (hTakes : wire.TakesAll) (host : String) (port : UInt16)
    (credentials : Option Credentials) :
    Answered host port wire.events wire.heldOpen (openTunnel wire host port credentials).1
      (openTunnel wire host port credentials).2.events := by
  have hAnswered :=
    answered_of_sent (hTakes.writeAll (Utf8.encode (connectRequest host port credentials)))
  exact hAnswered

end Sent

/-- What an exchange comes to on a wire on which writing and reading may fail. -/
structure Contained (wire : Wire) (host : String) (port : UInt16) (request : List UInt8)
    (exchange : Exchange Unit × Wire) : Prop where
  /-- The request goes out as far as there is room for it. -/
  sent : exchange.2.written = wire.written ++ request.take (wire.capacity request.length)
  /-- If writing fails, the exchange fails with that fault and has read nothing. -/
  refused : wire.capacity request.length < request.length →
    exchange.1 = .finished (.error (.proxyTunnel ("write CONNECT: " ++ wire.writeFailure.text))) ∧
      exchange.2.incoming = wire.incoming
  /-- If anything was read, the whole request is out. -/
  sentFirst : exchange.2.events ≠ wire.events → exchange.2.written = wire.written ++ request
  /-- If the whole request is out, the answer decides. -/
  answered : wire.capacity request.length = request.length →
    Answered host port wire.events wire.heldOpen exchange.1 exchange.2.events

/-- Wherever writing or reading fails: as long as a write takes at least one byte
while there is room, an exchange comes to what was complete by then. -/
theorem failures_contained {wire : Wire} (hMost : wire.writeMax ≠ some 0) (host : String)
    (port : UInt16) (credentials : Option Credentials) :
    Contained wire host port (Utf8.encode (connectRequest host port credentials))
      (openTunnel wire host port credentials) := by
  have hWritten := Wire.writeAll_eq (Utf8.encode (connectRequest host port credentials)) hMost
  by_cases hRoom : wire.capacity (Utf8.encode (connectRequest host port credentials)).length =
      (Utf8.encode (connectRequest host port credentials)).length
  · rw [if_pos hRoom, hRoom, List.take_length] at hWritten
    have hOut := written_of_sent hWritten
    have hAnswered := answered_of_sent hWritten
    constructor
    case sent =>
      rw [hOut, hRoom, List.take_length]
      rfl
    case refused => exact fun hShort => absurd hRoom (Nat.ne_of_lt hShort)
    case sentFirst => exact fun _ => hOut
    case answered => exact fun _ => hAnswered
  · rw [if_neg hRoom] at hWritten
    simp only [openTunnel, hWritten]
    constructor
    case sent => rfl
    case refused => exact fun _ => ⟨rfl, rfl⟩
    case sentFirst => exact fun hRead => absurd rfl hRead
    case answered => exact fun hAll => absurd hAll hRoom

namespace Sample

/-- The head of an answer. -/
def accepting : List UInt8 := Utf8.encode "HTTP/1.1 200 OK\r\n\r\n"

/-- A wire that fails right behind that head, takes three bytes with one write and
has room for the request and no more. -/
def strained : Wire where
  incoming := [.data accepting, .fault (.ofKind .connectionReset)]
  writeMax := some 3
  room := some 61

end Sample

/-- The fault behind the head is not seen, and stays on the wire. -/
theorem fault_behind_head :
    (openTunnel Sample.strained "relay.example" 22 none).1 = .finished (.ok ()) ∧
      (openTunnel Sample.strained "relay.example" 22 none).2.events =
        [.error (.ofKind .connectionReset)] := by
  have hMost : Sample.strained.writeMax ≠ some 0 := by decide
  have hContained := failures_contained hMost "relay.example" 22 none
  have hRoom : Sample.strained.capacity
      (Utf8.encode (connectRequest "relay.example" 22 none)).length =
        (Utf8.encode (connectRequest "relay.example" 22 none)).length := by
    decide +kernel
  have hComing : Sample.strained.events =
      Sample.accepting.map .ok ++ [.error (.ofKind .connectionReset)] := rfl
  have hHead : IsHead Sample.accepting Sample.accepting.length :=
    ⟨by decide +kernel, by decide +kernel⟩
  obtain ⟨hFinished, hLeft⟩ :=
    (hContained.answered hRoom).head Sample.accepting _ hComing hHead (by decide +kernel)
  exact ⟨hFinished, hLeft⟩

end RelayRace.Proxy
