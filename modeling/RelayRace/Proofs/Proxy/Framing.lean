import RelayRace.Proofs.Proxy.Exchange

/-!
# Where the head of an answer ends

The head of an answer is the shortest beginning of it that ends in an empty line
(`IsHead`).  Of the bytes that a proxy sends, a tunnel takes the head if it has at
most `headLimit` bytes, `headLimit` bytes if it is longer or has no end within
them, and all bytes if they run out before.  What is behind that stays on the
wire, so the first byte of the tunnelled connection is never lost, and it does
not matter how the bytes were cut on their way.

What an exchange on any wire comes to is told by `Answered`; here the wires bring
in the whole answer and then close, so that its bytes alone decide (`HeadRead`).
-/

namespace RelayRace.Proxy

open Text

/-! ## Reading a head -/

/-- What reading the head of an answer comes to, and what is left unread. -/
inductive HeadRead (answer : List UInt8) : Except Failure (List UInt8) → List UInt8 → Prop where
  | complete (n : Nat) (hHead : IsHead answer n) (hFits : n ≤ headLimit) :
      HeadRead answer (.ok (answer.take n)) (answer.drop n)
  | tooLarge (hNone : ∀ n ≤ headLimit, ¬IsHead answer n) (hLong : headLimit ≤ answer.length) :
      HeadRead answer (.error (.proxyTunnel "proxy response header too large"))
        (answer.drop headLimit)
  | closed (hNone : ∀ n ≤ headLimit, ¬IsHead answer n) (hShort : answer.length < headLimit) :
      HeadRead answer
        (.error (.proxyTunnel "proxy closed connection before completing response")) []

theorem IsHead.unique {answer : List UInt8} {n m : Nat} (hHead : IsHead answer n)
    (hAlso : IsHead answer m) : n = m := by
  rcases Nat.lt_trichotomy n m with hLt | hEq | hGt
  · exact absurd hHead.ends (hAlso.first n hLt)
  · exact hEq
  · exact absurd hAlso.ends (hHead.first m hGt)

/-- An answer decides what reading its head comes to. -/
theorem HeadRead.unique {answer : List UInt8} {result other : Except Failure (List UInt8)}
    {unread left : List UInt8} (hRead : HeadRead answer result unread)
    (hAlso : HeadRead answer other left) : result = other ∧ unread = left := by
  cases hRead with
  | complete n hHead hFits =>
      cases hAlso with
      | complete m hSame _ =>
          rw [hHead.unique hSame]
          exact ⟨rfl, rfl⟩
      | tooLarge hNone _ | closed hNone _ => exact absurd hHead (hNone n hFits)
  | tooLarge hNone hLong =>
      cases hAlso with
      | complete m hHead hFits => exact absurd hHead (hNone m hFits)
      | tooLarge => exact ⟨rfl, rfl⟩
      | closed _ hShort => exact absurd hLong (Nat.not_le.mpr hShort)
  | closed hNone hShort =>
      cases hAlso with
      | complete m hHead hFits => exact absurd hHead (hNone m hFits)
      | tooLarge _ hLong => exact absurd hLong (Nat.not_le.mpr hShort)
      | closed => exact ⟨rfl, rfl⟩

/-! ## Whole exchanges -/

/-- What an exchange with a proxy comes to and what it leaves unread, by the bytes
of the answer. -/
structure Framed (host : String) (port : UInt16) (answer : List UInt8)
    (exchange : Exchange Unit × Wire) : Prop where
  /-- A head that fits is judged by its status line, and what is behind it is unread. -/
  head : ∀ n, IsHead answer n → n ≤ headLimit →
    exchange.1 = .finished (verdict host port (answer.take n)) ∧
      exchange.2.unread = answer.drop n
  /-- If no head ends within the limit, so many bytes are read and no more. -/
  tooLarge : (∀ n ≤ headLimit, ¬IsHead answer n) → headLimit ≤ answer.length →
    exchange.1 = .finished (.error (.proxyTunnel "proxy response header too large")) ∧
      exchange.2.unread = answer.drop headLimit
  /-- An answer that ends before is read to its end. -/
  closed : (∀ n ≤ headLimit, ¬IsHead answer n) → answer.length < headLimit →
    exchange.1 =
        .finished (.error (.proxyTunnel "proxy closed connection before completing response")) ∧
      exchange.2.unread = []

section Exchange

variable {wire other : Wire} {cuts otherCuts : List (List UInt8)}

/-- Where nothing but the answer comes in, it decides what is read and what is left. -/
theorem HeadRead.of_answered {host : String} {port : UInt16} {answer : List UInt8}
    {exchange : Exchange Unit × Wire}
    (hAnswered : Answered host port (answer.map .ok) false exchange.1 exchange.2.events) :
    ∃ result, HeadRead answer result exchange.2.unread ∧
      exchange.1 = .finished (result.bind (verdict host port)) := by
  have hParts : ∀ n, answer.map (Except.ok : UInt8 → Except IoFault UInt8) =
      (answer.take n).map .ok ++ (answer.drop n).map .ok := by
    intro n
    rw [← List.map_append, List.take_append_drop]
  rw [exchange.2.unread_eq]
  by_cases hSome : ∃ n ≤ headLimit, IsHead answer n
  · obtain ⟨n, hFits, hHead⟩ := hSome
    have hShorter := Nat.le_trans (List.length_take_le n answer) hFits
    obtain ⟨hFinished, hLeft⟩ := hAnswered.head _ _ (hParts n) hHead.take hShorter
    rw [hLeft, filterMap_map_ok]
    exact ⟨_, .complete n hHead hFits, hFinished⟩
  · have hNone : ∀ n ≤ headLimit, ¬IsHead answer n := fun n hLe hHead => hSome ⟨n, hLe, hHead⟩
    have hNoEnd := not_infix_take hNone
    rcases Nat.lt_or_ge answer.length headLimit with hShort | hLong
    · rw [List.take_of_length_le (Nat.le_of_lt hShort)] at hNoEnd
      obtain ⟨hFinished, hLeft⟩ := hAnswered.ended answer rfl hNoEnd hShort
      rw [hLeft]
      exact ⟨_, .closed hNone hShort, hFinished⟩
    · obtain ⟨hFinished, hLeft⟩ :=
        hAnswered.tooLarge _ _ (hParts headLimit) hNoEnd (List.length_take_of_le hLong)
      rw [hLeft, filterMap_map_ok]
      exact ⟨_, .tooLarge hNone hLong, hFinished⟩

theorem HeadRead.of_openTunnel (host : String) (port : UInt16) (credentials : Option Credentials)
    (hDelivers : wire.Delivers cuts) (hTakes : wire.TakesAll) :
    ∃ result,
      HeadRead cuts.flatten result (openTunnel wire host port credentials).2.unread ∧
        (openTunnel wire host port credentials).1 =
          .finished (result.bind (verdict host port)) ∧
        (openTunnel wire host port credentials).2.written =
          wire.written ++ Utf8.encode (connectRequest host port credentials) := by
  have hAnswered := answered_of_takesAll hTakes host port credentials
  rw [hDelivers.events, hDelivers.closes] at hAnswered
  obtain ⟨result, hRead, hFinished⟩ := HeadRead.of_answered hAnswered
  have hSent := hTakes.writeAll (Utf8.encode (connectRequest host port credentials))
  exact ⟨result, hRead, hFinished, written_of_sent hSent⟩

/-- An exchange that read what the answer decides is framed. -/
theorem HeadRead.framed {host : String} {port : UInt16} {answer : List UInt8}
    {exchange : Exchange Unit × Wire} {result : Except Failure (List UInt8)}
    (hRead : HeadRead answer result exchange.2.unread)
    (hFinished : exchange.1 = .finished (result.bind (verdict host port))) :
    Framed host port answer exchange where
  head n hHead hFits := by
    obtain ⟨rfl, hUnread⟩ := hRead.unique (.complete n hHead hFits)
    exact ⟨hFinished, hUnread⟩
  tooLarge hNone hLong := by
    obtain ⟨rfl, hUnread⟩ := hRead.unique (.tooLarge hNone hLong)
    exact ⟨hFinished, hUnread⟩
  closed hNone hShort := by
    obtain ⟨rfl, hUnread⟩ := hRead.unique (.closed hNone hShort)
    exact ⟨hFinished, hUnread⟩

/-- Whatever the answer and however it is cut: an exchange over a wire that takes
the whole request sends exactly that, reads exactly the head of the answer, so far
as it fits and is there, and comes to what the bytes decide.  Another way of
cutting the same bytes, or of taking the request, comes to the same. -/
theorem framed_however_cut (host : String) (port : UInt16) (credentials : Option Credentials)
    (hDelivers : wire.Delivers cuts) (hTakes : wire.TakesAll)
    (hOther : other.Delivers otherCuts) (hOtherTakes : other.TakesAll)
    (hSame : otherCuts.flatten = cuts.flatten) :
    Framed host port cuts.flatten (openTunnel wire host port credentials) ∧
      (openTunnel wire host port credentials).2.written =
        wire.written ++ Utf8.encode (connectRequest host port credentials) ∧
      (openTunnel other host port credentials).1 = (openTunnel wire host port credentials).1 ∧
      (openTunnel other host port credentials).2.unread =
        (openTunnel wire host port credentials).2.unread ∧
      (openTunnel other host port credentials).2.written =
        other.written ++ Utf8.encode (connectRequest host port credentials) := by
  obtain ⟨result, hRead, hFinished, hWritten⟩ :=
    HeadRead.of_openTunnel host port credentials hDelivers hTakes
  obtain ⟨otherResult, hOtherRead, hOtherFinished, hOtherWritten⟩ :=
    HeadRead.of_openTunnel host port credentials hOther hOtherTakes
  rw [hSame] at hOtherRead
  obtain ⟨rfl, hUnread⟩ := hOtherRead.unique hRead
  exact ⟨hRead.framed hFinished, hWritten, hOtherFinished.trans hFinished.symm, hUnread,
    hOtherWritten⟩

end Exchange

namespace Sample

/-- An answer with a stray carriage return before the empty line, and the first
bytes of the tunnelled connection behind it. -/
def cuts : List (List UInt8) :=
  [Utf8.encode "HTTP/1.1 200 OK\r\r", Utf8.encode "\n\r", Utf8.encode "\nSS", Utf8.encode "H"]

/-- The same bytes at once. -/
def joined : List (List UInt8) := [Utf8.encode "HTTP/1.1 200 OK\r\r\n\r\nSSH"]

/-- A wire that takes seven bytes with one write. -/
def slow : Wire := { incoming := cuts.map .data, writeMax := some 7 }

def quick : Wire := { incoming := joined.map .data }

end Sample

/-- Twenty bytes are the head, in four cuts or in one; the tunnelled connection
keeps its first byte. -/
theorem stray_return_before_empty_line :
    (openTunnel Sample.slow "relay.example" 22 none).1 = .finished (.ok ()) ∧
      (openTunnel Sample.quick "relay.example" 22 none).1 = .finished (.ok ()) ∧
      (openTunnel Sample.quick "relay.example" 22 none).2.unread = Utf8.encode "SSH" := by
  have hSlow : Sample.slow.Delivers Sample.cuts := ⟨rfl, rfl⟩
  have hQuick : Sample.quick.Delivers Sample.joined := ⟨rfl, rfl⟩
  have hSame : Sample.joined.flatten = Sample.cuts.flatten := by decide +kernel
  obtain ⟨hFramed, -, hResult, hUnread, -⟩ :=
    framed_however_cut "relay.example" 22 none hSlow ⟨rfl, by decide⟩ hQuick ⟨rfl, by decide⟩ hSame
  have hHead : IsHead Sample.cuts.flatten 20 := ⟨by decide +kernel, by decide +kernel⟩
  obtain ⟨hFinished, hBehind⟩ := hFramed.head 20 hHead (by decide)
  have hAccepted : verdict "relay.example" 22 (Sample.cuts.flatten.take 20) = .ok () :=
    rfl
  rw [hAccepted] at hFinished
  refine ⟨hFinished, hResult.trans hFinished, ?_⟩
  rw [hUnread, hBehind]
  decide +kernel

end RelayRace.Proxy
