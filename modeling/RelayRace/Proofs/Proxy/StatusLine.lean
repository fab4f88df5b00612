import RelayRace.Proofs.Json.Parts
import RelayRace.Proofs.Proxy.Exchange
import RelayRace.Proofs.Text.Utf8
import RelayRace.Proofs.Text.Words

/-!
# Which answers open a tunnel

An answer is judged by its first line: the bytes in front of the first line feed,
read as text, whatever they are (`firstLine`).  The tunnel is open if the first
word of the line names the protocol and the second is a status from 200 to 299
(`HasStatus`); every other line comes to one of three errors (`Judged`).

The text of a whole head is made first and cut at its first line feed then.  That
no byte behind the line feed plays a part rests on `Utf8.takeWhile_decode`.
-/

namespace RelayRace.Proxy

open Text

/-! ## Statuses -/

theorem decimalValue?_eq_some_iff {c : Char} {value : Nat} :
    decimalValue? c = some value ↔ value < 10 ∧ c = Nat.digitChar value := by
  constructor
  · intro hValue
    unfold decimalValue? at hValue
    split at hValue
    · next hDigit =>
      obtain ⟨hLow, hHigh⟩ : 48 ≤ c.toNat ∧ c.toNat ≤ 57 := hDigit
      obtain rfl : c.toNat - 48 = value := Option.some.inj hValue
      refine ⟨by omega, Char.toNat_inj.mp ?_⟩
      rw [Nat.toNat_digitChar_of_lt_ten (by omega)]
      omega
    · cases hValue
  · rintro ⟨hSmall, rfl⟩
    exact Json.decimalValue?_digitChar value hSmall

theorem toDigits_three {x y z : Nat} (hPos : 0 < x) (hx : x < 10) (hy : y < 10) (hz : z < 10) :
    Nat.toDigits 10 (100 * x + 10 * y + z) =
      [Nat.digitChar x, Nat.digitChar y, Nat.digitChar z] := by
  have hLast : (100 * x + 10 * y + z) % 10 = z := by omega
  have hFront : (100 * x + 10 * y + z) / 10 = 10 * x + y := by omega
  have hMiddle : (10 * x + y) % 10 = y := by omega
  have hFirst : (10 * x + y) / 10 = x := by omega
  rw [Nat.toDigits_of_base_le (by decide) (by omega), hLast, hFront,
    Nat.toDigits_of_base_le (by decide) (by omega), hMiddle, hFirst, Nat.toDigits_of_lt_base hx]
  rfl

/-- A status is read off its three digits and off nothing else. -/
theorem readStatus?_eq_some_iff {word : List Char} {status : Nat} :
    readStatus? word = some status ↔
      word = Nat.toDigits 10 status ∧ 100 ≤ status ∧ status ≤ 999 := by
  constructor
  · intro hRead
    unfold readStatus? at hRead
    split at hRead
    · split at hRead
      · next x y z hA hB hC =>
        obtain ⟨hx, rfl⟩ := decimalValue?_eq_some_iff.mp hA
        obtain ⟨hy, rfl⟩ := decimalValue?_eq_some_iff.mp hB
        obtain ⟨hz, rfl⟩ := decimalValue?_eq_some_iff.mp hC
        split at hRead
        · cases hRead
        · obtain rfl : 100 * x + 10 * y + z = status := Option.some.inj hRead
          exact ⟨(toDigits_three (by omega) hx hy hz).symm, by omega, by omega⟩
      · cases hRead
    · cases hRead
  · rintro ⟨rfl, hLow, hHigh⟩
    have hParts : 100 * (status / 100) + 10 * (status / 10 % 10) + status % 10 = status := by
      omega
    have hDigits := toDigits_three (x := status / 100) (y := status / 10 % 10) (z := status % 10)
      (by omega) (by omega) (by omega) (by omega)
    rw [hParts] at hDigits
    rw [hDigits, readStatus?, Json.decimalValue?_digitChar _ (by omega),
      Json.decimalValue?_digitChar _ (by omega), Json.decimalValue?_digitChar _ (by omega)]
    simp only [hParts]
    rw [if_neg (by omega)]

/-! ## Status lines -/

/-- The first word of a line names the protocol in its first major version. -/
def NamesProtocol (line : List Char) : Prop :=
  ∃ version more, words line = version :: more ∧ versionMark <+: version

/-- The first word of a line names the protocol, and the second is this status: three
digits, the first of them not zero. -/
def HasStatus (line : List Char) (status : Nat) : Prop :=
  ∃ version more, words line = version :: Nat.toDigits 10 status :: more ∧
    versionMark <+: version ∧ 100 ≤ status ∧ status ≤ 999

theorem ne_nil_of_versionMark {version : List Char} (hMark : versionMark <+: version) :
    version ≠ [] := by
  rintro rfl
  exact absurd (List.prefix_nil.mp hMark) (by decide)

theorem words_eq_cons {line word : List Char} {more : List (List Char)}
    (hWords : words line = word :: more) :
    (nextWord line).1 = word ∧ words (nextWord line).2 = more := by
  rw [words_eq_nextWord] at hWords
  split at hWords
  · cases hWords
  · exact List.cons.inj hWords

theorem words_of_nextWord {line : List Char} (hSome : (nextWord line).1 ≠ []) :
    words line = (nextWord line).1 :: words (nextWord line).2 := by
  rw [words_eq_nextWord, if_neg hSome]

theorem namesProtocol_iff (line : List Char) :
    NamesProtocol line ↔ versionMark <+: (nextWord line).1 := by
  constructor
  · rintro ⟨version, more, hWords, hMark⟩
    rwa [(words_eq_cons hWords).1]
  · intro hMark
    exact ⟨_, _, words_of_nextWord (ne_nil_of_versionMark hMark), hMark⟩

theorem hasStatus_iff (line : List Char) (status : Nat) :
    HasStatus line status ↔ versionMark <+: (nextWord line).1 ∧
      readStatus? (nextWord (nextWord line).2).1 = some status := by
  rw [readStatus?_eq_some_iff]
  constructor
  · rintro ⟨version, more, hWords, hMark, hRange⟩
    obtain ⟨hVersion, hRest⟩ := words_eq_cons hWords
    exact ⟨hVersion ▸ hMark, (words_eq_cons hRest).1, hRange⟩
  · rintro ⟨hMark, hDigits, hRange⟩
    have hSome : (nextWord (nextWord line).2).1 ≠ [] := hDigits ▸ Nat.toDigits_ne_nil
    refine ⟨_, words (nextWord (nextWord line).2).2, ?_, hMark, hRange⟩
    rw [words_of_nextWord (ne_nil_of_versionMark hMark), words_of_nextWord hSome, hDigits]

theorem HasStatus.read {line : List Char} {status : Nat} (hStatus : HasStatus line status) :
    readStatusLine line = .ok status := by
  obtain ⟨hMark, hRead⟩ := (hasStatus_iff line status).mp hStatus
  simp only [readStatusLine, List.isPrefixOf_iff_prefix.mpr hMark, hRead, if_true]

theorem read_of_not_status {line : List Char} (hNames : NamesProtocol line)
    (hNone : ∀ status, ¬HasStatus line status) :
    readStatusLine line =
      .error (.proxyTunnel ("malformed proxy status: " ++ String.ofList (trim line))) := by
  have hMark := (namesProtocol_iff line).mp hNames
  have hRead : readStatus? (nextWord (nextWord line).2).1 = none :=
    Option.eq_none_iff_forall_ne_some.mpr fun status hSome =>
      hNone status ((hasStatus_iff line status).mpr ⟨hMark, hSome⟩)
  simp only [readStatusLine, List.isPrefixOf_iff_prefix.mpr hMark, hRead, if_true]

theorem read_of_not_names {line : List Char} (hNames : ¬NamesProtocol line) :
    readStatusLine line =
      .error (.proxyTunnel ("malformed proxy response: " ++ String.ofList (trim line))) := by
  have hMark : ¬versionMark.isPrefixOf (nextWord line).1 = true := fun hPrefix =>
    hNames ((namesProtocol_iff line).mpr (List.isPrefixOf_iff_prefix.mp hPrefix))
  simp only [readStatusLine]
  rw [if_neg hMark]

/-! ## Verdicts -/

/-- The bytes of an answer in front of its first line feed, as text. -/
def firstLine (answer : List UInt8) : List Char := Utf8.decode (answer.takeWhile (· != 10))

/-- What the first line of an answer comes to. -/
structure Judged (host : String) (port : UInt16) (line : List Char)
    (result : Except Failure Unit) : Prop where
  /-- Exactly the statuses of success open a tunnel. -/
  opened : result = .ok () ↔ ∃ status, HasStatus line status ∧ 200 ≤ status ∧ status < 300
  /-- With another status the proxy refuses. -/
  refused : ∀ status, HasStatus line status → ¬(200 ≤ status ∧ status < 300) →
    result = .error (.proxyTunnel ("proxy refused CONNECT to " ++ authority host port ++ ": " ++
      String.ofList (trim line)))
  /-- A line of the protocol without a status is malformed. -/
  noStatus : NamesProtocol line → (∀ status, ¬HasStatus line status) →
    result = .error (.proxyTunnel ("malformed proxy status: " ++ String.ofList (trim line)))
  /-- So is a line of no such protocol. -/
  noProtocol : ¬NamesProtocol line →
    result = .error (.proxyTunnel ("malformed proxy response: " ++ String.ofList (trim line)))

theorem isSuccess_iff (status : Nat) : isSuccess status = true ↔ 200 ≤ status ∧ status < 300 := by
  simp [isSuccess]

/-- The verdict on a head is that on its first line. -/
theorem judged_verdict (host : String) (port : UInt16) (head : List UInt8) :
    Judged host port (firstLine head) (verdict host port head) := by
  unfold verdict
  rw [Utf8.takeWhile_decode, ← firstLine]
  generalize firstLine head = line
  constructor
  case opened =>
    constructor
    · intro hOpen
      by_cases hNames : NamesProtocol line
      · by_cases hSome : ∃ status, HasStatus line status
        · obtain ⟨status, hStatus⟩ := hSome
          refine ⟨status, hStatus, (isSuccess_iff status).mp ?_⟩
          simp only [hStatus.read] at hOpen
          split at hOpen
          · assumption
          · cases hOpen
        · simp only [read_of_not_status hNames (not_exists.mp hSome)] at hOpen
          cases hOpen
      · simp only [read_of_not_names hNames] at hOpen
        cases hOpen
    · rintro ⟨status, hStatus, hRange⟩
      simp only [hStatus.read, (isSuccess_iff status).mpr hRange, if_true]
  case refused =>
    intro status hStatus hRange
    have hFails : ¬isSuccess status = true := mt (isSuccess_iff status).mp hRange
    simp only [hStatus.read]
    rw [if_neg hFails]
  case noStatus =>
    intro hNames hNone
    simp only [read_of_not_status hNames hNone]
  case noProtocol =>
    intro hNames
    simp only [read_of_not_names hNames]

/-- A wire that takes a whole request and brings in this head, whatever may follow it. -/
structure Wire.Replies (wire : Wire) (head : List UInt8) : Prop where
  takes : wire.TakesAll
  comes : head.map .ok <+: wire.events
  isHead : IsHead head head.length
  fits : head.length ≤ headLimit

/-- The head alone decides. -/
theorem Wire.Replies.finishes {wire : Wire} {head : List UInt8} (hReplies : wire.Replies head)
    (host : String) (port : UInt16) (credentials : Option Credentials) :
    (openTunnel wire host port credentials).1 = .finished (verdict host port head) := by
  obtain ⟨behind, hComes⟩ := hReplies.comes
  have hAnswered := answered_of_takesAll hReplies.takes host port credentials
  exact (hAnswered.head head behind hComes.symm hReplies.isHead hReplies.fits).1

/-- Whatever bytes a head is made of: its first line decides whether the tunnel is
open and which error it is otherwise.  A head with the same first line comes to the
same, whatever either has behind that line. -/
theorem first_line_decides {wire other : Wire} {head otherHead : List UInt8}
    (hReplies : wire.Replies head) (hOther : other.Replies otherHead)
    (hSame : otherHead.takeWhile (· != 10) = head.takeWhile (· != 10)) (host : String)
    (port : UInt16) (credentials : Option Credentials) :
    ∃ result, Judged host port (firstLine head) result ∧
      (openTunnel wire host port credentials).1 = .finished result ∧
      (openTunnel other host port credentials).1 = .finished result := by
  have hVerdict : verdict host port otherHead = verdict host port head := by
    simp only [verdict, Utf8.takeWhile_decode, hSame]
  refine ⟨_, judged_verdict host port head, hReplies.finishes host port credentials, ?_⟩
  rw [hOther.finishes host port credentials, hVerdict]

namespace Sample

/-- A line in which wide blanks stand around the words, and a sequence breaks off at
its end. -/
def broad : List UInt8 :=
  [0xc2, 0xa0] ++ Utf8.encode "HTTP/1.1" ++ [0xe2, 0x80, 0x83] ++ Utf8.encode "204" ++
    [0xe3, 0x80, 0x80, 0xff, 0xe2, 0x80]

/-- That line, a line feed alone, a refusal and the empty line. -/
def refusing : List UInt8 := broad ++ Utf8.encode "\nHTTP/1.1 500 No\r\n\r\n"

/-- That line, a line feed alone and the empty line. -/
def bare : List UInt8 := broad ++ Utf8.encode "\n\r\n\r\n"

end Sample

/-- What looks like a refusal behind the first line is none. -/
theorem status_among_wide_blanks :
    (openTunnel { incoming := [.data Sample.refusing, .fault (.ofKind .connectionReset)] }
        "relay.example" 22 none).1 = .finished (.ok ()) ∧
      (openTunnel { incoming := [.data Sample.bare], heldOpen := true }
        "relay.example" 22 none).1 = .finished (.ok ()) := by
  have hReplies : Wire.Replies
      { incoming := [.data Sample.refusing, .fault (.ofKind .connectionReset)] }
      Sample.refusing :=
    ⟨⟨rfl, by decide⟩, ⟨_, rfl⟩, ⟨by decide +kernel, by decide +kernel⟩, by decide +kernel⟩
  have hOther : Wire.Replies { incoming := [.data Sample.bare], heldOpen := true } Sample.bare :=
    ⟨⟨rfl, by decide⟩, ⟨[], rfl⟩, ⟨by decide +kernel, by decide +kernel⟩, by decide +kernel⟩
  obtain ⟨result, hJudged, hFinished, hAlso⟩ :=
    first_line_decides hReplies hOther (by decide +kernel) "relay.example" 22 none
  have hStatus : HasStatus (firstLine Sample.refusing) 204 :=
    ⟨"HTTP/1.1".toList, [['\uFFFD', '\uFFFD']], by decide +kernel, by decide +kernel, by decide,
      by decide⟩
  have hOpened := hJudged.opened.mpr ⟨204, hStatus, by decide, by decide⟩
  rw [hOpened] at hFinished hAlso
  exact ⟨hFinished, hAlso⟩

end RelayRace.Proxy
