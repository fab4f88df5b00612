import RelayRace.Proofs.Json.Entry
import RelayRace.Proofs.Text.Base64
import RelayRace.Proofs.Text.Lines
import RelayRace.Proxy.Request

/-!
# The lines of a request

A request is meant to be two or three lines and a blank one (`headerLines`).  The
host stands in two of them as it is given, and nothing looks at it before: any
text is the address of some entry that is read from a stored list.  So the
request is what it is meant to be exactly for the hosts without a line break
(`request_intact_iff`); a host with one adds lines of its own, and one with a
blank line in it ends the request early.  A port and credentials never break a
line, whatever is in the name and the password.
-/

namespace RelayRace.Proxy

open Text

/-! ## What a request is meant to be -/

/-- The line that asks for a tunnel. -/
def requestLine (host : String) (port : UInt16) : String :=
  "CONNECT " ++ authority host port ++ " HTTP/1.1"

/-- The line that names the place once more. -/
def hostLine (host : String) (port : UInt16) : String := "Host: " ++ authority host port

/-- The line that carries credentials. -/
def credentialsLine (c : Credentials) : String := "Proxy-Authorization: Basic " ++ token c

/-- The lines of a request before the blank one. -/
def headerLines (host : String) (port : UInt16) (credentials : Option Credentials) :
    List String :=
  requestLine host port :: hostLine host port :: (credentials.map credentialsLine).toList

/-- What a proxy sees that reads up to the first blank line. -/
def headersOf (request : String) : List (List Char) :=
  (lines request.toList).takeWhile (· ≠ [])

/-- A blank line in a text ends it. -/
def EndsAtBlank (text : List Char) : Prop :=
  ∀ front back, text = front ++ (blankLine ++ back) → back = []

/-! ## Characters -/

theorem not_mem_decimal {c : Char} (hDigit : c.isDigit = false) (n : Nat) :
    c ∉ (decimal n).toList := by
  intro hMem
  rw [decimal, String.toList_ofList] at hMem
  rw [Nat.isDigit_of_mem_toDigits (by decide) (by decide) hMem] at hDigit
  cases hDigit

theorem not_mem_token {c : Char} (hOther : c ≠ '=' ∧ ∀ value, value < 64 → c ≠ Base64.digit value)
    (credentials : Credentials) : c ∉ (token credentials).toList := by
  intro hMem
  rw [token, String.toList_ofList] at hMem
  rcases Base64.mem_encode _ hMem with hPad | ⟨value, hValue, hDigit⟩
  · exact hOther.1 hPad
  · exact hOther.2 value hValue hDigit

/-! ## The lines that are written -/

theorem toList_authority (host : String) (port : UInt16) :
    (authority host port).toList =
      host.toList ++ (":".toList ++ (decimal port.toNat).toList) := by
  rw [authority, String.toList_append, String.toList_append, List.append_assoc]

theorem toList_requestLine (host : String) (port : UInt16) :
    (requestLine host port).toList =
      "CONNECT ".toList ++ ((authority host port).toList ++ " HTTP/1.1".toList) := by
  show ("CONNECT " ++ authority host port ++ " HTTP/1.1").toList = _
  rw [String.toList_append, String.toList_append, List.append_assoc]

theorem toList_hostLine (host : String) (port : UInt16) :
    (hostLine host port).toList = "Host: ".toList ++ (authority host port).toList :=
  String.toList_append ..

theorem toList_credentialsLine (credentials : Credentials) :
    (credentialsLine credentials).toList =
      "Proxy-Authorization: Basic ".toList ++ (token credentials).toList :=
  String.toList_append ..

/-- The text of a request: each of its lines with its end, and the end of the
blank one. -/
theorem toList_connectRequest (host : String) (port : UInt16) (credentials : Option Credentials) :
    (connectRequest host port credentials).toList =
      (requestLine host port).toList ++ (lineBreak ++ ((hostLine host port).toList ++
        (lineBreak ++ ((authorization credentials).toList ++ lineBreak)))) := by
  have hEnd : lineEnd.toList = lineBreak := rfl
  show ("CONNECT " ++ authority host port ++ " HTTP/1.1" ++ lineEnd ++
    "Host: " ++ authority host port ++ lineEnd ++ authorization credentials ++ lineEnd).toList = _
  simp only [toList_requestLine, toList_hostLine, String.toList_append, hEnd, List.append_assoc]

/-- A mark of line ends is in the request line if and only if it is in the host. -/
theorem infix_requestLine_iff (mark : List Char) (host : String) (port : UInt16) :
    '\r' :: mark ++ ['\n'] <:+: (requestLine host port).toList ↔
      '\r' :: mark ++ ['\n'] <:+: host.toList := by
  have hDigits := not_mem_decimal (show ('\n').isDigit = false by decide) port.toNat
  have hBack : '\n' ∉ ":".toList ++ (decimal port.toNat).toList ++ " HTTP/1.1".toList := by
    simp [hDigits]
  rw [toList_requestLine, toList_authority, List.append_assoc, ← List.append_assoc,
    infix_between_iff (by decide) hBack]

theorem infix_hostLine_iff (mark : List Char) (host : String) (port : UInt16) :
    '\r' :: mark ++ ['\n'] <:+: (hostLine host port).toList ↔
      '\r' :: mark ++ ['\n'] <:+: host.toList := by
  have hDigits := not_mem_decimal (show ('\n').isDigit = false by decide) port.toNat
  have hBack : '\n' ∉ ":".toList ++ (decimal port.toNat).toList := by simp [hDigits]
  rw [toList_hostLine, toList_authority, ← List.append_assoc, infix_between_iff (by decide) hBack]

theorem lines_credentialsLine (credentials : Credentials) :
    lines (credentialsLine credentials).toList = [(credentialsLine credentials).toList] := by
  have hToken := not_mem_token (c := '\n') (by decide) credentials
  rw [lines_eq_singleton_iff]
  intro hBreak
  have hFeed : '\n' ∈ (credentialsLine credentials).toList :=
    hBreak.subset (show '\n' ∈ lineBreak by decide)
  rw [toList_credentialsLine, List.mem_append] at hFeed
  exact hFeed.elim (by decide) hToken

/-- What follows the two lines of every request: credentials if there are any, and
the blank line, behind which nothing comes. -/
theorem lines_authorization (credentials : Option Credentials) :
    lines ((authorization credentials).toList ++ lineBreak) =
      (credentials.map credentialsLine).toList.map String.toList ++ [[], []] := by
  cases credentials with
  | none => rfl
  | some c =>
      have hText : (authorization (some c)).toList = (credentialsLine c).toList ++ lineBreak :=
        String.toList_append ..
      rw [hText, List.append_assoc, lines_append, lines_credentialsLine]
      rfl

/-- A request has the lines of its request line, of its host line and of its
credentials, and two empty ones. -/
theorem lines_connectRequest (host : String) (port : UInt16) (credentials : Option Credentials) :
    lines (connectRequest host port credentials).toList =
      lines (requestLine host port).toList ++ (lines (hostLine host port).toList ++
        ((credentials.map credentialsLine).toList.map String.toList ++ [[], []])) := by
  rw [toList_connectRequest, lines_append, lines_append, lines_authorization]

/-! ## What becomes of a host -/

theorem unbroken_lines_iff (host : String) (port : UInt16) :
    lines (requestLine host port).toList = [(requestLine host port).toList] ∧
        lines (hostLine host port).toList = [(hostLine host port).toList] ↔
      ¬lineBreak <:+: host.toList := by
  rw [lines_eq_singleton_iff, lines_eq_singleton_iff]
  have hRequest := infix_requestLine_iff [] host port
  have hHost := infix_hostLine_iff [] host port
  exact (and_congr (not_congr hRequest) (not_congr hHost)).trans (and_self_iff ..)

/-- The lines are those that are meant if and only if the host is within its
lines. -/
theorem lines_eq_headerLines_iff (host : String) (port : UInt16)
    (credentials : Option Credentials) :
    lines (connectRequest host port credentials).toList =
        (headerLines host port credentials ++ ["", ""]).map String.toList ↔
      ¬lineBreak <:+: host.toList := by
  have hMeant : (headerLines host port credentials ++ ["", ""]).map String.toList =
      [(requestLine host port).toList] ++ ([(hostLine host port).toList] ++
        ((credentials.map credentialsLine).toList.map String.toList ++ [[], []])) := by
    simp [headerLines]
  rw [lines_connectRequest, hMeant, ← unbroken_lines_iff host port]
  constructor
  · intro hLines
    -- Each of the two has a line at least, so neither can have two.
    have hLength := congrArg List.length hLines
    have hRequest := List.length_pos_of_ne_nil (lines_ne_nil (requestLine host port).toList)
    have hHost := List.length_pos_of_ne_nil (lines_ne_nil (hostLine host port).toList)
    simp only [List.length_append, List.length_singleton] at hLength
    obtain ⟨hFirst, hRest⟩ := List.append_inj hLines (by simp; omega)
    exact ⟨hFirst, (List.append_inj hRest (by simp; omega)).1⟩
  · rintro ⟨hRequest, hHost⟩
    rw [hRequest, hHost]

theorem ne_nil_of_mem_headerLines {host line : String} {port : UInt16}
    {credentials : Option Credentials} (hLine : line ∈ headerLines host port credentials) :
    line.toList ≠ [] := by
  rw [headerLines, List.mem_cons, List.mem_cons] at hLine
  rcases hLine with rfl | rfl | hLine
  · rw [toList_requestLine]
    exact List.append_ne_nil_of_left_ne_nil (by decide) _
  · rw [toList_hostLine]
    exact List.append_ne_nil_of_left_ne_nil (by decide) _
  · obtain ⟨c, -, rfl⟩ := Option.map_eq_some_iff.mp (Option.mem_toList.mp hLine)
    rw [toList_credentialsLine]
    exact List.append_ne_nil_of_left_ne_nil (by decide) _

/-- What a proxy sees before the first blank line are the lines that are meant if
and only if the host is within its lines. -/
theorem headersOf_eq_headerLines_iff (host : String) (port : UInt16)
    (credentials : Option Credentials) :
    headersOf (connectRequest host port credentials) =
        (headerLines host port credentials).map String.toList ↔
      ¬lineBreak <:+: host.toList := by
  constructor
  · intro hSeen hBreak
    have hLine : (requestLine host port).toList ∈
        headersOf (connectRequest host port credentials) := by
      rw [hSeen]
      exact List.mem_map_of_mem List.mem_cons_self
    exact not_lineBreak_of_mem_lines ((List.takeWhile_prefix _).subset hLine)
      ((infix_requestLine_iff [] host port).mpr hBreak)
  · intro hUnbroken
    rw [headersOf, (lines_eq_headerLines_iff host port credentials).mpr hUnbroken, List.map_append,
      List.takeWhile_append_of_pos]
    · simp
    · intro line hLine
      obtain ⟨text, hText, rfl⟩ := List.mem_map.mp hLine
      simpa using ne_nil_of_mem_headerLines hText

/-- No line of the request line or of the host line is empty, unless there is a
blank line in the host. -/
theorem nil_not_mem_lines {host : String} (port : UInt16) (hHost : ¬blankLine <:+: host.toList) :
    [] ∉ lines (requestLine host port).toList ∧ [] ∉ lines (hostLine host port).toList := by
  constructor
  · intro hBlank
    refine hHost ((infix_requestLine_iff ['\n', '\r'] host port).mp
      (blankLine_of_mem_lines hBlank ?_ ?_ ?_))
    · rw [toList_requestLine]
      exact List.append_ne_nil_of_left_ne_nil (by decide) _
    · rw [toList_requestLine]
      rintro ⟨rest, hRest⟩
      simp [lineBreak] at hRest
    · rw [toList_requestLine, ← List.append_assoc]
      exact not_lineBreak_suffix (by decide) (by decide)
  · intro hBlank
    refine hHost ((infix_hostLine_iff ['\n', '\r'] host port).mp
      (blankLine_of_mem_lines hBlank ?_ ?_ ?_))
    · rw [toList_hostLine]
      exact List.append_ne_nil_of_left_ne_nil (by decide) _
    · rw [toList_hostLine]
      rintro ⟨rest, hRest⟩
      simp [lineBreak] at hRest
    · rw [toList_hostLine, toList_authority, ← List.append_assoc, ← List.append_assoc]
      refine not_lineBreak_suffix ?_ (not_mem_decimal (by decide) _)
      rw [decimal, String.toList_ofList]
      exact Nat.toDigits_ne_nil

/-- A blank line ends a request if and only if there is none in the host. -/
theorem endsAtBlank_iff (host : String) (port : UInt16) (credentials : Option Credentials) :
    EndsAtBlank (connectRequest host port credentials).toList ↔ ¬blankLine <:+: host.toList := by
  constructor
  · intro hEnds hBlank
    obtain ⟨front, back, hLine⟩ := (infix_requestLine_iff ['\n', '\r'] host port).mpr hBlank
    have hNone := hEnds front (back ++ (lineBreak ++ ((hostLine host port).toList ++
      (lineBreak ++ ((authorization credentials).toList ++ lineBreak))))) (by
        rw [toList_connectRequest, ← hLine]
        simp only [blankLine, lineBreak, List.append_assoc, List.cons_append, List.nil_append])
    simp [lineBreak] at hNone
  · intro hHost front back hText
    obtain ⟨hRequest, hLine⟩ := nil_not_mem_lines port hHost
    have hLines := lines_connectRequest host port credentials
    rw [← List.append_assoc, ← List.append_assoc] at hLines
    refine eq_nil_of_blankLine hLines ?_ hText
    simp only [List.mem_append, not_or]
    refine ⟨⟨hRequest, hLine⟩, fun hMem => ?_⟩
    obtain ⟨line, hMember, hEmpty⟩ := List.mem_map.mp hMem
    have hMeant : line ∈ headerLines host port credentials :=
      List.mem_cons_of_mem _ (List.mem_cons_of_mem _ hMember)
    exact ne_nil_of_mem_headerLines hMeant hEmpty

/-! ## Stored hosts -/

/-- Any text is the address of an entry that is read from a stored list. -/
theorem exists_stored (host : String) :
    ∃ text list, ServerList.ofJson text = .ok list ∧ host ∈ list.addresses := by
  let list : ServerList := { entries := [{ ipAddress := host }] }
  refine ⟨list.toJson, list, ?_, List.mem_singleton.mpr rfl⟩
  rw [ServerList.ofJson, ServerList.toJson, Json.readEntries_printEntries]

/-- An address that stands in a stored list is any text, and nothing looks at it
before it is written into a request.  So for every address, port and credentials:
a blank line is at the end of the request and nowhere else exactly if there is none
in the address; the lines of the request are the ones that are meant exactly if the
address does not break a line, and the same is true of what a proxy sees that reads
up to the first blank line. -/
theorem request_intact_iff (host : String) (port : UInt16) (credentials : Option Credentials) :
    (∃ text list, ServerList.ofJson text = .ok list ∧ host ∈ list.addresses) ∧
      (EndsAtBlank (connectRequest host port credentials).toList ↔
        ¬blankLine <:+: host.toList) ∧
      (lines (connectRequest host port credentials).toList =
          (headerLines host port credentials ++ ["", ""]).map String.toList ↔
        ¬lineBreak <:+: host.toList) ∧
      (headersOf (connectRequest host port credentials) =
          (headerLines host port credentials).map String.toList ↔
        ¬lineBreak <:+: host.toList) :=
  ⟨exists_stored host, endsAtBlank_iff host port credentials,
    lines_eq_headerLines_iff host port credentials,
    headersOf_eq_headerLines_iff host port credentials⟩

namespace Sample

/-- A stored list with an entry whose address goes on over several lines. -/
def stored : String := "[\x7b\"ip_address\":\"a\\r\\nX: y\\r\\n\\r\\n\"\x7d]"

/-- The address of the entry. -/
def broken : String := "a\r\nX: y\r\n\r\n"

end Sample

/-- An address that is read from a stored list adds a header to the request and
ends it before its time. -/
theorem address_adds_header :
    ServerList.ofJson Sample.stored = .ok { entries := [{ ipAddress := Sample.broken }] } ∧
      ¬EndsAtBlank (connectRequest Sample.broken 8080 none).toList ∧
      lines (connectRequest Sample.broken 8080 none).toList ≠
        (headerLines Sample.broken 8080 none ++ ["", ""]).map String.toList ∧
      headersOf (connectRequest Sample.broken 8080 none) =
        ["CONNECT a", "X: y"].map String.toList := by
  refine ⟨by decide +kernel, ?_, ?_, by decide +kernel⟩
  · rw [endsAtBlank_iff]
    decide +kernel
  · rw [Ne, lines_eq_headerLines_iff]
    decide +kernel

end RelayRace.Proxy
