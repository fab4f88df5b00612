import RelayRace.Proofs.Proxy.Request
import RelayRace.Proofs.Text.Utf8

/-!
# Reading a request back

What a proxy makes of a request is told by a reader of its own
(`readRequest?`): it takes the lines before the blank one, cuts the target of the
request line at its last colon, wants the host line to repeat that target, and
reads the token of the credentials.  For a host that stays within its lines the
reader finds what the request was written from, so nothing is lost on the way and
no two questions share a request (`request_read_back`).

The last colon is the one that was written in front of the port, also in an
address of version 6, since no port has a colon in it.  Name and password are told
apart by nobody; what is read is the two with the colon between them.
-/

namespace RelayRace

/-- A user name and a password with a colon between them. -/
def Credentials.joined (c : Credentials) : String := c.username ++ ":" ++ c.password

end RelayRace

namespace RelayRace.Proxy

open Text

/-! ## The reader -/

/-- What a request asks for. -/
structure Asked where
  host : String
  port : UInt16
  /-- The bytes of user name, colon and password. -/
  credentials : Option (List UInt8)
  deriving DecidableEq, Repr

/-- What stands in front of the last mark of a text, and behind it. -/
def splitAtLast? (mark : Char) (text : List Char) : Option (List Char × List Char) :=
  match text.reverse.dropWhile (· != mark) with
  | _ :: front => some (front.reverse, (text.reverse.takeWhile (· != mark)).reverse)
  | [] => none

/-- A port in decimal digits. -/
def readPort? (digits : List Char) : Option UInt16 :=
  (readDecimal? digits).bind fun n => if n < UInt16.size then some (UInt16.ofNat n) else none

/-- A host and a port with a colon between them. -/
def readAuthority? (target : List Char) : Option (String × UInt16) :=
  (splitAtLast? ':' target).bind fun parts =>
    (readPort? parts.2).map fun port => (String.ofList parts.1, port)

/-- The place that a request line asks for. -/
def readTarget? (line : List Char) : Option (List Char) :=
  (line.dropPrefix? "CONNECT ".toList).bind fun rest => rest.dropSuffix? " HTTP/1.1".toList

/-- The lines behind the host line: none, or one with a token. -/
def readCredentials? : List (List Char) → Option (Option (List UInt8))
  | [] => some none
  | [line] =>
      (line.dropPrefix? "Proxy-Authorization: Basic ".toList).bind fun token =>
        (Base64.decode? token).map some
  | _ => none

/-- Reads a request up to its first blank line. -/
def readRequest? (request : String) : Option Asked :=
  match headersOf request with
  | first :: second :: more =>
      (readTarget? first).bind fun target =>
        if second = "Host: ".toList ++ target then
          (readAuthority? target).bind fun place =>
            (readCredentials? more).map fun credentials => ⟨place.1, place.2, credentials⟩
        else none
  | _ => none

/-! ## The parts of a request -/

theorem splitAtLast?_append {mark : Char} (front : List Char) {back : List Char}
    (hBack : mark ∉ back) : splitAtLast? mark (front ++ mark :: back) = some (front, back) := by
  have hMirrored : (front ++ mark :: back).reverse = back.reverse ++ mark :: front.reverse := by
    simp
  have hSkipped : ∀ c ∈ back.reverse, (c != mark) = true := by
    intro c hMem
    rw [bne_iff_ne]
    rintro rfl
    exact hBack (List.mem_reverse.mp hMem)
  have hStops : (mark != mark) = false := by simp
  rw [splitAtLast?, hMirrored, List.dropWhile_append_of_pos hSkipped,
    List.takeWhile_append_of_pos hSkipped, List.dropWhile_cons, List.takeWhile_cons, hStops]
  simp

theorem digitsOnto_toDigits (n : Nat) (rest : List Char) :
    digitsOnto decimalValue? 10 0 (Nat.toDigits 10 n ++ rest) =
      digitsOnto decimalValue? 10 n rest := by
  induction n using Nat.strongRecOn generalizing rest with
  | ind n ih =>
      have hDigit := Json.decimalValue?_digitChar (n % 10) (Nat.mod_lt n (by decide))
      by_cases hSmall : n < 10
      · rw [Nat.mod_eq_of_lt hSmall] at hDigit
        rw [Nat.toDigits_of_lt_base hSmall, List.singleton_append, digitsOnto, hDigit]
        simp
      · have hNumber : n / 10 * 10 + n % 10 = n := by omega
        rw [Nat.toDigits_of_base_le (by decide) (by omega), List.append_assoc,
          ih (n / 10) (by omega), List.singleton_append, digitsOnto, hDigit]
        simp [hNumber]

theorem readPort?_decimal (port : UInt16) :
    readPort? (decimal port.toNat).toList = some port := by
  have hDigits := digitsOnto_toDigits port.toNat []
  rw [List.append_nil] at hDigits
  have hRead : readDecimal? (Nat.toDigits 10 port.toNat) = some port.toNat := by
    obtain ⟨c, more, hCons⟩ := List.exists_cons_of_ne_nil (Nat.toDigits_ne_nil (n := port.toNat))
    rw [hCons] at hDigits ⊢
    exact hDigits
  have hBound : port.toNat < UInt16.size := port.toNat_lt
  rw [decimal, String.toList_ofList, readPort?, hRead]
  simp [hBound]

theorem readAuthority?_authority (host : String) (port : UInt16) :
    readAuthority? (authority host port).toList = some (host, port) := by
  have hColon := not_mem_decimal (show (':').isDigit = false by decide) port.toNat
  have hSplit := splitAtLast?_append host.toList hColon
  rw [readAuthority?, toList_authority, show ":".toList = [':'] from rfl, List.singleton_append,
    hSplit]
  simp [readPort?_decimal]

theorem readTarget?_requestLine (host : String) (port : UInt16) :
    readTarget? (requestLine host port).toList = some (authority host port).toList := by
  have hFront := List.dropPrefix?_append_of_beq
    ((authority host port).toList ++ " HTTP/1.1".toList) (BEq.refl "CONNECT ".toList)
  have hBack : ((authority host port).toList ++ " HTTP/1.1".toList).dropSuffix?
      " HTTP/1.1".toList = some (authority host port).toList :=
    List.dropSuffix?_eq_some_iff.mpr ⟨_, rfl, BEq.refl _⟩
  rw [readTarget?, toList_requestLine, hFront]
  exact hBack

/-- The token of credentials is read as the bytes of name and password. -/
theorem readCredentials?_lines (credentials : Option Credentials) :
    readCredentials? ((credentials.map credentialsLine).toList.map String.toList) =
      some (credentials.map fun c => Utf8.encode c.joined) := by
  cases credentials with
  | none => rfl
  | some c =>
      have hFront := List.dropPrefix?_append_of_beq (token c).toList
        (BEq.refl "Proxy-Authorization: Basic ".toList)
      have hRead : Base64.decode? (token c).toList = some (Utf8.encode c.joined) := by
        rw [token, String.toList_ofList]
        exact Base64.decode?_encode _
      simp only [Option.map_some, Option.toList_some, List.map_cons, List.map_nil,
        readCredentials?, toList_credentialsLine, hFront, Option.bind_some, hRead]

/-! ## Whole requests -/

/-- A request for a host that stays within its lines is read back. -/
theorem readRequest?_connectRequest {host : String} (hHost : ¬lineBreak <:+: host.toList)
    (port : UInt16) (credentials : Option Credentials) :
    readRequest? (connectRequest host port credentials) =
      some ⟨host, port, credentials.map fun c => Utf8.encode c.joined⟩ := by
  have hSeen := (headersOf_eq_headerLines_iff host port credentials).mpr hHost
  rw [headerLines, List.map_cons, List.map_cons] at hSeen
  rw [readRequest?, hSeen]
  simp only [readTarget?_requestLine, toList_hostLine, readAuthority?_authority,
    readCredentials?_lines, Option.bind_some, Option.map_some, if_true]

/-- Nothing but the name and the password, joined by a colon, is in the credentials
of a request. -/
theorem connectRequest_congr (host : String) (port : UInt16)
    {credentials others : Option Credentials}
    (hSame : credentials.map Credentials.joined = others.map Credentials.joined) :
    connectRequest host port credentials = connectRequest host port others := by
  have hLine : authorization credentials = authorization others := by
    cases credentials with
    | none =>
        cases others with
        | none => rfl
        | some other => cases hSame
    | some c =>
        cases others with
        | none => cases hSame
        | some other =>
            have hToken : token c = token other :=
              congrArg (fun text => String.ofList (Base64.encode (Utf8.encode text)))
                (Option.some.inj hSame)
            show "Proxy-Authorization: Basic " ++ token c ++ lineEnd =
              "Proxy-Authorization: Basic " ++ token other ++ lineEnd
            rw [hToken]
  unfold connectRequest
  rw [hLine]

/-- For all hosts that stay within their lines (as every host without a carriage
return or without a line feed does), all ports and all credentials: reading the
request gives back the host, the port and, if there were credentials, the bytes of
name, colon and password; the lines that are read are the two that name the same
place and the one with the token; and two requests are equal only if host, port and
the joined credentials are, and then they are. -/
theorem request_read_back {host other : String} (hHost : ¬lineBreak <:+: host.toList)
    (hOther : ¬lineBreak <:+: other.toList) (port otherPort : UInt16)
    (credentials others : Option Credentials) :
    readRequest? (connectRequest host port credentials) =
        some ⟨host, port, credentials.map fun c => Utf8.encode c.joined⟩ ∧
      headersOf (connectRequest host port credentials) =
        (headerLines host port credentials).map String.toList ∧
      (connectRequest host port credentials = connectRequest other otherPort others ↔
        host = other ∧ port = otherPort ∧
          credentials.map Credentials.joined = others.map Credentials.joined) := by
  have hRead := readRequest?_connectRequest hHost port credentials
  have hOtherRead := readRequest?_connectRequest hOther otherPort others
  refine ⟨hRead, (headersOf_eq_headerLines_iff host port credentials).mpr hHost, ?_, ?_⟩
  · intro hSame
    rw [hSame, hOtherRead] at hRead
    obtain ⟨rfl, rfl, hBytes⟩ := Asked.mk.inj (Option.some.inj hRead)
    refine ⟨rfl, rfl, ?_⟩
    have hInjective : Function.Injective fun text : String => Utf8.encode text :=
      fun _ _ hEncoded => Utf8.encode_injective hEncoded
    apply Option.map_injective hInjective
    simpa [Function.comp_def] using hBytes.symm
  · rintro ⟨rfl, rfl, hJoined⟩
    exact connectRequest_congr host port hJoined

/-- An address of version 6, and a name and a password with colons and line ends in
them; another way to part the two makes no other request. -/
theorem colons_and_line_ends_read_back :
    readRequest? (connectRequest "2001:db8::1" 443 (some ⟨"us:er", "\r\n\r\n"⟩)) =
        some ⟨"2001:db8::1", 443, some (Utf8.encode "us:er:\r\n\r\n")⟩ ∧
      connectRequest "2001:db8::1" 443 (some ⟨"us:er", "\r\n\r\n"⟩) =
        connectRequest "2001:db8::1" 443 (some ⟨"us", "er:\r\n\r\n"⟩) ∧
      connectRequest "2001:db8::1" 443 (some ⟨"us:er", "\r\n\r\n"⟩) ≠
        connectRequest "2001:db8:" 1443 none := by
  have hHost : ¬lineBreak <:+: ("2001:db8::1" : String).toList := by decide +kernel
  have hOther : ¬lineBreak <:+: ("2001:db8:" : String).toList := by decide +kernel
  obtain ⟨hRead, -, hParted⟩ := request_read_back hHost hHost 443 443
    (some ⟨"us:er", "\r\n\r\n"⟩) (some ⟨"us", "er:\r\n\r\n"⟩)
  obtain ⟨-, -, hApart⟩ := request_read_back hHost hOther 443 1443
    (some ⟨"us:er", "\r\n\r\n"⟩) none
  refine ⟨hRead, hParted.mpr ⟨rfl, rfl, rfl⟩, fun hSame => ?_⟩
  obtain ⟨-, hPort, -⟩ := hApart.mp hSame
  exact absurd hPort (by decide)

end RelayRace.Proxy
