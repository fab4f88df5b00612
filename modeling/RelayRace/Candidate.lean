import RelayRace.Protocol

/-!
# Candidate relays

A candidate is one entry of the stored server list. A round treats it as a
value: a probe works on its own copy and writes back two fields only, the
protocol it chose (`connType`) and the fronting domain it went through
(`front`).

The queries decide what a round may do with an entry. `supports` and
`testPort?` are deliberately independent of each other: a relay may offer a
protocol and still have no port to reach it on, and the filter of a round asks
both.
-/

namespace RelayRace

/-- One entry of the server list. Absent options are `none`; an entry that
leaves a text or a list out has it empty. -/
structure Candidate where
  ipAddress : String := ""
  region : String := ""
  capabilities : List Capability := []
  sshPort : Option UInt16 := none
  sshObfuscatedPort : Option UInt16 := none
  sshObfuscatedKey : String := ""
  meekServerPort : Option UInt16 := none
  meekObfuscatedKey : String := ""
  meekCookieKey : String := ""
  meekFrontingDomain : Option String := none
  meekFrontingHost : Option String := none
  connType : Option Protocol := none
  front : Option String := none
  deriving DecidableEq, Repr, Inhabited

namespace Candidate

/-- The entry of which nothing but the address is known. -/
def ofAddress (ipAddress : String) : Candidate := { ipAddress }

/-! ## Changes -/

/-- Adds a capability unless the candidate has it already. -/
def addCapability (candidate : Candidate) (capability : Capability) : Candidate :=
  if candidate.capabilities.contains capability then candidate
  else { candidate with capabilities := candidate.capabilities ++ [capability] }

/-- Sets the domain and the host name by which a web front is reached. -/
def withFronting (candidate : Candidate) (domain host : String) : Candidate :=
  { candidate with meekFrontingDomain := some domain, meekFrontingHost := some host }

/-! ## Queries -/

/-- Whether the candidate has the capability. -/
def has (candidate : Candidate) (capability : Capability) : Bool :=
  candidate.capabilities.contains capability

/-- Whether the candidate has at least one of the capabilities. -/
def hasAny (candidate : Candidate) (capabilities : List Capability) : Bool :=
  capabilities.any candidate.has

/-- Whether the candidate can be reached over the protocol: it has the required
capability, and for a fronted connection it also names a fronting domain. -/
def supports (candidate : Candidate) (protocol : Protocol) : Bool :=
  candidate.has protocol.requiredCapability &&
    match protocol with
    | .frontedMeekOssh => candidate.meekFrontingDomain.isSome
    | .ossh | .unfrontedMeekOssh => true

/-- Whether the candidate may be used under a region filter. No filter and the
empty filter let every region through. -/
def inRegion (candidate : Candidate) : Option String → Bool
  | none => true
  | some region => region == "" || candidate.region == region

/-- The port on which reachability is tested: the obfuscated one if the
candidate speaks obfuscated SSH, else the plain one if it speaks SSH. -/
def testPort? (candidate : Candidate) : Option UInt16 :=
  if candidate.has .ossh then candidate.sshObfuscatedPort
  else if candidate.has .ssh then candidate.sshPort
  else none

/-- Whether two entries stand for the same relay: they have one address. -/
def sameServer (candidate other : Candidate) : Bool :=
  candidate.ipAddress == other.ipAddress

/-- Takes over the fields that a probe wrote back, where it wrote them. -/
def takeWrittenBack (entry winner : Candidate) : Candidate :=
  { entry with
    connType := winner.connType.or entry.connType
    front := winner.front.or entry.front }

/-- The fields of `fetched`, except that what a probe once wrote back is kept
where the fetched entry leaves it open. -/
def replacedBy (entry fetched : Candidate) : Candidate :=
  { fetched with
    connType := fetched.connType.or entry.connType
    front := fetched.front.or entry.front }

@[simp]
theorem takeWrittenBack_ipAddress (entry winner : Candidate) :
    (entry.takeWrittenBack winner).ipAddress = entry.ipAddress := rfl

@[simp]
theorem replacedBy_ipAddress (entry fetched : Candidate) :
    (entry.replacedBy fetched).ipAddress = fetched.ipAddress := rfl

end Candidate

end RelayRace
