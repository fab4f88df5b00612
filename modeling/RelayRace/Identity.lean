/-!
# What the library calls itself
-/

namespace RelayRace.Identity

/-- The name under which the selector is known to its hosts. -/
def name : String := "relay_selector"

/-- The version of the interface. -/
def version : String := "0.1.0"

/-- The purpose in one line. -/
def description : String :=
  "Concurrent multi-protocol relay server probing and selection engine"

end RelayRace.Identity
