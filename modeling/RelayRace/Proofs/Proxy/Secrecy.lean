import RelayRace.Proofs.Proxy.Exchange

/-!
# What an exchange shows of its credentials

Credentials go out with the request, and reading does not look at what went out
(`readHead_carrying`).  So two exchanges over a wire that takes the whole request
and brings in the same differ in what went out and in nothing else
(`openTunnel_eq_carrying`), whatever credentials they send and whether they send any.

A diagnostic of a proxy shows the name of the user and nothing else of its
credentials (`Credentials.shown_congr`).
-/

namespace RelayRace

namespace Proxy

open Text

/-- The same wire, of which something else went out. -/
def Wire.carrying (wire : Wire) (bytes : List UInt8) : Wire := { wire with written := bytes }

/-- Carrying other bytes does not change which are unread. -/
@[simp] theorem Wire.unread_carrying (wire : Wire) (bytes : List UInt8) :
    (wire.carrying bytes).unread = wire.unread := rfl

/-- A read does not look at what went out. -/
theorem Wire.read_carrying (wire : Wire) (bytes : List UInt8) :
    (wire.carrying bytes).read = (wire.read.1, wire.read.2.carrying bytes) := by
  rw [read, read, show (wire.carrying bytes).incoming = wire.incoming from rfl]
  cases take wire.incoming with
  | none => rfl
  | some taken => rfl

/-- Nor does the loop that reads a head. -/
theorem readHead_carrying (bytes : List UInt8) (room : Nat) :
    ∀ (reversed : List UInt8) (wire : Wire),
      readHead room reversed (wire.carrying bytes) =
        ((readHead room reversed wire).1, (readHead room reversed wire).2.carrying bytes) := by
  induction room with
  | zero =>
      intro reversed wire
      rw [readHead, readHead]
      split <;> rfl
  | succ room ih =>
      intro reversed wire
      rw [readHead, readHead, wire.read_carrying]
      split
      · rfl
      · rcases wire.read with ⟨b | fault | _ | _, after⟩
        case byte => exact ih (b :: reversed) after
        all_goals rfl

/-- Where the wire takes the whole request, an exchange with other credentials
sends another request, and that is all the difference. -/
theorem openTunnel_eq_carrying {wire : Wire} (hTakes : wire.TakesAll) (host : String)
    (port : UInt16) (mine theirs : Option Credentials) :
    openTunnel wire host port theirs =
      ((openTunnel wire host port mine).1,
        (openTunnel wire host port mine).2.carrying
          (wire.written ++ Utf8.encode (connectRequest host port theirs))) := by
  have hSent : ∀ credentials : Option Credentials,
      wire.writeAll (Utf8.encode (connectRequest host port credentials)) =
        (.ok (), wire.carrying
          (wire.written ++ Utf8.encode (connectRequest host port credentials))) :=
    fun credentials => hTakes.writeAll _
  rw [openTunnel_of_sent (hSent theirs), openTunnel_of_sent (hSent mine), readHead_carrying,
    readHead_carrying]
  rfl

end Proxy

/-- Of credentials, a diagnostic shows the name of the user. -/
theorem Credentials.shown_congr {mine theirs : Credentials}
    (hName : theirs.username = mine.username) : theirs.shown = mine.shown := by
  rw [shown, shown, hName]

/-- And so does a diagnostic of the proxy that asks for them. -/
theorem ProxySettings.shown_congr {mine theirs : Credentials}
    (hName : theirs.username = mine.username) (host : String) (port : UInt16) :
    (ProxySettings.mk host port (some theirs)).shown =
      (ProxySettings.mk host port (some mine)).shown := by
  simp only [shown, Credentials.shown_congr hName]

end RelayRace
