/-!
# Durations

A length of time in whole nanoseconds. Every duration that a configuration can
name has at most `2 ^ 64 - 1` whole seconds; `Representable` says so, and sums
that could leave that range are checked where they are formed.
-/

namespace RelayRace

/-- A length of time in nanoseconds. -/
structure Duration where
  nanos : Nat
  deriving DecidableEq, Repr, Inhabited

namespace Duration

/-- Nanoseconds in a second. -/
def perSecond : Nat := 1000000000

/-- Nanoseconds in a millisecond. -/
def perMilli : Nat := 1000000

/-- The empty duration. -/
def zero : Duration := ⟨0⟩

/-- A duration of whole seconds and the nanoseconds after them. -/
def ofSeconds (seconds : Nat) (nanos : Nat := 0) : Duration :=
  ⟨seconds * perSecond + nanos⟩

/-- A duration of whole milliseconds. -/
def ofMillis (millis : Nat) : Duration := ⟨millis * perMilli⟩

/-- Whole seconds in the duration. -/
def seconds (d : Duration) : Nat := d.nanos / perSecond

/-- Nanoseconds after the last whole second. -/
def subsecondNanos (d : Duration) : Nat := d.nanos % perSecond

/-- Whole milliseconds in the duration. -/
def millis (d : Duration) : Nat := d.nanos / perMilli

/-- Whether the duration is empty. -/
def isZero (d : Duration) : Bool := d.nanos == 0

/-- The durations whose whole seconds fit in 64 bits. -/
def Representable (d : Duration) : Prop := d.nanos < UInt64.size * perSecond

instance : LE Duration := ⟨fun a b => a.nanos ≤ b.nanos⟩

instance : LT Duration := ⟨fun a b => a.nanos < b.nanos⟩

instance (a b : Duration) : Decidable (a ≤ b) := inferInstanceAs (Decidable (a.nanos ≤ b.nanos))

instance (a b : Duration) : Decidable (a < b) := inferInstanceAs (Decidable (a.nanos < b.nanos))

instance : Add Duration := ⟨fun a b => ⟨a.nanos + b.nanos⟩⟩

/-- The time from `b` to `a`, empty when `a` is the shorter one. -/
instance : Sub Duration := ⟨fun a b => ⟨a.nanos - b.nanos⟩⟩

theorem le_def {a b : Duration} : a ≤ b ↔ a.nanos ≤ b.nanos := Iff.rfl

theorem lt_def {a b : Duration} : a < b ↔ a.nanos < b.nanos := Iff.rfl

@[simp]
theorem nanos_add (a b : Duration) : (a + b).nanos = a.nanos + b.nanos := rfl

@[simp]
theorem nanos_sub (a b : Duration) : (a - b).nanos = a.nanos - b.nanos := rfl

/-- A duration is its whole seconds and the nanoseconds after them. -/
theorem ofSeconds_seconds (d : Duration) : ofSeconds d.seconds d.subsecondNanos = d := by
  cases d with
  | mk nanos =>
      simp only [ofSeconds, seconds, subsecondNanos, Duration.mk.injEq]
      rw [Nat.mul_comm]
      exact Nat.div_add_mod nanos perSecond

end Duration

/-- A point on a clock, in nanoseconds since the clock was started. -/
abbrev Instant := Nat

end RelayRace
