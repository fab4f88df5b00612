import RelayRace.Selection.Backoff

/-!
# The rest between two rounds stays within its bounds

The milliseconds that a rest may be longer than the shortest one are rounded down
and then cut to 64 bits.  Both make the number smaller only, so what is drawn up to
it and added to the shortest rest stays below the longest one
(`Settings.span_le`).  A duration that is no longer than a representable one is
representable itself, so the sum cannot leave the range, the carry of its
nanoseconds included.

A draw takes one word at least, also where zero is the only number to be drawn.
So the generator tells whether anything was drawn.
-/

namespace RelayRace

/-! ## Draws move on in the stream -/

namespace Generator

/-- A generator has drawn from another one: it stands later in the same stream. -/
def DrewFrom (after before : Generator) : Prop :=
  after.key = before.key ∧ before.position < after.position

theorem DrewFrom.trans {after middle before : Generator} (hLast : after.DrewFrom middle)
    (hFirst : middle.DrewFrom before) : after.DrewFrom before :=
  ⟨hLast.1.trans hFirst.1, Nat.lt_trans hFirst.2 hLast.2⟩

theorem drewFrom_word64 (g : Generator) : g.word64.2.DrewFrom g :=
  ⟨rfl, Nat.lt_add_of_pos_right (by decide)⟩

theorem drewFrom_drawBelow {draw : Generator → Nat × Generator} {width bound : Nat}
    (hDraw : ∀ g, (draw g).2.DrewFrom g) :
    ∀ (fuel : Nat) (g : Generator), (drawBelow draw width bound fuel g).2.DrewFrom g := by
  intro fuel
  induction fuel with
  | zero => exact hDraw
  | succ fuel ih =>
      intro g
      simp only [drawBelow]
      split
      · exact hDraw g
      · exact (ih _).trans (hDraw g)

theorem drewFrom_upTo64 (g : Generator) (top : Nat) : (g.upTo64 top).2.DrewFrom g := by
  unfold upTo64
  split
  · exact g.drewFrom_word64
  · exact drewFrom_drawBelow drewFrom_word64 _ _

/-- Two words of 32 bits make up one of 64. -/
theorem word64_lt (g : Generator) : g.word64.1 < UInt64.size := by
  have hLow := wordAt_lt g.key g.position
  have hHigh := wordAt_lt g.key (g.position + 1)
  simp only [word64, UInt32.size, UInt64.size] at *
  omega

/-- A draw respects the greatest number that is asked for. -/
theorem upTo64_le (g : Generator) (top : Nat) : (g.upTo64 top).1 ≤ top := by
  unfold upTo64
  split
  · next hAll =>
      have hWord := g.word64_lt
      omega
  · exact Nat.le_of_lt_succ (drawBelow_lt word64_lt top.succ_pos _ _)

end Generator

/-! ## Sums of durations -/

namespace Duration

variable {a b : Duration}

/-- The seconds of a sum: those of both parts, and the one that the nanoseconds
after them may make up. -/
theorem seconds_add (a b : Duration) :
    (a + b).seconds =
      a.seconds + b.seconds + (a.subsecondNanos + b.subsecondNanos) / perSecond := by
  simp only [seconds, subsecondNanos, nanos_add, perSecond]
  omega

theorem representable_iff : a.Representable ↔ a.seconds < UInt64.size :=
  (Nat.div_lt_iff_lt_mul (by decide)).symm

theorem Representable.of_le (hLarge : b.Representable) (hLe : a ≤ b) : a.Representable :=
  Nat.lt_of_le_of_lt hLe hLarge

/-- Milliseconds of 64 bits are a duration. -/
theorem representable_ofMillis {millis : Nat} (hWidth : millis < UInt64.size) :
    (ofMillis millis).Representable := by
  simp only [Representable, ofMillis, perMilli, perSecond]
  omega

end Duration

/-! ## Rests -/

namespace Settings

variable {s : Settings}

theorem backoffMin_le_of_validate (hValid : s.validate = .ok ()) :
    s.backoffMin ≤ s.backoffMax := by
  unfold validate at hValid
  split at hValid
  · cases hValid
  split at hValid
  · cases hValid
  split at hValid
  · cases hValid
  split at hValid
  · cases hValid
  split at hValid
  · cases hValid
  rename_i hOrder
  exact Nat.le_of_not_lt hOrder

/-- However the span is cut, it leads no further than to the longest rest. -/
theorem add_extra_le (hOrder : s.backoffMin ≤ s.backoffMax) {extra : Nat}
    (hExtra : extra ≤ s.backoffSpan) : s.backoffMin + .ofMillis extra ≤ s.backoffMax := by
  have hSpan : extra ≤ (s.backoffMax - s.backoffMin).millis := Nat.le_trans hExtra (Nat.mod_le _ _)
  have hMillis : extra * Duration.perMilli ≤ s.backoffMax.nanos - s.backoffMin.nanos :=
    Nat.le_trans (Nat.mul_le_mul_right _ hSpan) (Nat.div_mul_le_self _ _)
  rw [Duration.le_def] at *
  simp only [Duration.nanos_add, Duration.ofMillis]
  omega

/-- What a rest consists of, and what was drawn for it. -/
structure Rests (s : Settings) (before : Generator) (rest : Duration) (after : Generator) :
    Prop where
  least : s.backoffMin ≤ rest
  most : rest ≤ s.backoffMax
  /-- Whole milliseconds come on top of the shortest rest.  They are a duration by
  themselves, and the seconds of the sum fit in 64 bits together with the carry. -/
  whole : ∃ extra, extra < UInt64.size ∧ rest = s.backoffMin + .ofMillis extra ∧
    (Duration.ofMillis extra).Representable ∧
    s.backoffMin.seconds + (Duration.ofMillis extra).seconds +
      (s.backoffMin.subsecondNanos + (Duration.ofMillis extra).subsecondNanos) /
        Duration.perSecond < UInt64.size
  /-- Something is drawn if the bounds leave a choice, and only then. -/
  draws : s.backoffMin < s.backoffMax → after.DrewFrom before
  still : ¬ s.backoffMin < s.backoffMax → after = before

/-- A rest with so many milliseconds on top of the shortest one. -/
theorem rests_of_extra (hOrder : s.backoffMin ≤ s.backoffMax)
    (hLongest : s.backoffMax.Representable) {before after : Generator} {extra : Nat}
    (hExtra : extra ≤ s.backoffSpan) (hDraws : s.backoffMin < s.backoffMax → after.DrewFrom before)
    (hStill : ¬ s.backoffMin < s.backoffMax → after = before) :
    s.Rests before (s.backoffMin + .ofMillis extra) after where
  least := Nat.le_add_right _ _
  most := add_extra_le hOrder hExtra
  whole := by
    have hWidth : extra < UInt64.size := Nat.lt_of_le_of_lt hExtra (Nat.mod_lt _ (by decide))
    have hSum : (s.backoffMin + .ofMillis extra).Representable :=
      hLongest.of_le (add_extra_le hOrder hExtra)
    rw [Duration.representable_iff, Duration.seconds_add] at hSum
    exact ⟨extra, hWidth, rfl, Duration.representable_ofMillis hWidth, hSum⟩
  draws := hDraws
  still := hStill

/-- With settings that are accepted, up to the longest durations that there are, and
whatever the generator: a rest lies between its bounds and is the shortest one and
whole milliseconds more.  Nothing overflows on the way, also where the span does not
fit in 64 bits.  Something is drawn exactly if the bounds differ. -/
theorem rest_between_bounds (hValid : s.validate = .ok ())
    (hLongest : s.backoffMax.Representable) (g : Generator) :
    s.Rests g (s.backoff g).1 (s.backoff g).2 := by
  have hOrder := backoffMin_le_of_validate hValid
  unfold backoff
  split
  · next hNoChoice =>
      have hEqual : ¬ s.backoffMin < s.backoffMax := Nat.not_lt_of_le hNoChoice
      exact rests_of_extra hOrder hLongest (Nat.zero_le _) (absurd · hEqual) fun _ => rfl
  · next hChoice =>
      have hLess : s.backoffMin < s.backoffMax := Nat.lt_of_not_le hChoice
      exact rests_of_extra hOrder hLongest (g.upTo64_le _) (fun _ => g.drewFrom_upTo64 _)
        (absurd hLess)

namespace Sample

/-- Rests from half a millisecond up to the longest duration that there is. -/
def widest : Settings :=
  { backoffMin := ⟨500000⟩, backoffMax := ⟨UInt64.size * Duration.perSecond - 1⟩ }

theorem widest_representable : widest.backoffMax.Representable :=
  Nat.sub_lt (by decide) (by decide)

end Sample

/-- The span of more than `2 ^ 64` milliseconds is cut, and the rest stays within its
bounds. -/
theorem cut_span_stays_within :
    Sample.widest.validate = .ok () ∧ Sample.widest.backoffMax.Representable ∧
      UInt64.size ≤ (Sample.widest.backoffMax - Sample.widest.backoffMin).millis ∧
      Sample.widest.Rests (.ofSeed 7) (Sample.widest.backoff (.ofSeed 7)).1
        (Sample.widest.backoff (.ofSeed 7)).2 :=
  ⟨rfl, Sample.widest_representable, by decide,
    rest_between_bounds rfl Sample.widest_representable (.ofSeed 7)⟩

end Settings

end RelayRace
