/-
Sysop/Clock.lean

What is taken from the runtime about time: a clock to add spans to, and timers.

An instant is a number of seconds and nanoseconds.  A deadline is the sum of an
instant and a span, with the nanoseconds carried over, and there is none past the
last second that a clock can show.  Nothing is known of a clock but that its timers
go off within the millisecond after their time, and never before it.
-/
import Sysop.Span

namespace Sysop

/-! ### Instants -/

/-- The first second that no clock can show. -/
def horizon : Nat := 0x8000000000000000

/-- What a clock can show. -/
structure Instant where
  seconds : Nat
  nanos : Nat
  seconds_lt : seconds < horizon
  nanos_lt : nanos < Span.perSecond
  deriving DecidableEq, Repr

namespace Instant

/-- The instant as one number of nanoseconds. -/
def total (t : Instant) : Nat := t.seconds * Span.perSecond + t.nanos

/-- The last instant. -/
def last : Instant := ⟨horizon - 1, Span.perSecond - 1, by decide, by decide⟩

/-- The instant after a span, if a clock can show it.  The nanoseconds carry at most
one second. -/
def add? (t : Instant) (d : Span) : Option Instant :=
  let nanos := t.nanos + d.subsecond
  let seconds := t.seconds + d.seconds + nanos / Span.perSecond
  if h : seconds < horizon then
    some ⟨seconds, nanos % Span.perSecond, h, Nat.mod_lt _ (by decide)⟩
  else none

/-- The instant after a span, or the last one. -/
def after (t : Instant) (d : Span) : Instant := (t.add? d).getD last

/-- There is an instant after a span unless the sum, seconds and nanoseconds
together, lies past the last instant. -/
theorem isSome_add?_iff {t : Instant} {d : Span} :
    (t.add? d).isSome ↔ t.total + d.nanos < horizon * Span.perSecond := by
  have hseconds : (t.add? d).isSome ↔
      t.seconds + d.seconds + (t.nanos + d.subsecond) / Span.perSecond < horizon := by
    simp only [add?, Option.isSome_dite]
  have hd := d.nanos_eq
  rw [hseconds]
  simp only [total, Span.perSecond] at *
  omega

end Instant

/-! ### Clocks -/

/-- A clock, and the timers that are set by it. -/
structure Clock where
  /-- What the clock shows, so many milliseconds from now. -/
  reading : Nat → Instant
  /-- The milliseconds until a timer goes off that is set for a span. -/
  timer : Span → Nat
  /-- How long to wait when the clock cannot show the deadline. -/
  farFuture : Span
  timer_not_early : ∀ d, d.nanos ≤ timer d * Span.perMilli
  timer_not_late : ∀ d, timer d * Span.perMilli < d.nanos + Span.perMilli

namespace Clock

/-- What the clock shows now. -/
def now (c : Clock) : Instant := c.reading 0

/-- The clock as it goes on from a later time. -/
def later (c : Clock) (n : Nat) : Clock :=
  { c with reading := fun m => c.reading (n + m) }

/-- The clock can show the deadline of a wait that starts now. -/
def Reaches (c : Clock) (d : Span) : Prop := (c.now.add? d).isSome

instance (c : Clock) (d : Span) : Decidable (c.Reaches d) :=
  inferInstanceAs (Decidable (_ = true))

/-- A clock that shows the given instant now, with timers that round up and thirty
years of waiting for what it cannot show. -/
def startingAt (t : Instant) : Clock where
  reading n := t.after ⟨n * Span.perMilli⟩
  timer := Span.ceilMillis
  farFuture := .ofSeconds (86400 * 365 * 30)
  timer_not_early _ := (Span.eq_ceilMillis_iff.mp rfl).1
  timer_not_late _ := (Span.eq_ceilMillis_iff.mp rfl).2

/-! ### Small facts -/

/-- A timer rounds up to whole milliseconds. -/
theorem timer_eq (c : Clock) (d : Span) : c.timer d = d.ceilMillis :=
  Span.eq_ceilMillis_iff.mpr ⟨c.timer_not_early d, c.timer_not_late d⟩

@[simp] theorem later_zero (c : Clock) : c.later 0 = c := by
  simp [later]

theorem reaches_iff {c : Clock} {d : Span} :
    c.Reaches d ↔ c.now.total + d.nanos < horizon * Span.perSecond :=
  Instant.isSome_add?_iff

/-- A clock can show the end of a wait at one moment, and a nanosecond later it cannot. -/
example : (startingAt ⟨1, 999999999, by decide, by decide⟩).Reaches (.ofSeconds (horizon - 2)) ∧
    ¬ (startingAt ⟨2, 0, by decide, by decide⟩).Reaches (.ofSeconds (horizon - 2)) := by
  decide

end Clock

end Sysop
