/-
Sysop/Span.lean

A span of time in nanoseconds, and its text.

The text uses the largest unit of which there is at least one whole (seconds,
milliseconds, microseconds, else nanoseconds), with the rest as decimals without
trailing zeros.
-/
import Sysop.Text.Numeral

namespace Sysop

/-- A span of time, counted in nanoseconds. -/
structure Span where
  nanos : Nat
  deriving DecidableEq, Repr

namespace Span

/-! ### Making and measuring -/

/-- Nanoseconds in a second. -/
def perSecond : Nat := 1000000000

/-- Nanoseconds in a millisecond. -/
def perMilli : Nat := 1000000

/-- Nanoseconds in a microsecond. -/
def perMicro : Nat := 1000

/-- A span of seconds and nanoseconds. -/
def of (seconds nanos : Nat) : Span := ⟨seconds * perSecond + nanos⟩

/-- A span of whole seconds. -/
def ofSeconds (n : Nat) : Span := of n 0

/-- The whole seconds of the span. -/
def seconds (d : Span) : Nat := d.nanos / perSecond

/-- The nanoseconds beyond the whole seconds. -/
def subsecond (d : Span) : Nat := d.nanos % perSecond

/-- The span has no length. -/
def isZero (d : Span) : Bool := d.nanos == 0

/-- The span in milliseconds, rounded up. -/
def ceilMillis (d : Span) : Nat := (d.nanos + (perMilli - 1)) / perMilli

/-! ### Text -/

/-- A digit string without its trailing zeros. -/
def dropZeros (cs : List Char) : List Char :=
  (cs.reverse.dropWhile (· == '0')).reverse

/-- A number padded with zeros in front to the given width. -/
def padded (width n : Nat) : List Char :=
  let ds := Nat.toDigits 10 n
  List.replicate (width - ds.length) '0' ++ ds

/-- A count of units with `places` decimals, the last ones dropped while they
are zero. -/
def decimals (places whole rest : Nat) (unit : String) : String :=
  let tail := dropZeros (padded places rest)
  let text := if tail.isEmpty then [] else '.' :: tail
  Numeral.decimal whole ++ String.ofList text ++ unit

/-- The text of a span. -/
def text (d : Span) : String :=
  if perSecond ≤ d.nanos then decimals 9 (d.nanos / perSecond) (d.nanos % perSecond) "s"
  else if perMilli ≤ d.nanos then decimals 6 (d.nanos / perMilli) (d.nanos % perMilli) "ms"
  else if perMicro ≤ d.nanos then decimals 3 (d.nanos / perMicro) (d.nanos % perMicro) "µs"
  else Numeral.decimal d.nanos ++ "ns"

@[simp] theorem isZero_iff {d : Span} : d.isZero = true ↔ d.nanos = 0 := by
  simp [isZero]

theorem nanos_eq (d : Span) : d.nanos = d.seconds * perSecond + d.subsecond :=
  (Nat.div_add_mod' d.nanos perSecond).symm

/-- Rounding up gives the one number of milliseconds that is not too few and not a
whole one too many. -/
theorem eq_ceilMillis_iff {d : Span} {n : Nat} :
    n = d.ceilMillis ↔ d.nanos ≤ n * perMilli ∧ n * perMilli < d.nanos + perMilli := by
  unfold ceilMillis perMilli
  omega

end Span

end Sysop
