import Mathlib.Tactic.Ring

/-!
# Instants and durations

An instant is a number of nanoseconds since midnight of January 1, year 1 UTC,
which is also the zero instant. Durations are 64-bit nanosecond counts, so a
difference saturates. Unix seconds and nanoseconds are converted in wrapping
64-bit arithmetic. Adding a duration is exact: it is only ever applied to a
reading of the clock, far from the ends of the range of representable seconds.
-/

namespace Instants

structure Time where
  ns : Int
  deriving DecidableEq, Repr

def second : Int := 1000000000
def minute : Int := 60 * second
def hour : Int := 60 * minute

/-- Seconds from year 1 to the Unix epoch. -/
def unixToInternal : Int := 62135596800

/-- Two's complement wrapping to 64 bits. -/
def wrap64 (x : Int) : Int := (x + 2 ^ 63) % 2 ^ 64 - 2 ^ 63

def saturate64 (x : Int) : Int := max (-2 ^ 63) (min x (2 ^ 63 - 1))

namespace Time

def isZero (t : Time) : Bool := t.ns = 0

def before (t u : Time) : Bool := t.ns < u.ns

def after (t u : Time) : Bool := u.ns < t.ns

def add (t : Time) (d : Int) : Time := ⟨t.ns + d⟩

def sub (t u : Time) : Int := saturate64 (t.ns - u.ns)

/-- Unix seconds, rounded down and wrapped to 64 bits. -/
def unixSec (t : Time) : Int := wrap64 (t.ns / second - unixToInternal)

/-- Unix nanoseconds, wrapped to 64 bits. -/
def unixNano (t : Time) : Int := wrap64 (t.ns - unixToInternal * second)

/-- `time.Unix`: nanoseconds are first carried into the seconds. -/
def unix (sec nsec : Int) : Time :=
  ⟨wrap64 (sec + nsec / second + unixToInternal) * second + nsec % second⟩

/-- The instant lies within the 64-bit range of Unix nanoseconds. -/
def NanoRange (t : Time) : Prop :=
  -2 ^ 63 ≤ t.ns - unixToInternal * second ∧ t.ns - unixToInternal * second < 2 ^ 63

instance (t : Time) : Decidable t.NanoRange := inferInstanceAs (Decidable (_ ∧ _))

@[simp] theorem before_iff (t u : Time) : t.before u = true ↔ t.ns < u.ns := by
  simp [before]

@[simp] theorem after_iff (t u : Time) : t.after u = true ↔ u.ns < t.ns := by
  simp [after]

@[simp] theorem isZero_iff (t : Time) : t.isZero = true ↔ t.ns = 0 := by
  simp [isZero]

@[simp] theorem add_ns (t : Time) (d : Int) : (t.add d).ns = t.ns + d := rfl

/-- Saturation does not disturb a comparison with a representable bound. -/
theorem sub_le_iff (t u : Time) {d : Int} (low : -2 ^ 63 ≤ d) (high : d < 2 ^ 63 - 1) :
    t.sub u ≤ d ↔ t.ns - u.ns ≤ d := by
  unfold sub saturate64
  omega

theorem le_sub_iff (t u : Time) {d : Int} (low : -2 ^ 63 < d) (high : d ≤ 2 ^ 63 - 1) :
    d ≤ t.sub u ↔ d ≤ t.ns - u.ns := by
  unfold sub saturate64
  omega

theorem wrap64_of_range {x : Int} (low : -2 ^ 63 ≤ x) (high : x < 2 ^ 63) : wrap64 x = x := by
  unfold wrap64
  omega

/-- Unix nanoseconds and back, for every instant in their range. -/
theorem unix_unixNano {t : Time} (range : t.NanoRange) : unix 0 t.unixNano = t := by
  obtain ⟨low, high⟩ := range
  obtain ⟨ns⟩ := t
  simp only [unix, unixNano, wrap64_of_range low high]
  simp only [second, unixToInternal] at low high ⊢
  rw [wrap64_of_range (by omega) (by omega)]
  congr 1
  omega

end Time

end Instants
