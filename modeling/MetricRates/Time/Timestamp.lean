import MetricRates.Number.Layout
import MetricRates.Time.Calendar

/-!
# Instants

A timestamp is a whole number of nanoseconds since 1970-01-01T00:00:00 UTC that
fits in 64 bits with sign.  Arithmetic on timestamps stops at the ends of the
range.
-/

namespace MetricRates.Time

/-- The smallest number of nanoseconds. -/
def minNanos : Int := -0x8000000000000000

/-- The largest number of nanoseconds. -/
def maxNanos : Int := 0x7FFFFFFFFFFFFFFF

/-- An instant with nanosecond resolution. -/
structure Timestamp where
  /-- Nanoseconds since the start of 1970. -/
  nanos : Int
  minNanos_le : minNanos ≤ nanos
  le_maxNanos : nanos ≤ maxNanos

namespace Timestamp

/-- Timestamps with the same nanoseconds are the same. -/
@[ext]
theorem ext_nanos {a b : Timestamp} (same : a.nanos = b.nanos) : a = b := by
  cases a
  cases b
  simp_all

instance : DecidableEq Timestamp := fun a b =>
  decidable_of_iff (a.nanos = b.nanos) ⟨ext_nanos, fun same => same ▸ rfl⟩

instance : LE Timestamp := ⟨fun a b => a.nanos ≤ b.nanos⟩

instance : LT Timestamp := ⟨fun a b => a.nanos < b.nanos⟩

instance (a b : Timestamp) : Decidable (a ≤ b) :=
  inferInstanceAs (Decidable (a.nanos ≤ b.nanos))

instance (a b : Timestamp) : Decidable (a < b) :=
  inferInstanceAs (Decidable (a.nanos < b.nanos))

theorem le_def {a b : Timestamp} : a ≤ b ↔ a.nanos ≤ b.nanos := Iff.rfl

theorem lt_def {a b : Timestamp} : a < b ↔ a.nanos < b.nanos := Iff.rfl

/-- The timestamp with a number of nanoseconds, if it is in range. -/
def ofNanos? (nanos : Int) : Option Timestamp :=
  if inRange : minNanos ≤ nanos ∧ nanos ≤ maxNanos then
    some ⟨nanos, inRange.1, inRange.2⟩
  else
    none

/-- The timestamp in range that is nearest to a number of nanoseconds. -/
def clamp (nanos : Int) : Timestamp where
  nanos := max minNanos (min nanos maxNanos)
  minNanos_le := Int.le_max_left ..
  le_maxNanos := Int.max_le.mpr ⟨by decide, Int.min_le_right ..⟩

instance : Inhabited Timestamp := ⟨clamp 0⟩

/-- The timestamp a number of seconds after the start of 1970. -/
def ofSeconds (seconds : Int) : Timestamp :=
  clamp (seconds * 1000000000)

/-- The timestamp a number of nanoseconds later. -/
def shift (t : Timestamp) (nanos : Int) : Timestamp :=
  clamp (t.nanos + nanos)

/-- The nanoseconds from an earlier timestamp to a later one, with sign. -/
def nanosSince (t earlier : Timestamp) : Int :=
  t.nanos - earlier.nanos

/-- The seconds from an earlier timestamp to a later one, with sign. -/
def secondsSince (t earlier : Timestamp) : Float :=
  Float.ofInt (t.nanosSince earlier) / 1000000000.0

/-- A timestamp of exactly the given nanoseconds exists when they are in
range. -/
theorem ofNanos?_eq_some_iff {nanos : Int} {t : Timestamp} :
    ofNanos? nanos = some t ↔ t.nanos = nanos := by
  unfold ofNanos?
  split
  · rw [Option.some.injEq]
    exact ⟨fun same => same ▸ rfl, fun same => ext_nanos same.symm⟩
  · rename_i outOfRange
    simp only [reduceCtorEq, false_iff]
    rintro rfl
    exact outOfRange ⟨t.minNanos_le, t.le_maxNanos⟩

@[simp]
theorem ofNanos?_nanos (t : Timestamp) : ofNanos? t.nanos = some t :=
  ofNanos?_eq_some_iff.mpr rfl

/-- In range, clamping changes nothing. -/
theorem nanos_clamp_of_inRange {nanos : Int} (low : minNanos ≤ nanos)
    (high : nanos ≤ maxNanos) : (clamp nanos).nanos = nanos := by
  simp only [clamp]
  omega

end Timestamp

/-! ## The printed form -/

/-- A number with leading zeros up to a width. -/
def padded (width n : Nat) : List Char :=
  let digits := Number.natDigits n
  Number.zeros (width - digits.length) ++ digits

/-- The fraction of a second after its point: none, or three, six or nine
digits, as few as the value allows. -/
def fractionText (nanos : Nat) : List Char :=
  if nanos = 0 then []
  else if nanos % 1000000 = 0 then '.' :: padded 3 (nanos / 1000000)
  else if nanos % 1000 = 0 then '.' :: padded 6 (nanos / 1000)
  else '.' :: padded 9 nanos

/-- A date in the form `YYYY-MM-DD`. -/
def Date.text (date : Date) : List Char :=
  padded 4 date.year.toNat ++ '-' :: (padded 2 date.month ++ '-' :: padded 2 date.day)

/-- A time of day in the form `HH:MM:SS` with the fraction that it needs. -/
def timeOfDayText (nanosOfDay : Nat) : List Char :=
  let seconds := nanosOfDay / 1000000000
  padded 2 (seconds / 3600) ++ ':' ::
    (padded 2 (seconds / 60 % 60) ++ ':' ::
      (padded 2 (seconds % 60) ++ fractionText (nanosOfDay % 1000000000)))

/-- The nanoseconds of a day. -/
def nanosPerDay : Int := 86400 * 1000000000

/-- The date and time of a number of nanoseconds, joined by `T`. -/
def localText (nanos : Int) : List Char :=
  (Date.ofDayNumber (nanos / nanosPerDay)).text ++
    'T' :: timeOfDayText (nanos % nanosPerDay).toNat

/-- The RFC 3339 form of a timestamp in UTC. -/
def Timestamp.text (t : Timestamp) : String :=
  String.ofList (localText t.nanos ++ ['Z'])

end MetricRates.Time
