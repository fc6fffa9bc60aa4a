import MetricRates.Proofs.Time.Order

/-!
# Shifted instants

An instant that stays in range is shifted by exactly the nanoseconds asked for.
So a shift that all instants of a list fit keeps their order, keeps them apart
and keeps the time between any two of them.
-/

namespace MetricRates.Time.Timestamp

/-- A shift of an instant stays in range. -/
structure Fits (t : Timestamp) (offset : Int) : Prop where
  low : minNanos ≤ t.nanos + offset
  high : t.nanos + offset ≤ maxNanos

instance (t : Timestamp) (offset : Int) : Decidable (t.Fits offset) :=
  decidable_of_iff (minNanos ≤ t.nanos + offset ∧ t.nanos + offset ≤ maxNanos)
    ⟨fun ⟨low, high⟩ => ⟨low, high⟩, fun fits => ⟨fits.low, fits.high⟩⟩

variable {a b t : Timestamp} {offset : Int}

theorem nanos_shift (fits : t.Fits offset) : (t.shift offset).nanos = t.nanos + offset :=
  nanos_clamp_of_inRange fits.low fits.high

section Two

variable (first : a.Fits offset) (second : b.Fits offset)

include first second

theorem shift_eq_shift_iff : a.shift offset = b.shift offset ↔ a = b := by
  rw [Timestamp.ext_nanos_iff, Timestamp.ext_nanos_iff, nanos_shift first, nanos_shift second]
  omega

theorem shift_lt_shift_iff : a.shift offset < b.shift offset ↔ a < b := by
  rw [lt_def, lt_def, nanos_shift first, nanos_shift second]
  omega

theorem shift_le_shift_iff : a.shift offset ≤ b.shift offset ↔ a ≤ b := by
  rw [le_def, le_def, nanos_shift first, nanos_shift second]
  omega

/-- The time between two instants does not depend on when they are.  It is taken
between the nanoseconds, where nothing overflows, before it becomes a number of
seconds. -/
theorem secondsSince_shift :
    (a.shift offset).secondsSince (b.shift offset) = a.secondsSince b := by
  have between : (a.shift offset).nanosSince (b.shift offset) = a.nanosSince b := by
    rw [nanosSince, nanosSince, nanos_shift first, nanos_shift second]
    omega
  rw [secondsSince, secondsSince, between]

end Two

end MetricRates.Time.Timestamp
