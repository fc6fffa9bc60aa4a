import MetricRates.Time.Timestamp

/-!
# The order of instants

Instants are ordered by their nanoseconds, so they are in a total order.
-/

namespace MetricRates.Time.Timestamp

variable {a b c : Timestamp}

protected theorem le_refl (a : Timestamp) : a ≤ a :=
  Int.le_refl a.nanos

protected theorem le_trans (first : a ≤ b) (second : b ≤ c) : a ≤ c :=
  Int.le_trans first second

protected theorem le_total (a b : Timestamp) : a ≤ b ∨ b ≤ a :=
  Int.le_total a.nanos b.nanos

protected theorem le_antisymm (first : a ≤ b) (second : b ≤ a) : a = b :=
  ext_nanos (Int.le_antisymm first second)

protected theorem lt_irrefl (a : Timestamp) : ¬ a < a :=
  Int.lt_irrefl a.nanos

protected theorem ne_of_lt (less : a < b) : a ≠ b := by
  rintro rfl
  exact Timestamp.lt_irrefl a less

protected theorem lt_trans (first : a < b) (second : b < c) : a < c :=
  Int.lt_trans first second

protected theorem lt_asymm (less : a < b) : ¬ b < a :=
  Int.lt_asymm less

protected theorem le_of_lt (less : a < b) : a ≤ b :=
  Int.le_of_lt less

protected theorem lt_of_le_of_ne (le : a ≤ b) (ne : a ≠ b) : a < b :=
  Int.lt_iff_le_and_ne.mpr ⟨le, fun same => ne (ext_nanos same)⟩

protected theorem not_le : ¬ a ≤ b ↔ b < a :=
  Int.not_le

end MetricRates.Time.Timestamp
