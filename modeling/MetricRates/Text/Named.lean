/-!
# Named values

A type with a short list of values, each of which has a name.  Settings and
printed forms use the names.
-/

namespace MetricRates

/-- A type whose values are listed and named. -/
class Named (α : Type) where
  values : List α
  name : α → String

/-- The value with a name. -/
def Named.ofName? (α : Type) [Named α] (name : String) : Option α :=
  (Named.values : List α).find? fun value => Named.name value == name

end MetricRates
