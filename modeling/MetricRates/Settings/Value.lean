/-!
# Values of a settings document

Settings documents of either language denote values of one type.
-/

namespace MetricRates.Settings

/-- A value of a settings document. -/
inductive Value where
  | null
  | bool (value : Bool)
  | integer (value : Int)
  | float (value : Float)
  | text (value : String)
  | dateTime
  | array (items : List Value)
  /-- The fields in the order of the document; names may come again. -/
  | table (fields : List (String × Value))
  /-- A well-formed value that no setting can have. -/
  | unusable

end MetricRates.Settings
