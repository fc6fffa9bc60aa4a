import MetricRates.Time.Timestamp

/-!
# Samples

A sample is one observation of a labelled metric at an instant.
-/

namespace MetricRates

/-- One observation of a labelled metric. -/
structure Sample where
  metric : String
  label : String
  time : Time.Timestamp
  value : Float
  deriving DecidableEq

end MetricRates
