import MetricRates.Chart.Bands
import MetricRates.Chart.Interval
import MetricRates.Chart.Picture
import MetricRates.Chart.Scalar
import MetricRates.Chart.Series
import MetricRates.Chart.Style
import MetricRates.Command.Help
import MetricRates.Command.Line
import MetricRates.Command.Reading
import MetricRates.Command.Value
import MetricRates.Csv.Fields
import MetricRates.Disk.Host
import MetricRates.Disk.Path
import MetricRates.Disk.Tree
import MetricRates.Error
import MetricRates.Event
import MetricRates.Event.Filter
import MetricRates.Family.Alignment
import MetricRates.Family.Labels
import MetricRates.Family.Output
import MetricRates.Family.Rates
import MetricRates.Family.Selection
import MetricRates.Family.Sorted
import MetricRates.Family.Spec
import MetricRates.Main
import MetricRates.Number.Binary64
import MetricRates.Number.Decimal
import MetricRates.Number.Hexadecimal
import MetricRates.Number.Integer
import MetricRates.Number.Layout
import MetricRates.Number.Shortest
import MetricRates.Program
import MetricRates.Proofs.Command.Labels
import MetricRates.Proofs.Csv.QuoteParity
import MetricRates.Proofs.Csv.Quoting
import MetricRates.Proofs.Disk.Deeds
import MetricRates.Proofs.Disk.Path
import MetricRates.Proofs.Family.Accounting
import MetricRates.Proofs.Family.AlignedTable
import MetricRates.Proofs.Family.Growth
import MetricRates.Proofs.Family.LatestObservation
import MetricRates.Proofs.Family.Observations
import MetricRates.Proofs.Family.Outcome
import MetricRates.Proofs.Family.Processing
import MetricRates.Proofs.Family.RatedSuffix
import MetricRates.Proofs.Family.Realign
import MetricRates.Proofs.Family.Relevance
import MetricRates.Proofs.Family.Runs
import MetricRates.Proofs.Family.Sorted
import MetricRates.Proofs.Family.StageOrder
import MetricRates.Proofs.Family.TimeShift
import MetricRates.Proofs.Family.Windows
import MetricRates.Proofs.Family.ZeroFill
import MetricRates.Proofs.Number.Packed
import MetricRates.Proofs.Number.Quotient
import MetricRates.Proofs.Number.Rounding
import MetricRates.Proofs.Report.CsvText
import MetricRates.Proofs.Report.Families
import MetricRates.Proofs.Report.FileName
import MetricRates.Proofs.Report.Groups
import MetricRates.Proofs.Report.Jobs
import MetricRates.Proofs.Report.Overwriting
import MetricRates.Proofs.Report.Schedule
import MetricRates.Proofs.Sample.Accounting
import MetricRates.Proofs.Sample.Bytes
import MetricRates.Proofs.Sample.Written
import MetricRates.Proofs.Settings.Catalog
import MetricRates.Proofs.Settings.Layers
import MetricRates.Proofs.Settings.Refusal
import MetricRates.Proofs.Settings.Selection
import MetricRates.Proofs.Table.Arrangement
import MetricRates.Proofs.Table.OrderFault
import MetricRates.Proofs.Table.Positions
import MetricRates.Proofs.Table.Prefix
import MetricRates.Proofs.Table.Shape
import MetricRates.Proofs.Text.ByteOrder
import MetricRates.Proofs.Text.Sequence
import MetricRates.Proofs.Text.Utf8
import MetricRates.Proofs.Time.Calendar
import MetricRates.Proofs.Time.Digits
import MetricRates.Proofs.Time.Order
import MetricRates.Proofs.Time.Shift
import MetricRates.Proofs.Time.Written
import MetricRates.Report.Derivation
import MetricRates.Report.Export
import MetricRates.Report.FileName
import MetricRates.Report.Files
import MetricRates.Report.Picture
import MetricRates.Report.Png
import MetricRates.Report.Run
import MetricRates.Report.Summary
import MetricRates.Report.Trial
import MetricRates.Sample
import MetricRates.Sample.Reading
import MetricRates.Settings.Basic
import MetricRates.Settings.Catalog
import MetricRates.Settings.Decode
import MetricRates.Settings.Json.Document
import MetricRates.Settings.Json.Number
import MetricRates.Settings.Json.Token
import MetricRates.Settings.Load
import MetricRates.Settings.Preset
import MetricRates.Settings.Record
import MetricRates.Settings.Selected
import MetricRates.Settings.Toml.Body
import MetricRates.Settings.Toml.Document
import MetricRates.Settings.Toml.Scalar
import MetricRates.Settings.Toml.Text
import MetricRates.Settings.Value
import MetricRates.Table.Arrange
import MetricRates.Table.Basic
import MetricRates.Table.Rows
import MetricRates.Text.Blank
import MetricRates.Text.Cut
import MetricRates.Text.Entries
import MetricRates.Text.Named
import MetricRates.Text.Reader
import MetricRates.Text.Terminal
import MetricRates.Text.Utf8
import MetricRates.Time.Calendar
import MetricRates.Time.Reading
import MetricRates.Time.Timestamp
import MetricRates.Proofs.Table.ColumnOrder
import MetricRates.Proofs.Settings.Overrides
import MetricRates.Proofs.Number.Bounds
import MetricRates.Proofs.Number.IntegerText
import MetricRates.Proofs.Time.IntegerTimes
import MetricRates.Proofs.Time.DayCount
import MetricRates.Proofs.Time.DateText
import MetricRates.Proofs.Time.UtcTexts
import MetricRates.Proofs.Chart.Bands
import MetricRates.Proofs.Report.Containment
import MetricRates.Proofs.Chart.Lines
import MetricRates.Proofs.Chart.Axes
import MetricRates.Proofs.Report.Panels
