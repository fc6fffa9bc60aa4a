import MetricRates.Chart.Style

/-!
# Built-in families

The families that can be reported without settings.
-/

namespace MetricRates

/-- A built-in family. -/
structure Preset where
  name : String
  metric : String
  labels : List String
  kind : MetricKind
  aggregation : Aggregation
  unitScale : Float
  columnOrder : Option (List String)
  chart : ChartKind
  title : String
  unit : String
  group : Option String

/-- The plan of a built-in family. -/
def Preset.plan (preset : Preset) : FamilyPlan where
  spec :=
    { FamilySpec.new preset.metric (.ofList preset.labels) preset.kind with
      name := preset.name
      aggregation := preset.aggregation
      unitScale := preset.unitScale
      columnOrder := preset.columnOrder }
  chart :=
    { kind := preset.chart, title := preset.title, unit := preset.unit, group := preset.group }

/-- The states that processor time is counted by. -/
def cpuStates : List String :=
  ["user", "system", "idle", "iowait", "irq", "nice", "softirq", "steal"]

/-- The operations of a storage backend. -/
def backendOperations : List String :=
  ["get", "put", "close"]

/-- The network interfaces that count. -/
def networkInterfaces : List String :=
  ["eth0", "lo"]

/-- The fields that the memory of a system is counted by. -/
def memoryFields : List String :=
  ["total", "free", "buffers", "cached", "slab", "swap_total", "swap_free", "swap_cached"]

/-- The built-in families, in the order in which they are listed. -/
def presets : List Preset :=
  [ { name := "cpu_all", metric := "cpu_all", labels := cpuStates
      kind := .cumulative, aggregation := .mean, unitScale := 100.0
      columnOrder := some cpuStates, chart := .stackedArea
      title := "CPU Usage (cpu_all)", unit := "CPU Usage (%)", group := none },
    { name := "cpu_self", metric := "cpu_self", labels := ["total"]
      kind := .cumulative, aggregation := .last, unitScale := 1.0
      columnOrder := none, chart := .line
      title := "Process CPU Usage Rate", unit := "CPU seconds per second", group := none },
    { name := "network_rx", metric := "network_rx", labels := networkInterfaces
      kind := .cumulative, aggregation := .last, unitScale := 1e-6
      columnOrder := none, chart := .line
      title := "Network RX", unit := "MB/s", group := some "network" },
    { name := "network_tx", metric := "network_tx", labels := networkInterfaces
      kind := .cumulative, aggregation := .last, unitScale := 1e-6
      columnOrder := none, chart := .line
      title := "Network TX", unit := "MB/s", group := some "network" },
    { name := "backend_duration", metric := "backend_duration", labels := backendOperations
      kind := .instantaneous, aggregation := .mean, unitScale := 1e-9
      columnOrder := none, chart := .line
      title := "Backend Operation Duration", unit := "Duration (seconds)", group := none },
    { name := "mem_all", metric := "mem_all", labels := memoryFields
      kind := .instantaneous, aggregation := .last, unitScale := 1.0 / 1024.0
      columnOrder := none, chart := .line
      title := "System Memory", unit := "MiB", group := none },
    { name := "mem_self", metric := "mem_self", labels := ["resident", "virtual"]
      kind := .instantaneous, aggregation := .last, unitScale := 1e-6
      columnOrder := none, chart := .line
      title := "Process Memory", unit := "MB", group := none },
    { name := "backend_request", metric := "backend_request", labels := backendOperations
      kind := .instantaneous, aggregation := .last, unitScale := 1.0
      columnOrder := none, chart := .line
      title := "Backend Requests In Flight", unit := "requests", group := none } ]

/-- The built-in family with a name. -/
def Preset.find? (name : String) : Option Preset :=
  presets.find? fun preset => preset.name == name

end MetricRates
