import Realm.WorldMap.Update

/-! # Metrics

What a monitor is told of ticks and updates, and what it makes of that: sums for counters, the last
values for gauges, all values for histograms. -/

namespace Realm

inductive Metric where
  | worldTicks
  | tickTime
  | loadedGrids
  | activeGrids
  | objects
  | tasksApplied
  | tasksRejected
  | gridsUnloaded
  deriving DecidableEq, Repr

/-- How a metric sums up its samples. -/
inductive MetricType where
  | counter
  | gauge
  | histogram
  deriving DecidableEq, Repr

def MetricType.name : MetricType → String
  | .counter => "counter"
  | .gauge => "gauge"
  | .histogram => "histogram"

namespace Metric

def all : List Metric :=
  [.worldTicks, .tickTime, .loadedGrids, .activeGrids, .objects, .tasksApplied, .tasksRejected,
    .gridsUnloaded]

def name : Metric → String
  | .worldTicks => "world_ticks_total"
  | .tickTime => "world_tick_time_seconds"
  | .loadedGrids => "map_loaded_grids"
  | .activeGrids => "map_active_grids"
  | .objects => "map_objects"
  | .tasksApplied => "map_tasks_applied_total"
  | .tasksRejected => "map_tasks_rejected_total"
  | .gridsUnloaded => "map_grids_unloaded_total"

def type : Metric → MetricType
  | .worldTicks | .tasksApplied | .tasksRejected | .gridsUnloaded => .counter
  | .loadedGrids | .activeGrids | .objects => .gauge
  | .tickTime => .histogram

def description : Metric → String
  | .worldTicks => "Total number of world ticks processed"
  | .tickTime => "World tick processing time in seconds"
  | .loadedGrids => "Grids currently loaded per map"
  | .activeGrids => "Grids kept active by world-scoped objects per map"
  | .objects => "Objects placed in the grid index per map"
  | .tasksApplied => "Queued map tasks applied"
  | .tasksRejected => "Queued map tasks rejected"
  | .gridsUnloaded => "Grids unloaded after idling"

end Metric

/-- A metric, of one map or of the world. -/
structure Series where
  metric : Metric
  map : Option MapId
  deriving DecidableEq, Repr

/-- The labels of a series, as `key=value`. -/
def Series.labels (s : Series) : String :=
  match s.map with
  | some id => s!"map={id}"
  | none => ""

inductive Sample where
  | count (n : Nat)
  | level (n : Nat)
  | time (d : Duration)
  deriving DecidableEq, Repr

/-- A length of time in seconds: whole seconds and the rest are converted apart, then added. -/
def Duration.seconds (d : Duration) : Double :=
  .ofInt .double (d.nanos / 1000000000 : Nat) +
    .ofInt .double (d.nanos % 1000000000 : Nat) / .ofInt .double 1000000000

/-- All samples, in the order in which they came. -/
structure Recorder where
  samples : List (Series × Sample) := []

namespace Recorder

instance : EmptyCollection Recorder := ⟨{}⟩

def record (r : Recorder) (metric : Metric) (map : Option MapId) (s : Sample) : Recorder :=
  ⟨r.samples ++ [(⟨metric, map⟩, s)]⟩

def recordTick (r : Recorder) (d : Duration) : Recorder :=
  (r.record .tickTime none (.time d)).record .worldTicks none (.count 1)

def recordUpdate (r : Recorder) (s : UpdateStats) : Recorder :=
  let r := r.record .loadedGrids (some s.map) (.level s.total)
  let r := r.record .activeGrids (some s.map) (.level s.active)
  let r := r.record .objects (some s.map) (.level s.objects)
  let r := r.record .tasksApplied (some s.map) (.count s.applied)
  let r := r.record .tasksRejected (some s.map) (.count s.rejected)
  r.record .gridsUnloaded (some s.map) (.count s.unloaded)

/-- The series that have samples. -/
def series (r : Recorder) : List Series := (r.samples.map (·.1)).eraseDups

def samplesOf (r : Recorder) (s : Series) : List Sample :=
  (r.samples.filter fun e => e.1 = s).map (·.2)

/-- The sum of a counter, which has 64 bits and wraps around. -/
def total (r : Recorder) (s : Series) : UInt64 :=
  .ofNat (Realm.total (fun | .count n => n | _ => 0) (r.samplesOf s))

/-- The last value of a gauge. -/
def level? (r : Recorder) (s : Series) : Option Double :=
  ((r.samplesOf s).filterMap fun | .level n => some (.ofInt .double n) | _ => none).getLast?

/-- The values of a histogram. -/
def times (r : Recorder) (s : Series) : List Double :=
  (r.samplesOf s).filterMap fun | .time d => some d.seconds | _ => none

end Recorder
end Realm
