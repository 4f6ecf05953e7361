import Realm.Fault

/-! # Configuration -/

namespace Realm

/-- The settings of one map. -/
structure MapConfig where
  gridUnload : Bool := true
  /-- How long an empty grid stays loaded once nothing needs it, in milliseconds. -/
  unloadDelay : UInt64 := 60000
  visibility : Single := 100
  maxTasks : UInt64 := 4096
  deriving DecidableEq, Repr

/-- The settings of a world. -/
structure Config where
  /-- Ticks per second. -/
  tickRate : UInt64 := 20
  mapIds : List MapId := [0, 1]
  maps : MapConfig := {}
  /-- How many threads update maps; none means one for each processor. -/
  updateThreads : Option UInt64 := none
  metricsPort : Option UInt16 := none
  logFilter : Option String := none
  population : UInt64 := 500
  maxTicks : Option UInt64 := none
  deriving DecidableEq, Repr

namespace Config

/-- The largest visibility distance: the side of a grid. -/
def maxVisibility : Single := Geometry.gridSize

/-- The first rule that the settings break. -/
def validate (c : Config) : Except ConfigFault Unit :=
  if c.tickRate = 0 ∨ 1000 < c.tickRate then .error (.tickRate c.tickRate)
  else if c.mapIds = [] then .error .noMaps
  else if ¬c.mapIds.Nodup then .error .repeatedMap
  else if ¬(c.maps.visibility.isFinite ∧ 0 < c.maps.visibility ∧ c.maps.visibility ≤ maxVisibility)
    then .error (.visibility c.maps.visibility)
  else if c.maps.maxTasks = 0 then .error .noTasks
  else .ok ()

/-- The length of a tick in milliseconds. -/
def tickDuration (c : Config) : UInt64 := 1000 / max c.tickRate 1

end Config
end Realm
