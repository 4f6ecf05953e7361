import Realm.Area
import Realm.Guid
import Realm.Position

/-! # Why an operation is refused -/

namespace Realm

abbrev MapId := UInt32

/-- Why a guid is not where an operation expects it. -/
inductive StaleReason where
  | placedAlready
  | notPlaced
  | relocatingUnplaced
  | unplacedViewer
  | notInWorld
  deriving DecidableEq, Repr

def StaleReason.message : StaleReason → String
  | .placedAlready => "already placed on this map"
  | .notPlaced => "not placed on this map"
  | .relocatingUnplaced => "relocating an object that is not placed"
  | .unplacedViewer => "visibility query for unplaced object"
  | .notInWorld => "teleporting an object that is not in the world"

/-- What is wrong with a configuration. -/
inductive ConfigFault where
  | unreadable
  | tickRate (rate : UInt64)
  | noMaps
  | repeatedMap
  | visibility (distance : Single)
  | noTasks
  deriving DecidableEq, Repr

def ConfigFault.message : ConfigFault → String
  | .unreadable => "Failed to parse config"
  | .tickRate rate => s!"tick_rate must be within 1..=1000, got {rate}"
  | .noMaps => "at least one map id is required"
  | .repeatedMap => "map_ids contains duplicates"
  | .visibility distance =>
    s!"visibility_distance must be within (0, {Geometry.gridSize.shortestText}], got " ++
      distance.shortestText
  | .noTasks => "max_tasks_per_update must be positive"

/-- Why a file gives no text. -/
inductive FileFault where
  | missing
  | directory
  | notText
  /-- The system names another reason. -/
  | other (reason : String)
  deriving DecidableEq, Repr

def FileFault.message : FileFault → String
  | .missing => "No such file or directory (os error 2)"
  | .directory => "Is a directory (os error 21)"
  | .notText => "stream did not contain valid UTF-8"
  | .other reason => reason

inductive Fault where
  | cellOffMap (guid : Guid) (position : Position) (cell : CellCoord)
  | gridOffMap (grid : GridCoord) (map : MapId)
  | badPosition (position : Position)
  | stale (guid : Guid) (reason : StaleReason)
  | kindMismatch (guid : Guid) (expected : Kind)
  | scopeMismatch (kind : Kind) (scope : Scope)
  | config (fault : ConfigFault)
  | gridNotLoaded (grid : GridCoord) (map : MapId)
  | unknownMap (map : MapId)
  | file (fault : FileFault)
  /-- A placement points into a grid that is not loaded. -/
  | gridLost (guid : Guid) (grid : GridCoord) (map : MapId)
  /-- A placement points to a link that is not live. -/
  | linkLost (guid : Guid) (cell : CellCoord)
  deriving DecidableEq, Repr

def Fault.message : Fault → String
  | .cellOffMap guid position cell =>
    s!"Invalid coordinate: {guid} at {position} maps to cell {cell}"
  | .gridOffMap grid map => s!"Invalid coordinate: grid {grid} on map {map}"
  | .badPosition p =>
    s!"Invalid position: ({p.x.shortestText}, {p.y.shortestText}, {p.z.shortestText}, " ++
      s!"{p.orientation.shortestText})"
  | .stale guid reason => s!"Stale membership for {guid}: {reason.message}"
  | .kindMismatch guid expected => s!"Entity kind mismatch for {guid}: expected {expected}"
  | .scopeMismatch kind scope => s!"{kind} cannot be stored as a {scope}-scoped object"
  | .config fault => s!"Configuration error: {fault.message}"
  | .gridNotLoaded grid map => s!"Resource not found: grid {grid} on map {map}"
  | .unknownMap map => s!"Resource not found: map {map}"
  | .file fault => s!"IO error: {fault.message}"
  | .gridLost guid grid map =>
    s!"Internal error: {guid} placed in unloaded grid {grid} on map {map}"
  | .linkLost guid cell => s!"Internal error: {guid} missing from cell {cell}"

end Realm
