import Realm.WorldMap.Query
import Realm.WorldMap.Update

/-! # The world

The maps of a world, the directory over them, and the tasks in their queues. A teleport between maps
is two tasks, one for each map. -/

namespace Realm

/-! ## Updating maps -/

/-- How many threads update maps: at least one. -/
def updateThreads (wanted : UInt64) : UInt64 := if wanted = 0 then 1 else wanted

/-- The maps after an update, with what each update did and its notes for the directory. -/
def updateMaps (maps : List WorldMap) (diff : Duration) :
    List (WorldMap × UpdateStats × List Directory.Note) :=
  maps.map fun m => m.update diff

/-! ## Worlds -/

/-- Where the last teleport still in a queue will leave an object. -/
structure Transfer where
  map : MapId
  scope : Scope
  deriving DecidableEq, Repr

structure World where
  config : Config
  maps : List WorldMap
  directory : Directory := ∅
  /-- The teleports between maps that the target maps have not come to yet. -/
  transfers : GuidTable Transfer := ∅
  ticks : UInt64 := 0

/-- What a tick did. -/
structure TickStats where
  tick : UInt64
  maps : List UpdateStats

namespace TickStats

def objects (s : TickStats) : Nat := total (·.objects) s.maps

def loadedGrids (s : TickStats) : Nat := total (·.total) s.maps

end TickStats

namespace World

/-- A world with empty maps, if the configuration keeps the rules. -/
def ofConfig (c : Config) : Except Fault World := do
  c.validate.mapError .config
  return { config := c, maps := c.mapIds.map fun id => { id, config := c.maps } }

/-! ## Maps -/

def map? (w : World) (id : MapId) : Option WorldMap := w.maps.find? fun m => m.id = id

def setMap (w : World) (m : WorldMap) : World :=
  { w with maps := w.maps.map fun old => if old.id = m.id then m else old }

/-- Runs an operation on one map and hands its notes to the directory. -/
def onMap {α : Type} (w : World) (m : WorldMap) (op : WorldMap → Outcome α) :
    Except Fault α × World :=
  let o := op m
  (o.result, { w.setMap o.map with directory := w.directory.notes m.id o.notes })

def objectCount (w : World) : Nat := total (·.objectCount) w.maps

/-- How many tasks wait for a map. -/
def pending (w : World) (id : MapId) : Nat := ((w.map? id).map fun m => m.queue.size).getD 0

/-- The maps on which a guid is placed. -/
def holders (w : World) (g : Guid) : List MapId := (w.maps.filter fun m => m.contains g).map (·.id)

/-! ## Tasks -/

/-- Queues a task for a map. -/
def post (w : World) (id : MapId) (t : Task) : Except Fault World :=
  match w.map? id with
  | none => .error (.unknownMap id)
  | some m => .ok (w.setMap (m.enqueue t))

/-- The map that a teleport has to take an object from, and the object's scope: the target of the
teleport before it if that is still under way, else the map that the directory names. -/
def origin (w : World) (g : Guid) : Except Fault (MapId × Scope) :=
  match w.transfers[g]? with
  | some t => .ok (t.map, t.scope)
  | none =>
    match w.directory.locate? g with
    | none => .error (.stale g .notInWorld)
    | some id =>
      let placement := (w.map? id).bind fun m => m.placement? g
      .ok (id, (placement.map (·.scope)).getD .world)

/-- Queues the tasks that move an object to a position on a map. -/
def teleport (w : World) (g : Guid) (target : MapId) (p : Position) : Except Fault World :=
  if ¬p.IsValid then .error (.badPosition p)
  else if (w.map? target).isNone then .error (.unknownMap target)
  else do
    let (source, scope) ← w.origin g
    if source = target then w.post target (.relocate g p)
    else
      let w ← w.post source (.remove g)
      let w ← w.post target (.add g p scope)
      return { w with transfers := w.transfers.insert g ⟨target, scope⟩ }

/-! ## Ticks -/

/-- Updates all maps after the time `diff`. A transfer is over once its target's queue is empty. -/
def tick (w : World) (diff : Duration) : TickStats × World :=
  let updated := updateMaps w.maps diff
  let directory := updated.foldl (fun d u => d.notes u.1.id u.2.2) w.directory
  let ticked : World :=
    { w with maps := updated.map (·.1), directory, ticks := w.ticks + 1 }
  ({ tick := ticked.ticks, maps := updated.map (·.2.1) },
    { ticked with transfers := ticked.transfers.filter fun _ t => 0 < ticked.pending t.map })

end World
end Realm
