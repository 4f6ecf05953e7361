import Realm.WorldMap.Basic
import Std.Data.ExtTreeSet

/-! # Updates of a map

An update applies queued tasks, keeps the grids around world-scoped objects active, and brings the
other grids a step closer to being unloaded. -/

namespace Realm

/-- What an update did, and what the map holds after it. -/
structure UpdateStats where
  map : MapId
  applied : Nat
  rejected : Nat
  /-- Grids loaded because world-scoped objects are near. -/
  loaded : Nat
  unloaded : Nat
  total : Nat
  active : Nat
  objects : Nat
  deriving DecidableEq, Repr

/-- A grid after an update during which nothing needed it, and whether it is to be unloaded. An
active grid becomes idle, an idle one awaits removal, and then its countdown runs unless it is
locked. -/
def Grid.wait (g : Grid) (diff : Duration) : Grid × Bool :=
  match g.state with
  | .invalid | .active => ((g.setRetention .restart).setState .idle, false)
  | .idle => ((g.setRetention .restart).setState .removal, false)
  | .removal =>
    if g.retention.locked then (g, false)
    else
      let g := g.setRetention fun r => r.advance diff
      if !g.retention.expired then (g, false)
      else if g.isEmpty then (g, true)
      else (g.setRetention .restart, false)

namespace WorldMap

/-! ## Tasks -/

/-- How a run of tasks went. -/
structure TaskRun where
  map : WorldMap
  applied : Nat := 0
  rejected : Nat := 0
  notes : List Directory.Note := []

/-- Applies one task more. A refused task is counted and passed over. -/
def TaskRun.next (r : TaskRun) (t : Task) : TaskRun :=
  let o := r.map.apply t
  let r := { r with map := o.map, notes := r.notes ++ o.notes }
  match o.result with
  | .ok _ => { r with applied := r.applied + 1 }
  | .error _ => { r with rejected := r.rejected + 1 }

def applyAll (m : WorldMap) (ts : List Task) : TaskRun := ts.foldl TaskRun.next { map := m }

/-! ## Grids -/

/-- The numbers of the grids within visibility distance of a world-scoped object. -/
def covered (m : WorldMap) : Std.ExtTreeSet Nat compare :=
  let near (p : Placement) : List Nat :=
    (Area.around p.position.x p.position.y m.config.visibility).grids.map (·.id.toNat)
  .ofList ((m.placements.values.filter fun p => p.scope = .world).flatMap near)

/-- Loads and activates the grid with a number. -/
def activate (m : WorldMap) (id : Nat) : WorldMap :=
  match m.modifyGrid (Coord.ofId gridsPerMap (.ofNat id)) Grid.activate with
  | .ok m => m
  | .error _ => m

/-- Lets the loaded grids wait but those in `active`, and names the ones that are to be unloaded. -/
def waitGrids (m : WorldMap) (active : Std.ExtTreeSet Nat compare) (diff : Duration) :
    List GridCoord × WorldMap :=
  let waited := m.grids.map fun id g => if id ∈ active then (g, false) else g.wait diff
  let due := (waited.values.filter (·.2)).map (·.1.coord)
  (due, { m with grids := waited.map fun _ w => w.1 })

/-- Unloads grids that are empty, and counts the ones that are gone. Since nobody was in them, there
is nothing to note for the directory. -/
def unloadAll (m : WorldMap) : List GridCoord → Nat × WorldMap
  | [] => (0, m)
  | c :: cs =>
    let o := m.unload c false
    let rest := o.map.unloadAll cs
    (if o.result.toOption.getD false then rest.1 + 1 else rest.1, rest.2)

/-! ## The update -/

/-- The end of an update, after its tasks. It is unfolded by name only. -/
@[irreducible] def finish (run : TaskRun) (diff : Duration) : WorldMap × UpdateStats :=
  let active := run.map.covered
  let loaded := active.toList.foldl activate run.map
  let waited := loaded.waitGrids active diff
  let left := waited.2.unloadAll waited.1
  (left.2,
    { map := run.map.id
      applied := run.applied
      rejected := run.rejected
      loaded := loaded.loadedCount - run.map.loadedCount
      unloaded := left.1
      total := left.2.loadedCount
      active := active.size
      objects := left.2.objectCount })

/-- Updates a map after the time `diff`. The notes for the directory come last. -/
def update (m : WorldMap) (diff : Duration) : WorldMap × UpdateStats × List Directory.Note :=
  let (batch, queue) := m.queue.popBatch m.config.maxTasks.toNat
  let run := { m with queue }.applyAll batch
  let done := finish run diff
  (done.1, done.2, run.notes)

end WorldMap
end Realm
