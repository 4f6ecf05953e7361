import Realm.Config.Basic
import Realm.Directory
import Realm.Grid.Basic
import Realm.Task

/-! # Maps

A map knows where each of its objects is placed, and lists it in the cell of that place. Grids are
made when the first object comes near. What an operation changes for the directory is given back as
notes, in order. -/

namespace Realm

/-- Where an object is on a map, and the link to its entry in its cell. -/
structure Placement where
  guid : Guid
  cell : CellCoord
  scope : Scope
  position : Position
  link : Link
  deriving DecidableEq, Repr

def Placement.gridCoord (p : Placement) : GridCoord := CellCoord.gridCoord p.cell

/-- The cells that a move led from and to. -/
structure Relocation where
  source : CellCoord
  target : CellCoord
  deriving DecidableEq, Repr

namespace Relocation

def changedCell (r : Relocation) : Bool := r.source ≠ r.target

def changedGrid (r : Relocation) : Bool :=
  CellCoord.gridCoord r.source ≠ CellCoord.gridCoord r.target

end Relocation

structure WorldMap where
  id : MapId
  config : MapConfig
  /-- The loaded grids, under the numbers of their coordinates. -/
  grids : Std.ExtTreeMap Nat Grid compare := ∅
  /-- How many grids are loaded, counted as they come and go. -/
  loadedCount : Nat := 0
  placements : GuidTable Placement := ∅
  queue : TaskQueue := ∅

/-- What an operation answers, the map after it, and its notes for the directory. -/
structure Outcome (α : Type) where
  result : Except Fault α
  map : WorldMap
  notes : List Directory.Note := []

def Outcome.map' {α β : Type} (f : α → β) (o : Outcome α) : Outcome β :=
  { o with result := o.result.map f }

namespace WorldMap

/-- The operation is refused and changes nothing. -/
def refuse {α : Type} (m : WorldMap) (f : Fault) : Outcome α := { result := .error f, map := m }

/-! ## Grids -/

def grid? (m : WorldMap) (c : GridCoord) : Option Grid :=
  if c.IsValid then m.grids[c.id.toNat]? else none

def isLoaded (m : WorldMap) (c : GridCoord) : Bool := (m.grid? c).isSome

/-- The loaded grids in the order of their numbers. -/
def loadedGrids (m : WorldMap) : List Grid := m.grids.values

def activeGrids (m : WorldMap) : List GridCoord :=
  (m.loadedGrids.filter fun g => g.state = .active).map (·.coord)

def setGrid (m : WorldMap) (c : GridCoord) (g : Grid) : WorldMap :=
  { m with grids := m.grids.insert c.id.toNat g }

/-- The grid at a coordinate; if it is not loaded, an empty active one is. -/
def load (m : WorldMap) (c : GridCoord) : Except Fault (Grid × WorldMap) :=
  if ¬c.IsValid then .error (.gridOffMap c m.id)
  else match m.grids[c.id.toNat]? with
    | some g => .ok (g, m)
    | none =>
      let delay := Duration.ofMillis m.config.unloadDelay.toNat
      let g := (Grid.empty c delay m.config.gridUnload).setState .active
      .ok (g, { m.setGrid c g with loadedCount := m.loadedCount + 1 })

/-- Loads the grid at a coordinate and changes it. -/
def modifyGrid (m : WorldMap) (c : GridCoord) (f : Grid → Grid) : Except Fault WorldMap :=
  (m.load c).map fun (g, m) => m.setGrid c (f g)

/-- Turns the lock of a loaded grid on or off. -/
def lockGrid (m : WorldMap) (c : GridCoord) (on : Bool) : Outcome Unit :=
  match m.grid? c with
  | none => m.refuse (.gridNotLoaded c m.id)
  | some g => { result := .ok (), map := m.setGrid c (g.setRetention fun r => r.pin on) }

/-! ## Placements -/

def placement? (m : WorldMap) (g : Guid) : Option Placement := m.placements[g]?

def contains (m : WorldMap) (g : Guid) : Bool := m.placements.contains g

def objectCount (m : WorldMap) : Nat := m.placements.size

def place (m : WorldMap) (p : Placement) : WorldMap :=
  { m with placements := m.placements.insert p.guid p }

def displace (m : WorldMap) (g : Guid) : WorldMap :=
  { m with placements := m.placements.erase g }

/-- Drops a grid, if it is loaded and empty. With `force`, the objects of a grid that is not empty
lose their placements. The answer tells whether the grid was dropped. -/
def unload (m : WorldMap) (c : GridCoord) (force : Bool) : Outcome Bool :=
  let dropped (m : WorldMap) : WorldMap :=
    { m with grids := m.grids.erase c.id.toNat, loadedCount := m.loadedCount - 1 }
  match m.grid? c with
  | none => { result := .ok false, map := m }
  | some g =>
    if g.isEmpty then { result := .ok true, map := dropped m }
    else if !force then { result := .ok false, map := m }
    else
      let evicted := (m.placements.values.filter fun p => p.gridCoord = c).map (·.guid)
      { result := .ok true
        map := dropped (evicted.foldl displace m)
        notes := evicted.map .gone }

/-! ## Links between placements and cells -/

/-- The cell of a position. -/
def locate (g : Guid) (p : Position) : Except Fault CellCoord :=
  if ¬p.IsValid then .error (.badPosition p)
  else if ¬p.cellCoord.IsValid then .error (.cellOffMap g p p.cellCoord)
  else .ok p.cellCoord

/-- Enters a guid into a cell. -/
def link (m : WorldMap) (c : CellCoord) (s : Scope) (g : Guid) : Except Fault Link × WorldMap :=
  let gc := CellCoord.gridCoord c
  match m.load gc with
  | .error f => (.error f, m)
  | .ok (grid, m) =>
    match grid.insert? c s g with
    | none => (.error (.scopeMismatch g.kind s), m)
    | some (l, grid) => (.ok l, m.setGrid gc grid)

/-- Enters a guid of a kind that is known beforehand into a cell. -/
def linkKind (m : WorldMap) (c : CellCoord) (s : Scope) (k : Kind) (g : Guid) :
    Except Fault Link × WorldMap :=
  let gc := CellCoord.gridCoord c
  match m.load gc with
  | .error f => (.error f, m)
  | .ok (grid, m) =>
    let added := grid.add c s k g
    (.ok added.1, m.setGrid gc added.2)

/-- Takes the entry of a placement out of its cell. -/
def unlink (m : WorldMap) (p : Placement) : Except Fault WorldMap :=
  match m.grid? p.gridCoord with
  | none => .error (.gridLost p.guid p.gridCoord m.id)
  | some grid =>
    match grid.erase? p.cell p.scope p.guid.kind p.link with
    | none => .error (.linkLost p.guid p.cell)
    | some grid => .ok (m.setGrid p.gridCoord grid)

/-! ## Objects -/

/-- An object is placed at most once. -/
def checkUnplaced (m : WorldMap) (g : Guid) : Except Fault Unit :=
  if m.contains g then .error (.stale g .placedAlready) else .ok ()

/-- Places an object once it has an entry in its cell. -/
def enroll (linked : Except Fault Link × WorldMap) (g : Guid) (p : Position) (s : Scope)
    (cell : CellCoord) : Outcome CellCoord :=
  match linked with
  | (.error f, m) => m.refuse f
  | (.ok link, m) =>
    { result := .ok cell
      map := m.place { guid := g, cell, scope := s, position := p, link }
      notes := [.placed g] }

/-- Enters and places an object that passed the checks. -/
def enter (m : WorldMap) (g : Guid) (p : Position) (s : Scope) (cell : CellCoord) :
    Outcome CellCoord :=
  enroll (m.link cell s g) g p s cell

/-- Adds an object that has to be of the kind `k`. -/
def addKind (m : WorldMap) (k : Kind) (g : Guid) (p : Position) (s : Scope) : Outcome CellCoord :=
  if g.kind ≠ k then m.refuse (.kindMismatch g k)
  else match m.checkUnplaced g *> locate g p with
    | .error f => m.refuse f
    | .ok cell => enroll (m.linkKind cell s k g) g p s cell

/-- Adds an object, if its scope may hold its kind. -/
def add (m : WorldMap) (g : Guid) (p : Position) (s : Scope) : Outcome CellCoord :=
  if ¬s.Holds g.kind then m.refuse (.scopeMismatch g.kind s)
  else match m.checkUnplaced g *> locate g p with
    | .error f => m.refuse f
    | .ok cell => m.enter g p s cell

/-- Removes an object and answers where it was. An object without an entry in its cell loses its
placement but stays in the directory. -/
def remove (m : WorldMap) (g : Guid) : Outcome Placement :=
  match m.placement? g with
  | none => m.refuse (.stale g .notPlaced)
  | some p =>
    let m := m.displace g
    match m.unlink p with
    | .error f => m.refuse f
    | .ok m => { result := .ok p, map := m, notes := [.gone g] }

/-- Moves an object. Inside a cell its entry keeps its place. -/
def relocate (m : WorldMap) (g : Guid) (p : Position) : Outcome Relocation :=
  match m.placement? g with
  | none => m.refuse (.stale g .relocatingUnplaced)
  | some current =>
    match locate g p with
    | .error f => m.refuse f
    | .ok cell =>
      let relocation : Relocation := ⟨current.cell, cell⟩
      if !relocation.changedCell then
        { result := .ok relocation, map := m.place { current with position := p } }
      else match m.unlink current with
        | .error f => m.refuse f
        | .ok m =>
          match m.link cell current.scope g with
          | (.error f, m) => { result := .error f, map := m.displace g, notes := [.gone g] }
          | (.ok link, m) =>
            { result := .ok relocation
              map := m.place { guid := g, cell, scope := current.scope, position := p, link } }

/-! ## Tasks -/

def enqueue (m : WorldMap) (t : Task) : WorldMap := { m with queue := m.queue.push t }

def apply (m : WorldMap) : Task → Outcome Unit
  | .add g p s => (m.add g p s).map' fun _ => ()
  | .remove g => (m.remove g).map' fun _ => ()
  | .relocate g p => (m.relocate g p).map' fun _ => ()

end WorldMap
end Realm
