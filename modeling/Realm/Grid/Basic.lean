import Realm.Area
import Realm.Cell
import Realm.Grid.Retention

/-! # Grids

A grid holds 64 cells, counts their objects and remembers how far it is from being unloaded. -/

namespace Realm

/-- An active grid is needed; one that is idle or awaits removal has not been needed for a while. -/
inductive GridState where
  | invalid
  | active
  | idle
  | removal
  deriving DecidableEq, Repr

namespace GridState

def all : List GridState := [.invalid, .active, .idle, .removal]

def name : GridState → String
  | .invalid => "Invalid"
  | .active => "Active"
  | .idle => "Idle"
  | .removal => "Removal"

end GridState

structure Grid where
  coord : GridCoord
  state : GridState := .invalid
  retention : Retention
  cells : Vector Cell 64 := Vector.replicate 64 ∅
  worldCount : Nat := 0
  gridCount : Nat := 0
  deriving DecidableEq, Repr

namespace Grid

def empty (coord : GridCoord) (delay : Duration) (unload : Bool) : Grid :=
  { coord, retention := .start delay unload }

/-! ## Reading -/

/-- The cell at the place that a coordinate has in its grid. -/
def cell (g : Grid) (c : CellCoord) : Cell := g.cells[CellCoord.localIndex c]

/-- How many objects of a scope the grid counts. -/
def objectCount (g : Grid) : Scope → Nat
  | .world => g.worldCount
  | .grid => g.gridCount

def isEmpty (g : Grid) : Bool := g.worldCount = 0 && g.gridCount = 0

def count (g : Grid) (s : Scope) (mask : KindMask) : Nat :=
  total (fun c => c.count s mask) g.cells.toList

/-- The guids of a scope and the kinds in a mask, cell after cell. -/
def visit (g : Grid) (s : Scope) (mask : KindMask) : List Guid :=
  g.cells.toList.flatMap fun c => c.visit s mask

/-! ## Writing -/

def setCell (g : Grid) (c : CellCoord) (new : Cell) : Grid :=
  { g with cells := g.cells.set (CellCoord.localIndex c) new }

def setCount (g : Grid) (s : Scope) (n : Nat) : Grid :=
  match s with
  | .world => { g with worldCount := n }
  | .grid => { g with gridCount := n }

/-- Adds a guid to a cell, if objects of the scope may have its kind. -/
def insert? (g : Grid) (c : CellCoord) (s : Scope) (guid : Guid) : Option (Link × Grid) :=
  ((g.cell c).insert? s guid).map fun (l, new) =>
    (l, (g.setCell c new).setCount s (g.objectCount s + 1))

/-- Adds a guid to the roster of a kind that is known beforehand. The guid is counted first. -/
def add (g : Grid) (c : CellCoord) (s : Scope) (k : Kind) (guid : Guid) : Link × Grid :=
  let counted := g.setCount s (g.objectCount s + 1)
  let (l, new) := (counted.cell c).add s k guid
  (l, counted.setCell c new)

/-- Removes the entry of a scope and kind behind a link. -/
def erase? (g : Grid) (c : CellCoord) (s : Scope) (k : Kind) (l : Link) : Option Grid :=
  ((g.cell c).erase? s k l).map fun new =>
    (g.setCell c new).setCount s (g.objectCount s - 1)

def setState (g : Grid) (state : GridState) : Grid := { g with state }

def setRetention (g : Grid) (f : Retention → Retention) : Grid :=
  { g with retention := f g.retention }

/-- The grid once something needs it again. -/
def activate (g : Grid) : Grid := (g.setState .active).setRetention .restart

end Grid
end Realm
