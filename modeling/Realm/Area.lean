import Realm.Geometry

/-! # Cells and blocks of cells -/

namespace Realm

open Realm.Geometry

/-! ## A cell inside its grid -/

namespace CellCoord

/-- The grid that a cell belongs to. -/
def gridCoord (c : CellCoord) : GridCoord := ⟨c.x / cellsPerGrid, c.y / cellsPerGrid⟩

def column (c : CellCoord) : UInt32 := c.x % cellsPerGrid

def row (c : CellCoord) : UInt32 := c.y % cellsPerGrid

/-- The row-major number of a cell inside its grid. -/
def localIndex (c : CellCoord) : Fin 64 :=
  ⟨c.y.toNat % 8 * 8 + c.x.toNat % 8, by omega⟩

end CellCoord

/-! ## Areas -/

/-- The block of cells between two corners, both included. -/
structure Area where
  low : CellCoord
  high : CellCoord
  deriving DecidableEq, Repr

namespace Area

/-- The cell of the point of the map nearest to `(x, y)`. -/
def corner (x y : Single) : CellCoord := (cellCoordAt (clamp x) (clamp y)).normalize

/-- A radius that is not finite or not positive counts as zero. -/
def reach (radius : Single) : Single := if radius.isFinite ∧ 0 < radius then radius else 0

/-- The cells touched by the square around `(x, y)` with half-side `radius`. -/
def around (x y radius : Single) : Area :=
  let r := reach radius
  if r = 0 then ⟨corner x y, corner x y⟩
  else ⟨corner (x + -r) (y + -r), corner (x + r) (y + r)⟩

def isSingle (a : Area) : Bool := a.low = a.high

def Contains (a : Area) (c : CellCoord) : Prop :=
  (a.low.x ≤ c.x ∧ c.x ≤ a.high.x) ∧ (a.low.y ≤ c.y ∧ c.y ≤ a.high.y)

instance (a : Area) (c : CellCoord) : Decidable (a.Contains c) :=
  inferInstanceAs (Decidable (_ ∧ _))

/-- The product of width and height, each a 32-bit word. -/
def count (a : Area) : Nat :=
  (a.high.x - a.low.x + 1).toNat * (a.high.y - a.low.y + 1).toNat

def cells (a : Area) : List CellCoord := Coord.block a.low a.high

/-- The grids that the area overlaps. -/
def grids (a : Area) : List GridCoord :=
  Coord.block (CellCoord.gridCoord a.low) (CellCoord.gridCoord a.high)

end Area
end Realm
