import Realm.Binary.Basic
import Realm.Coord

/-! # The geometry every map shares

A map is a square of 64 × 64 grids around the origin, a grid a square of 8 × 8 cells. Coordinates
grow with positions; the origin is the low corner of grid 32 and of cell 256. -/

namespace Realm

def gridsPerMap : UInt32 := 64
def cellsPerGrid : UInt32 := 8
def cellsPerMap : UInt32 := 512

abbrev GridCoord := Coord gridsPerMap
abbrev CellCoord := Coord cellsPerMap

namespace Geometry

/-! ## Sizes -/

/-- The side of a grid: the single-precision number nearest to 533.3333. -/
def gridSize : Single := .ofRat .single (mkRat 5333333 10000)

def centreGrid : UInt32 := 32

def gridHalf : Single := gridSize / 2

def cellSize : Single := gridSize / 8

def centreCell : UInt32 := 256

def cellHalf : Single := cellSize / 2

def mapSize : Single := gridSize * 64

def mapHalf : Single := mapSize / 2

/-- The largest coordinate that a position on a map may have, half a unit inside the edge. -/
def bound : Single := mapHalf - .ofRat .single (mkRat 1 2)

/-! ## Heights -/

/-- How many heights of the ground are known along the side of a grid. -/
def heightsPerGrid : UInt32 := 128

/-- No ground is higher. -/
def maxHeight : Single := 100000

/-- Stands for a height that is not known. -/
def noHeight : Single := -100000

/-- The longest fall. -/
def maxFall : Single := 250000

/-- How far down ground is looked for, unless a search says otherwise. -/
def heightSearch : Single := 50

/-! ## From one coordinate of a position to grid and cell components -/

/-- How many strips of width `size` lie between the middle of the centre strip, at `half`, and
`c`. -/
def stripOffset (half size c : Single) : Double := (c.widen - half.widen) / size.widen

/-- The number of the strip that holds `c`. Numbers below zero are off the low edge. -/
def strip (half size : Single) (centre : UInt32) (c : Single) : Int :=
  (stripOffset half size c + .ofInt .double centre.toNat + .ofRat .double (mkRat 1 2)).toInt32

/-- A number off the low edge wraps around to one far past the high edge. -/
def component (n : Int) : UInt32 := UInt32.ofInt n

def gridAxis (c : Single) : UInt32 := component (strip gridHalf gridSize centreGrid c)

def cellAxis (c : Single) : UInt32 := component (strip cellHalf cellSize centreCell c)

/-- The grid component counted down from the high edge in single precision. It is one lower than
`gridAxis` on the borders between grids. -/
def gridAxisFromEdge (c : Single) : UInt32 :=
  component (63 - (.ofInt .single centreGrid.toNat - c / gridSize : Single).toInt32)

def gridCoordAt (x y : Single) : GridCoord := ⟨gridAxis x, gridAxis y⟩

def cellCoordAt (x y : Single) : CellCoord := ⟨cellAxis x, cellAxis y⟩

/-- The cell of a point, and where the point lies in it on both axes, measured from the cell's
middle. -/
def cellCoordAndOffset (x y : Single) : CellCoord × Single × Single :=
  let offsetX : Double := (x.widen - cellHalf.widen) / cellSize.widen
  let offsetY : Double := (y.widen - cellHalf.widen) / cellSize.widen
  let half : Double := .ofRat .double (mkRat 1 2)
  let numberX : Int := (offsetX + .ofInt .double centreCell.toNat + half).toInt32
  let numberY : Int := (offsetY + .ofInt .double centreCell.toNat + half).toInt32
  let centre : Single := .ofInt .single centreCell.toNat
  (⟨component numberX, component numberY⟩,
    (offsetX.narrow - .ofInt .single numberX + centre) * cellSize,
    (offsetY.narrow - .ofInt .single numberY + centre) * cellSize)

def gridCoordFromEdge (x y : Single) : GridCoord := ⟨gridAxisFromEdge x, gridAxisFromEdge y⟩

/-! ## From components back to positions -/

/-- The middle of a cell's strip. -/
def cellMiddle (n : UInt32) : Single :=
  ((.ofInt .double n.toNat - .ofInt .double centreCell.toNat : Double) * cellSize.widen
    + cellHalf.widen).narrow

def cellCentre (c : CellCoord) : Single × Single := (cellMiddle c.x, cellMiddle c.y)

/-- The low edge of a grid's strip. -/
def gridLow (n : UInt32) : Single :=
  ((.ofInt .double n.toNat - .ofInt .double centreGrid.toNat : Double) * gridSize.widen).narrow

/-- The high edge of a grid's strip. -/
def gridHigh (n : UInt32) : Single := gridLow n + gridSize

/-! ## The bounds of a map -/

/-- The nearest coordinate on the map. What is not a number stays as it is. -/
def clamp (c : Single) : Single :=
  if bound < c then bound else if c < -bound then -bound else c

def OnMap (c : Single) : Prop := c.isFinite ∧ c.abs ≤ bound

instance (c : Single) : Decidable (OnMap c) := inferInstanceAs (Decidable (_ ∧ _))

end Geometry
end Realm
