import Realm.WorldMap.Basic

/-! # Looking around on a map -/

namespace Realm.WorldMap

/-- The guids of a scope and the kinds in a mask in one cell. -/
def visitCell (m : WorldMap) (c : CellCoord) (s : Scope) (mask : KindMask) : List Guid :=
  match m.grid? (CellCoord.gridCoord c) with
  | some g => (g.cell c).visit s mask
  | none => []

/-- The guids of a scope and the kinds in a mask in the cells of an area. -/
def visit (m : WorldMap) (a : Area) (s : Scope) (mask : KindMask) : List Guid :=
  a.cells.flatMap fun c => m.visitCell c s mask

/-- Whether the stored position of a guid lies within `radius` of `centre`. -/
def isNear (m : WorldMap) (centre : Position) (radius : Single) (g : Guid) : Bool :=
  match m.placement? g with
  | some p => p.position.Within centre radius
  | none => false

/-- The objects of the kinds in a mask within `radius` of `centre`: those of the world scope first,
then those of the grid scope. -/
def inRange (m : WorldMap) (centre : Position) (radius : Single) (mask : KindMask) : List Guid :=
  let area := Area.around centre.x centre.y radius
  ([Scope.world, .grid].flatMap fun s => m.visit area s mask).filter (m.isNear centre radius)

/-- The objects that an object can see: those within the map's visibility distance, itself left
out. -/
def visible (m : WorldMap) (g : Guid) (mask : KindMask) : Except Fault (List Guid) :=
  match m.placement? g with
  | none => .error (.stale g .unplacedViewer)
  | some p => .ok ((m.inRange p.position m.config.visibility mask).filter (· ≠ g))

end Realm.WorldMap
