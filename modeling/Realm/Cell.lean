import Realm.Roster
import Realm.Total

/-! # Cells

A cell keeps a roster for each scope and kind. -/

namespace Realm

/-- The rosters of one scope in a cell, one for each kind. -/
structure Compartment (s : Scope) where
  rosters : Vector Roster 8
  deriving DecidableEq, Repr

def Kind.index (k : Kind) : Fin 8 := ⟨k.rank, by cases k <;> decide⟩

namespace Compartment

variable {s : Scope}

instance : EmptyCollection (Compartment s) := ⟨⟨Vector.replicate 8 ∅⟩⟩
instance : Inhabited (Compartment s) := ⟨∅⟩

def roster (c : Compartment s) (k : Kind) : Roster := c.rosters[k.index]

/-- Adds a guid to the roster of its kind, if objects of the scope may have that kind. -/
def insert? (c : Compartment s) (g : Guid) : Option (Link × Compartment s) :=
  if s.Holds g.kind then
    let (l, r) := (c.roster g.kind).insert g
    some (l, ⟨c.rosters.set g.kind.index r⟩)
  else none

/-- Adds a guid to the roster of a kind that is known beforehand. -/
def add (c : Compartment s) (k : Kind) (g : Guid) : Link × Compartment s :=
  let (l, r) := (c.roster k).insert g
  (l, ⟨c.rosters.set k.index r⟩)

/-- Removes the entry of a kind behind a link. -/
def erase? (c : Compartment s) (k : Kind) (l : Link) : Option (Compartment s) :=
  if s.Holds k then ((c.roster k).erase? l).map fun r => ⟨c.rosters.set k.index r⟩ else none

/-- The kinds of the scope that are in a mask, in the order of visits. -/
def kinds (s : Scope) (mask : KindMask) : List Kind := s.kinds.filter mask.has

def count (c : Compartment s) (mask : KindMask) : Nat :=
  total (fun k => (c.roster k).size) (kinds s mask)

/-- The guids of the kinds in a mask, one kind after the other. -/
def visit (c : Compartment s) (mask : KindMask) : List Guid :=
  (kinds s mask).flatMap fun k => (c.roster k).guids

def isEmpty (c : Compartment s) : Bool := s.kinds.all fun k => (c.roster k).isEmpty

end Compartment

structure Cell where
  world : Compartment .world := ∅
  grid : Compartment .grid := ∅
  deriving DecidableEq, Repr

namespace Cell

instance : EmptyCollection Cell := ⟨{}⟩
instance : Inhabited Cell := ⟨∅⟩

def compartment (c : Cell) : (s : Scope) → Compartment s
  | .world => c.world
  | .grid => c.grid

def set (c : Cell) : {s : Scope} → Compartment s → Cell
  | .world, w => { c with world := w }
  | .grid, g => { c with grid := g }

def roster (c : Cell) (s : Scope) (k : Kind) : Roster := (c.compartment s).roster k

def insert? (c : Cell) (s : Scope) (g : Guid) : Option (Link × Cell) :=
  ((c.compartment s).insert? g).map fun (l, new) => (l, c.set new)

def add (c : Cell) (s : Scope) (k : Kind) (g : Guid) : Link × Cell :=
  let (l, new) := (c.compartment s).add k g
  (l, c.set new)

def erase? (c : Cell) (s : Scope) (k : Kind) (l : Link) : Option Cell :=
  ((c.compartment s).erase? k l).map c.set

def count (c : Cell) (s : Scope) (mask : KindMask) : Nat := (c.compartment s).count mask

def visit (c : Cell) (s : Scope) (mask : KindMask) : List Guid := (c.compartment s).visit mask

def isEmpty (c : Cell) : Bool := c.world.isEmpty && c.grid.isEmpty

end Cell
end Realm
