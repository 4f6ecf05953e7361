import Realm.Binary.Decimal
import Realm.Geometry

/-! # Positions on a map -/

namespace Realm

open Realm.Geometry

structure Position where
  x : Single
  y : Single
  z : Single
  orientation : Single
  deriving DecidableEq, Repr

namespace Position

/-- A position on the ground, facing along the axis. -/
def flat (x y : Single) : Position := ⟨x, y, 0, 0⟩

/-- Whether the plane coordinates lie on the map. -/
def OnPlane (p : Position) : Prop := OnMap p.x ∧ OnMap p.y

instance (p : Position) : Decidable p.OnPlane := inferInstanceAs (Decidable (_ ∧ _))

/-- Height and orientation need only be finite. -/
def IsValid (p : Position) : Prop :=
  (p.OnPlane ∧ p.z.isFinite) ∧ p.orientation.isFinite

instance (p : Position) : Decidable p.IsValid := inferInstanceAs (Decidable (_ ∧ _))

def cellCoord (p : Position) : CellCoord := cellCoordAt p.x p.y

/-- Whether all four numbers have the same values. -/
def same (p q : Position) : Bool :=
  p.x.same q.x && p.y.same q.y && p.z.same q.z && p.orientation.same q.orientation

/-! ## Distances in the plane -/

def distanceSq (p q : Position) : Single :=
  let dx := p.x - q.x
  let dy := p.y - q.y
  dx * dx + dy * dy

def Within (p q : Position) (distance : Single) : Prop := p.distanceSq q ≤ distance * distance

instance (p q : Position) (d : Single) : Decidable (p.Within q d) :=
  inferInstanceAs (Decidable (_ ≤ _))

instance : ToString Position where
  toString p :=
    s!"({p.x.fixedText 3}, {p.y.fixedText 3}, {p.z.fixedText 3}, o={p.orientation.fixedText 3})"

end Position
end Realm
