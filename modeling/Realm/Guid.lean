/-! # Kinds, scopes and identities of objects -/

namespace Realm

/-- What an object is. The order of the kinds is the order of this list. -/
inductive Kind where
  | corpse
  | creature
  | dynamicObject
  | gameObject
  | player
  | areaTrigger
  | sceneObject
  | conversation
  deriving DecidableEq, Repr

namespace Kind

def all : List Kind :=
  [.corpse, .creature, .dynamicObject, .gameObject, .player, .areaTrigger, .sceneObject,
    .conversation]

/-- The place of a kind in the order of kinds. -/
def rank : Kind → Nat
  | .corpse => 0
  | .creature => 1
  | .dynamicObject => 2
  | .gameObject => 3
  | .player => 4
  | .areaTrigger => 5
  | .sceneObject => 6
  | .conversation => 7

def name : Kind → String
  | .corpse => "Corpse"
  | .creature => "Creature"
  | .dynamicObject => "DynamicObject"
  | .gameObject => "GameObject"
  | .player => "Player"
  | .areaTrigger => "AreaTrigger"
  | .sceneObject => "SceneObject"
  | .conversation => "Conversation"

instance : ToString Kind := ⟨name⟩

def ofName? (s : String) : Option Kind := all.find? fun k => k.name = s

theorem rank_injective {a b : Kind} (h : a.rank = b.rank) : a = b := by
  cases a <;> cases b <;> simp_all [rank]

end Kind

/-! ## Sets of kinds -/

/-- A set of kinds, one bit for each. -/
structure KindMask where
  bits : UInt8
  deriving DecidableEq, Repr

namespace KindMask

def none : KindMask := ⟨0⟩

def all : KindMask := ⟨0xFF⟩

def union (a b : KindMask) : KindMask := ⟨a.bits ||| b.bits⟩

def inter (a b : KindMask) : KindMask := ⟨a.bits &&& b.bits⟩

/-- Whether every kind of `b` is in `a`. -/
def contains (a b : KindMask) : Bool := a.inter b = b

def intersects (a b : KindMask) : Bool := a.inter b ≠ none

end KindMask

def Kind.mask (k : Kind) : KindMask := ⟨1 <<< UInt8.ofNat k.rank⟩

def KindMask.ofKinds (kinds : List Kind) : KindMask :=
  kinds.foldl (fun m k => m.union k.mask) .none

def KindMask.has (m : KindMask) (k : Kind) : Bool := m.intersects k.mask

/-! ## Scopes -/

/-- World-scoped objects keep the grids around them active; grid-scoped ones do not. -/
inductive Scope where
  | grid
  | world
  deriving DecidableEq, Repr

namespace Scope

def name : Scope → String
  | .grid => "Grid"
  | .world => "World"

instance : ToString Scope := ⟨name⟩

/-- The kinds that objects of a scope may have, in the order in which they are visited. -/
def kinds : Scope → List Kind
  | .world => [.player, .creature, .corpse, .dynamicObject]
  | .grid =>
    [.gameObject, .creature, .dynamicObject, .corpse, .areaTrigger, .sceneObject, .conversation]

def Holds (s : Scope) (k : Kind) : Prop := k ∈ s.kinds

instance (s : Scope) (k : Kind) : Decidable (s.Holds k) := inferInstanceAs (Decidable (_ ∈ _))

def mask (s : Scope) : KindMask := .ofKinds s.kinds

end Scope

/-! ## Identities -/

/-- Names one object for as long as the world lasts. -/
structure Guid where
  kind : Kind
  counter : UInt64
  deriving DecidableEq, Repr

namespace Guid

instance : ToString Guid := ⟨fun g => s!"{g.kind}-{g.counter}"⟩

/-- By kind, then by counter. -/
protected def compare : Guid → Guid → Ordering :=
  compareLex (compareOn fun g => g.kind.rank) (compareOn fun g => g.counter.toNat)

instance : Ord Guid := ⟨Guid.compare⟩

end Guid
end Realm
