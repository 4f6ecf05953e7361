import Realm.Random.Draw
import Realm.World.Basic

/-! # A population that wanders

Objects for a world to keep track of: some stand still, the others take a random step in every
round, and players now and then jump to another map. -/

namespace Realm

structure Walker where
  guid : Guid
  map : MapId
  position : Position
  deriving DecidableEq, Repr

structure Population where
  random : KeyStream
  walkers : List Walker
  statics : Nat
  /-- How likely a player is to leave its map in a round. -/
  chance : Double

namespace Population

/-- Objects appear at most this far from the middle, on both axes. -/
def spread : Single := 2000

/-- A step is at most this long, on both axes. -/
def stride : Single := 12

/-- The single-precision number nearest to a full turn. -/
def fullTurn : Single := .ofRat .single (mkRat 13176795 2097152)

/-- The chance of 1 in 500. -/
def defaultChance : Double := .ofRat .double (mkRat 2 1000)

/-! ## Spawning -/

def drawPosition (s : KeyStream) : Position × KeyStream :=
  let (x, s) := s.nextSingle (-spread) spread
  let (y, s) := s.nextSingle (-spread) spread
  let (z, s) := s.nextSingle 0 100
  let (orientation, s) := s.nextSingle 0 fullTurn
  (⟨x, y, z, orientation⟩, s)

def drawPositions : Nat → KeyStream → List Position × KeyStream
  | 0, s => ([], s)
  | n + 1, s =>
    let (p, s) := drawPosition s
    let (ps, s) := drawPositions n s
    (p :: ps, s)

/-- The kind and the scope of the object with a number: in five objects there are a player, two
creatures, a game object and an area trigger. -/
def casting (i : Nat) : Kind × Scope :=
  match i % 5 with
  | 0 => (.player, .world)
  | 1 | 2 => (.creature, .grid)
  | 3 => (.gameObject, .grid)
  | _ => (.areaTrigger, .grid)

def walks (k : Kind) : Bool := k = .player ∨ k = .creature

/-- The object with a number, at a position. The objects take turns on the maps. -/
def member (mapIds : List MapId) (i : Nat) (p : Position) : Walker :=
  { guid := ⟨(casting i).1, .ofNat i⟩
    map := mapIds[i % mapIds.length]?.getD 0
    position := p }

/-- Queues the addition of objects with the numbers from `i` on, one at each position. -/
def settle (mapIds : List MapId) (i : Nat) (ps : List Position) (w : World) :
    Except Fault (List Walker × World) :=
  match ps with
  | [] => .ok ([], w)
  | p :: ps => do
    let new := member mapIds i p
    let w ← w.post new.map (.add new.guid p (casting i).2)
    let (others, w) ← settle mapIds (i + 1) ps w
    return (new :: others, w)

/-- Queues the addition of an object at each position. Players and creatures become walkers, and
the rest are only counted. -/
def populate (w : World) (positions : List Position) (random : KeyStream) :
    Except Fault (Population × World) := do
  let (members, w) ← settle w.config.mapIds 0 positions w
  let walkers := members.filter fun m => walks m.guid.kind
  let statics := members.length - walkers.length
  return ({ random, walkers, statics, chance := defaultChance }, w)

/-- Queues the addition of `count` objects at random positions. -/
def spawn (w : World) (count : Nat) (seed : UInt64) : Except Fault (Population × World) :=
  let (positions, random) := drawPositions count (.ofSeed seed)
  populate w positions random

/-- Sets the chance of leaving a map: cut off at 0 and 1, and 0 if it is not a finite number. -/
def setChance (p : Population) (chance : Double) : Population :=
  { p with chance :=
      if !chance.isFinite then 0 else if chance < 0 then 0 else if 1 < chance then 1 else chance }

/-! ## Wandering -/

/-- What a walker sets out to do in a round. -/
structure Plan where
  dx : Single
  dy : Single
  /-- The map it would like to jump to. -/
  target : Option MapId
  deriving DecidableEq, Repr

/-- Draws the plan of a walker of a kind. Only players leave, and only if there are other maps. -/
def drawPlan (mapIds : List MapId) (chance : Double) (k : Kind) (s : KeyStream) :
    Plan × KeyStream :=
  let (dx, s) := s.nextSingle (-stride) stride
  let (dy, s) := s.nextSingle (-stride) stride
  if k = .player ∧ 1 < mapIds.length then
    let (leaves, s) := s.nextBool chance
    if leaves then
      let (i, s) := s.nextBelow mapIds.length
      ({ dx, dy, target := mapIds[i]? }, s)
    else ({ dx, dy, target := none }, s)
  else ({ dx, dy, target := none }, s)

end Population

/-- Where a plan leads a walker, kept on the map. -/
def Walker.stepTo (walker : Walker) (plan : Population.Plan) : Position :=
  { walker.position with
    x := Geometry.clamp (walker.position.x + plan.dx)
    y := Geometry.clamp (walker.position.y + plan.dy) }

/-- Queues what a walker does by a plan. A jump that is refused becomes a step. The flag tells
whether it jumped. -/
def Walker.follow (walker : Walker) (plan : Population.Plan) (w : World) :
    Except Fault (Bool × Walker × World) :=
  let moved := { walker with position := walker.stepTo plan }
  let jump : Option (MapId × World) := do
    let target ← plan.target
    if target = walker.map then none
    let w ← (w.teleport walker.guid target moved.position).toOption
    return (target, w)
  match jump with
  | some (target, w) => .ok (true, { moved with map := target }, w)
  | none => do
    let w ← w.post walker.map (.relocate walker.guid moved.position)
    return (false, moved, w)

namespace Population

/-- Lets walkers draw plans and follow them, one after the other, and counts the jumps. Who cannot
follow its plan still takes the step, and nobody comes after it. -/
def roamAll (draw : Walker → KeyStream → Plan × KeyStream) :
    List Walker → KeyStream → World → Except Fault Nat × List Walker × KeyStream × World
  | [], s, w => (.ok 0, [], s, w)
  | walker :: walkers, s, w =>
    let (plan, s) := draw walker s
    match walker.follow plan w with
    | .error e => (.error e, { walker with position := walker.stepTo plan } :: walkers, s, w)
    | .ok (jumped, moved, w) =>
      let (jumps, others, s, w) := roamAll draw walkers s w
      (jumps.map fun n => if jumped then n + 1 else n, moved :: others, s, w)

/-- A round in which plans are drawn in some way, with what is left of it when it fails. -/
def roamBy (draw : Walker → KeyStream → Plan × KeyStream) (p : Population) (w : World) :
    Except Fault Nat × Population × World :=
  let (jumps, walkers, random, w) := roamAll draw p.walkers p.random w
  (jumps, { p with random, walkers }, w)

/-- A round of a population. -/
def roam (p : Population) (w : World) : Except Fault Nat × Population × World :=
  p.roamBy (fun walker => drawPlan w.config.mapIds p.chance walker.guid.kind) w

end Population
end Realm
