import Realm.World.Population

/-! # The game loop -/

namespace Realm

/-- A world and the population that wanders in it, if there is one. -/
structure Game where
  world : World
  population : Option Population := none

namespace Game

/-- The shortest time between two updates of a map. -/
def minUpdateDelay : Duration := .ofMillis 1

/-- A tick that takes longer is worth a warning. -/
def slowTick : Duration := .ofMillis 40

/-! ## Turns -/

/-- What the loop calls. -/
inductive Call where
  | wander
  | tick (diff : Duration)
  deriving DecidableEq, Repr

/-- The error of a round that fails is only worth a warning. -/
def act (g : Game) : Call → Game
  | .wander =>
    match g.population with
    | none => g
    | some p =>
      let (_, p, w) := p.roam g.world
      { world := w, population := some p }
  | .tick diff => { g with world := (g.world.tick diff).2 }

/-- The calls of a turn: the population wanders, then the world ticks. -/
def calls (g : Game) (diff : Duration) : List Call :=
  match g.population with
  | none => [.tick diff]
  | some _ => [.wander, .tick diff]

/-- One turn, `diff` after the one before. -/
def turn (g : Game) (diff : Duration) : Game := (g.calls diff).foldl act g

/-! ## The loop -/

/-- What ends the wait between two turns. -/
inductive Wake where
  /-- The timer. The turn finds that `diff` has passed since the one before. -/
  | timer (diff : Duration)
  | shutdown
  deriving DecidableEq, Repr

/-- Whether so many turns use up the limit. -/
def spent (limit : Option UInt64) (done : Nat) : Bool :=
  limit.any fun limit => limit.toNat ≤ done

/-- Goes on after `done` turns, and answers how many there have been at the end of the loop. The
limit is looked at after a turn. There is no answer while the loop waits. -/
def runFrom (limit : Option UInt64) (done : Nat) (g : Game) : List Wake → Option (Nat × Game)
  | [] => none
  | .shutdown :: _ => some (done, g)
  | .timer diff :: wakes =>
    if spent limit (done + 1) then some (done + 1, g.turn diff)
    else runFrom limit (done + 1) (g.turn diff) wakes

/-- Takes turns until the configured limit is used up, or until the shutdown. -/
def run (g : Game) (wakes : List Wake) : Option (Nat × Game) :=
  runFrom g.world.config.maxTicks 0 g wakes

end Game
end Realm
