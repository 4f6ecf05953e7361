import Realm.Config.Reading
import Realm.World.Loop

/-! # The command line

Runs a world with the settings in the file that the first argument names, or with the defaults,
until the configured number of ticks is reached. -/

namespace Realm.Main

/-- The seed that the population of every run is drawn from. -/
def seed : UInt64 := 0x5eed

/-- How many ticks lie between two lines on the state of the world. -/
def statusInterval : Nat := 100

def fileFault : IO.Error → FileFault
  | .noFileOrDirectory .. => .missing
  | .inappropriateType .. => .directory
  | e => .other (toString e)

def loadConfig (path : String) : IO (Except Fault Config) := do
  let contents ← (IO.FS.readBinFile path).toBaseIO
  return Config.ofFile (contents.mapError fileFault)

/-- A world with the configured population, about to be added. -/
def prepare (c : Config) : Except Fault Game := do
  let w ← World.ofConfig c
  if c.population = 0 then return { world := w }
  let (p, w) ← Population.spawn w c.population.toNat seed
  return { world := w, population := some p }

/-- Takes turns at the tick rate, each with the time since the one before. -/
partial def play (g : Game) (last : Duration) (done : Nat) : IO (Nat × Game) := do
  let start : Duration := ⟨← IO.monoNanosNow⟩
  let g := g.turn (start - last)
  let taken : Duration := ⟨← IO.monoNanosNow⟩ - start
  let done := done + 1
  if Game.slowTick.nanos < taken.nanos then
    IO.eprintln s!"Tick {done} took too long: {taken.millis} ms"
  if done % statusInterval = 0 then
    IO.println s!"Tick {done}: {g.world.objectCount} objects"
  if Game.spent g.world.config.maxTicks done then
    return (done, g)
  IO.sleep (.ofNat (g.world.config.tickDuration.toNat - taken.millis))
  play g start done

def run (c : Config) : IO UInt32 := do
  match prepare c with
  | .error fault =>
    IO.eprintln s!"Error: {fault.message}"
    return 1
  | .ok g =>
    let (done, g) ← play g ⟨← IO.monoNanosNow⟩ 0
    IO.println s!"World stopped after {done} ticks with {g.world.objectCount} objects placed"
    return 0

end Realm.Main

def main (args : List String) : IO UInt32 := do
  let loaded ← match args.head? with
    | some path => Realm.Main.loadConfig path
    | none => pure (.ok {})
  match loaded with
  | .ok c => Realm.Main.run c
  | .error fault =>
    IO.eprintln s!"Error: Failed to load config: {fault.message}"
    return 1
