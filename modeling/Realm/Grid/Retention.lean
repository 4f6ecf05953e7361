/-! # What keeps a grid loaded

A grid that is no longer needed stays for a while: a countdown runs, and locks stop it. -/

namespace Realm

/-- A length of time in nanoseconds. -/
structure Duration where
  nanos : Nat
  deriving DecidableEq, Repr

namespace Duration

def ofMillis (n : Nat) : Duration := ⟨n * 1000000⟩

def ofMicros (n : Nat) : Duration := ⟨n * 1000⟩

/-- The whole milliseconds. -/
def millis (d : Duration) : Nat := d.nanos / 1000000

/-- What is left of `a` after `b`, at least nothing. -/
protected def sub (a b : Duration) : Duration := ⟨a.nanos - b.nanos⟩

instance : Sub Duration := ⟨Duration.sub⟩

end Duration

/-- The countdown of a grid and the locks that stop it. -/
structure Retention where
  delay : Duration
  remaining : Duration
  /-- How many users hold the grid, as far as 16 bits can count them. -/
  holders : UInt16 := 0
  /-- A lock that is on or off by itself. -/
  pinned : Bool
  deriving DecidableEq, Repr

namespace Retention

/-- A full countdown; without leave to unload, pinned. -/
def start (delay : Duration) (unload : Bool) : Retention :=
  { delay, remaining := delay, pinned := !unload }

def restart (r : Retention) : Retention := { r with remaining := r.delay }

def advance (r : Retention) (diff : Duration) : Retention :=
  { r with remaining := r.remaining - diff }

def expired (r : Retention) : Bool := r.remaining.nanos = 0

def locked (r : Retention) : Bool := r.pinned || 0 < r.holders

def pin (r : Retention) (on : Bool) : Retention := { r with pinned := on }

/-- One holder more, unless the count is full. -/
def hold (r : Retention) : Retention :=
  { r with holders := if r.holders = 0xFFFF then r.holders else r.holders + 1 }

/-- One holder less, unless there is none. -/
def release (r : Retention) : Retention :=
  { r with holders := if r.holders = 0 then 0 else r.holders - 1 }

/-- What can be done to a countdown and its locks. -/
inductive Step where
  | restart
  | advance (diff : Duration)
  | pin (on : Bool)
  | hold
  | release
  deriving DecidableEq, Repr

def step (r : Retention) : Step → Retention
  | .restart => r.restart
  | .advance diff => r.advance diff
  | .pin on => r.pin on
  | .hold => r.hold
  | .release => r.release

def run (r : Retention) (steps : List Step) : Retention := steps.foldl step r

end Retention
end Realm
