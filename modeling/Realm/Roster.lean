import Realm.Guid

/-! # Rosters

A roster lists guids in the order in which they came. Each entry sits in a slot that knows the slots
of the entries before and after it. An entry is named by a link: its slot and the slot's generation.
A slot that is given up is used again, with the next generation, so that a link to an entry that has
gone is recognized as stale. -/

namespace Realm

/-- Names an entry of a roster. -/
structure Link where
  index : Nat
  generation : UInt32
  deriving DecidableEq, Repr

instance : ToString Link where
  toString l := "GridRef \x7b index: " ++ toString l.index ++ ", generation: " ++
    toString l.generation ++ " \x7d"

namespace Roster

/-- A place for an entry. An occupied one names the slots before and after it in the order of the
entries. -/
structure Slot where
  occupant : Option Guid
  generation : UInt32
  prev : Option Nat
  next : Option Nat
  deriving DecidableEq, Repr

/-- An empty slot of the next generation. -/
def Slot.vacate (s : Slot) : Slot := ⟨none, s.generation + 1, none, none⟩

end Roster

structure Roster where
  slots : Array Roster.Slot := #[]
  /-- The empty slots, the one given up last first. -/
  vacant : List Nat := []
  /-- The slot of the first entry. -/
  head : Option Nat := none
  /-- The slot of the last entry. -/
  tail : Option Nat := none
  /-- How many entries there are. -/
  size : Nat := 0
  deriving DecidableEq, Repr

namespace Roster

instance : EmptyCollection Roster := ⟨{}⟩
instance : Inhabited Roster := ⟨∅⟩

/-! ## Reading -/

def isEmpty (r : Roster) : Bool := r.size = 0

def generationAt (r : Roster) (index : Nat) : UInt32 :=
  match r.slots[index]? with
  | some s => s.generation
  | none => 0

def linkAt (r : Roster) (index : Nat) : Link := ⟨index, r.generationAt index⟩

def occupant? (r : Roster) (index : Nat) : Option Guid := r.slots[index]?.bind Slot.occupant

/-- The guid behind a link, unless the link is stale. -/
def get? (r : Roster) (l : Link) : Option Guid :=
  match r.slots[l.index]? with
  | some s => if s.generation = l.generation then s.occupant else none
  | none => none

def contains (r : Roster) (l : Link) : Bool := (r.get? l).isSome

/-- The slot after a slot in the order of the entries. After no slot comes the first one. -/
def after (r : Roster) : Option Nat → Option Nat
  | none => r.head
  | some index => r.slots[index]?.bind Slot.next

/-- The slot before a slot in the order of the entries. Before no slot comes the last one. -/
def before (r : Roster) : Option Nat → Option Nat
  | none => r.tail
  | some index => r.slots[index]?.bind Slot.prev

def first? (r : Roster) : Option Link := r.head.map r.linkAt

/-- The link of the entry after that of `l`. -/
def next? (r : Roster) (l : Link) : Option Link :=
  if r.contains l then (r.after (some l.index)).map r.linkAt else none

/-! ## Walking

A walk ends where a slot names no next one. Every slot has room for one entry, so as many steps as
there are slots are enough for all of them. -/

/-- The entries from a link on, found from link to link; at most `n` of them. -/
def entriesFrom (r : Roster) : Nat → Option Link → List (Link × Guid)
  | n + 1, some l =>
    match r.get? l with
    | some g => (l, g) :: r.entriesFrom n (r.next? l)
    | none => []
  | _, _ => []

/-- All entries with their links, in order. -/
def toList (r : Roster) : List (Link × Guid) := r.entriesFrom r.slots.size r.first?

/-- A walk over a roster: the slot it has come to, and how many entries it still counts on. -/
structure Walk where
  roster : Roster
  cursor : Option Nat
  remaining : Nat

def walk (r : Roster) : Walk := ⟨r, r.head, r.size⟩

/-- The guid the walk has come to, and the walk after it. -/
def Walk.next? (w : Walk) : Option (Guid × Walk) := do
  let index ← w.cursor
  let g ← w.roster.occupant? index
  return (g, { w with cursor := w.roster.after (some index), remaining := w.remaining - 1 })

/-- The first `n` guids of a walk, each with the number of entries that the walk counts on after
it. -/
def Walk.take : Nat → Walk → List (Guid × Nat)
  | 0, _ => []
  | n + 1, w =>
    match w.next? with
    | none => []
    | some (g, w) => (g, w.remaining) :: w.take n

def guids (r : Roster) : List Guid := (r.walk.take r.slots.size).map (·.1)

/-! ## Writing -/

def modifySlot (r : Roster) (index : Nat) (f : Slot → Slot) : Roster :=
  { r with slots := r.slots.modify index f }

/-- Makes `next` the slot after `index`. -/
def setAfter (r : Roster) (index next : Option Nat) : Roster :=
  match index with
  | none => { r with head := next }
  | some i => r.modifySlot i fun s => { s with next }

/-- Makes `prev` the slot before `index`. -/
def setBefore (r : Roster) (index prev : Option Nat) : Roster :=
  match index with
  | none => { r with tail := prev }
  | some i => r.modifySlot i fun s => { s with prev }

/-- Puts a guid into the slot given up last, or into a new one if none is empty. The slot comes
after the last one, which does not know of it yet. -/
def occupy (r : Roster) (g : Guid) : Nat × Roster :=
  match r.vacant with
  | index :: vacant =>
    (index, { r.modifySlot index fun s => ⟨some g, s.generation, r.tail, none⟩ with vacant })
  | [] => (r.slots.size, { r with slots := r.slots.push ⟨some g, 0, r.tail, none⟩ })

/-- Adds a guid at the end. -/
def insert (r : Roster) (g : Guid) : Link × Roster :=
  let (index, occupied) := r.occupy g
  let joined := (occupied.setAfter r.tail (some index)).setBefore none (some index)
  let new := { joined with size := r.size + 1 }
  (new.linkAt index, new)

/-- Gives up a slot. -/
def release (r : Roster) (index : Nat) : Roster :=
  { r.modifySlot index Slot.vacate with vacant := index :: r.vacant }

/-- Takes an entry out of its slot and gives the slot up. The slots around it are joined. -/
def detach (r : Roster) (index : Nat) : Roster :=
  let prev := r.before (some index)
  let next := r.after (some index)
  let joined := (r.setAfter prev next).setBefore next prev
  { joined.release index with size := r.size - 1 }

/-- Removes the entry behind a link, unless the link is stale. -/
def erase? (r : Roster) (l : Link) : Option Roster :=
  if r.contains l then some (r.detach l.index) else none

/-- Removes the entry behind a link, if there is one. -/
def erase (r : Roster) (l : Link) : Roster := (r.erase? l).getD r

/-- Gives up the slots from one on, `n` at most. -/
def releaseFrom (r : Roster) : Nat → Option Nat → Roster
  | n + 1, some index => (r.release index).releaseFrom n (r.after (some index))
  | _, _ => r

/-- Removes all entries. -/
def clear (r : Roster) : Roster :=
  { r.releaseFrom r.slots.size r.head with head := none, tail := none, size := 0 }

/-! ## Removals on the way -/

/-- Walks from link to link for at most `n` entries. The walk steps to the next link before it
removes the entry it stands on, which it does if `p` holds of its guid. The guids that it saw come
with what is left of the roster. -/
def sweepFrom (p : Guid → Bool) : Nat → Option Link → Roster → List Guid × Roster
  | n + 1, some l, r =>
    match r.get? l with
    | none => ([], r)
    | some g =>
      let next := r.next? l
      let (seen, r) := sweepFrom p n next (if p g then r.erase l else r)
      (g :: seen, r)
  | _, _, r => ([], r)

/-- Removes the guids of which `p` holds, in one walk. -/
def sweep (p : Guid → Bool) (r : Roster) : List Guid × Roster := sweepFrom p r.size r.first? r

/-- A summary of a roster of one kind: its size and how many slots it has made. -/
def summary (kind : Kind) (r : Roster) : String :=
  "GridRefManager \x7b kind: " ++ kind.name ++ ", len: " ++ toString r.size ++ ", capacity: " ++
    toString r.slots.size ++ " \x7d"

end Roster
end Realm
