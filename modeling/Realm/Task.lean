import Realm.Position
import Realm.Guid

/-! # Tasks for a map -/

namespace Realm

/-- What others ask of a map. -/
inductive Task where
  | add (guid : Guid) (position : Position) (scope : Scope)
  | remove (guid : Guid)
  | relocate (guid : Guid) (position : Position)
  deriving DecidableEq, Repr

def Task.guid : Task → Guid
  | .add g .. | .remove g | .relocate g _ => g

/-- Tasks in the order in which they came. -/
structure TaskQueue where
  tasks : Array Task := #[]
  deriving DecidableEq, Repr

namespace TaskQueue

instance : EmptyCollection TaskQueue := ⟨{}⟩

def toList (q : TaskQueue) : List Task := q.tasks.toList

def size (q : TaskQueue) : Nat := q.tasks.size

def isEmpty (q : TaskQueue) : Bool := q.tasks.isEmpty

def push (q : TaskQueue) (t : Task) : TaskQueue := ⟨q.tasks.push t⟩

/-- The first `n` tasks, or all if there are fewer, and the queue after them. -/
def popBatch (q : TaskQueue) (n : Nat) : List Task × TaskQueue :=
  (q.toList.take n, ⟨q.tasks.drop n⟩)

def pop? (q : TaskQueue) : Option (Task × TaskQueue) :=
  match q.popBatch 1 with
  | (t :: _, q) => some (t, q)
  | ([], _) => none

end TaskQueue
end Realm
