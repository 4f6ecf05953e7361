import Realm.Fault
import Std.Data.ExtTreeMap

/-! # The directory

For each guid, the maps that have registered it and not yet taken the registration back, the latest
one last. -/

namespace Realm

namespace Guid

instance : Std.TransCmp Guid.compare :=
  inferInstanceAs (Std.TransCmp (compareLex (compareOn fun g : Guid => g.kind.rank)
    (compareOn fun g : Guid => g.counter.toNat)))

instance : Std.LawfulEqCmp Guid.compare where
  eq_of_compare {a b} h := by
    obtain ⟨hk, hc⟩ := (Ordering.then_eq_eq).1 h
    obtain ⟨ka, ca⟩ := a
    obtain ⟨kb, cb⟩ := b
    cases Kind.rank_injective (Std.LawfulEqCmp.eq_of_compare hk)
    cases UInt64.toNat_inj.1 (Std.LawfulEqCmp.eq_of_compare hc)
    rfl

end Guid

/-- A table with guids as keys. -/
abbrev GuidTable (α : Type) := Std.ExtTreeMap Guid α Guid.compare

structure Directory where
  entries : GuidTable (List MapId) := ∅

namespace Directory

instance : EmptyCollection Directory := ⟨{}⟩

/-! ## Reading -/

def registrations (d : Directory) (g : Guid) : List MapId := d.entries[g]?.getD []

/-- The map that registered a guid last. -/
def locate? (d : Directory) (g : Guid) : Option MapId := (d.registrations g).getLast?

def countOn (d : Directory) (m : MapId) : Nat :=
  (d.entries.toList.filter fun e => e.2.contains m).length

def size (d : Directory) : Nat := d.entries.size

def isEmpty (d : Directory) : Bool := d.entries.isEmpty

/-! ## Writing -/

def register (d : Directory) (g : Guid) (m : MapId) : Directory :=
  ⟨d.entries.insert g (d.registrations g ++ [m])⟩

/-- Takes back the oldest registration of a guid by a map. An entry without registrations stays. -/
def strike (d : Directory) (g : Guid) (m : MapId) : Directory :=
  if m ∈ d.registrations g then ⟨d.entries.insert g ((d.registrations g).erase m)⟩ else d

/-- Drops the entry of a guid if it has no registrations left. -/
def tidy (d : Directory) (g : Guid) : Directory :=
  if d.entries[g]? = some [] then ⟨d.entries.erase g⟩ else d

/-- Takes back one registration of a guid by a map. The other maps' registrations stay. -/
def unregister (d : Directory) (g : Guid) (m : MapId) : Directory :=
  if m ∈ d.registrations g then (d.strike g m).tidy g else d

/-! ## Notes -/

/-- What a map has to tell the directory. -/
inductive Note where
  | placed (guid : Guid)
  | gone (guid : Guid)
  deriving DecidableEq, Repr

def note (d : Directory) (m : MapId) : Note → Directory
  | .placed g => d.register g m
  | .gone g => d.unregister g m

def notes (d : Directory) (m : MapId) (ns : List Note) : Directory := ns.foldl (·.note m) d

end Directory
end Realm
