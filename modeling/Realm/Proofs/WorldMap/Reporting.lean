import Realm.Proofs.WorldMap.Reach

/-! # A map and its directory

A map passes its notes on to a directory, in which other maps register objects too. However their
notes come in between, it is listed under its own objects, once each. -/

namespace Realm

variable {g : Guid} {id id' : MapId}

/-! ## Notes and counts -/

namespace Directory

variable {d : Directory} {n : Note} {ns : List Note} {held held' : Bool}

/-- The object that a note is about. -/
def Note.guid : Note → Guid
  | .placed g => g
  | .gone g => g

theorem registrations_note_of_ne (h : g ≠ n.guid) :
    (d.note id n).registrations g = d.registrations g := by
  cases n with
  | placed g' => exact registrations_register.trans (if_neg h)
  | gone g' => exact registrations_unregister.trans (if_neg h)

theorem registrations_notes_of_ne (h : ∀ n ∈ ns, g ≠ n.guid) :
    (d.notes id ns).registrations g = d.registrations g := by
  induction ns generalizing d with
  | nil => rfl
  | cons n ns ih =>
    obtain ⟨hn, hns⟩ := List.forall_mem_cons.1 h
    exact (ih hns).trans (registrations_note_of_ne hn)

theorem count_note (n : Note) : ((d.note id n).registrations g).count id =
    n.call.tally g ((d.registrations g).count id) := by
  cases n with
  | placed g' => exact count_act_self (.register g')
  | gone g' =>
    rw [note, registrations_unregister, Note.call, Call.tally]
    split
    · rename_i hg
      rw [hg, List.count_erase_self]
    · rfl

theorem count_notes (ns : List Note) : ((d.notes id ns).registrations g).count id =
    (ns.map Note.call).foldl (Call.tally g) ((d.registrations g).count id) := by
  induction ns generalizing d with
  | nil => rfl
  | cons n ns ih =>
    rw [List.map_cons, List.foldl_cons, ← count_note]
    exact ih

/-- A note is about the registrations of one map. -/
theorem count_note_of_ne (h : id' ≠ id) (n : Note) :
    ((d.note id n).registrations g).count id' = (d.registrations g).count id' := by
  cases n with
  | placed g' => exact count_act_of_ne h (.register g')
  | gone g' =>
    rw [note, registrations_unregister]
    split
    · rename_i hg
      rw [hg, List.count_erase_of_ne h]
    · rfl

/-- Whoever keeps to the rules is listed once or not at all. -/
theorem tally_of_follow {calls : List Call} (h : follow g held calls = some held') :
    calls.foldl (Call.tally g) held.toNat = held'.toNat := by
  induction calls generalizing held with
  | nil =>
    cases h
    rfl
  | cons c calls ih =>
    obtain ⟨now, hc, hrest⟩ := Option.bind_eq_some_iff.1 h
    rw [List.foldl_cons, ← ih hrest]
    congr 1
    cases c with
    | register g' =>
      rw [Call.tally]
      rcases eq_or_ne g g' with rfl | hg
      · cases held <;> simp_all [Call.after]
      · simp_all [Call.after, hg.symm]
    | strike g' =>
      rw [Call.tally]
      rcases eq_or_ne g g' with rfl | hg
      · cases held <;> simp_all [Call.after]
      · simp_all [Call.after, hg.symm]
    | tidy g' =>
      cases hc
      rfl

end Directory

/-! ## Stations -/

/-- A map and the directory to which it passes its notes. -/
structure Station where
  map : WorldMap
  directory : Directory := ∅

namespace Station

variable {t : Station} {α : Type}

/-- An operation of the map has had this outcome. -/
def hear (t : Station) (o : Outcome α) : Station :=
  ⟨o.map, t.directory.notes t.map.id o.notes⟩

/-- How often the directory lists the map under a guid. -/
def listings (t : Station) (g : Guid) : Nat := (t.directory.registrations g).count t.map.id

/-- An operation of the map `id`, or a note that another map passes on. -/
inductive Event (id : MapId) where
  | own (op : WorldMap.Op)
  | other (id' : MapId) (ne : id' ≠ id) (n : Directory.Note)

def next (t : Station) : Event id → Station
  | .own op => t.hear (op.run t.map)
  | .other id' _ n => { t with directory := t.directory.note id' n }

def run (t : Station) (events : List (Event id)) : Station := events.foldl next t

/-- The map `id` is indexed, and listed under its objects, once each. -/
structure Settled (id : MapId) (t : Station) : Prop where
  id : t.map.id = id
  indexed : t.map.Indexed
  listings : ∀ g, t.listings g = (t.map.contains g).toNat

theorem settled_new (id : MapId) (config : MapConfig) : Settled id ⟨{ id, config }, ∅⟩ where
  id := rfl
  indexed := WorldMap.indexed_new id config
  listings g := by
    have hnone : WorldMap.contains { id, config } g = false := by
      rw [WorldMap.contains_eq_isSome]
      rfl
    rw [hnone]
    rfl

theorem listings_hear {o : Outcome α} (hid : o.map.id = t.map.id) (g : Guid) :
    (t.hear o).listings g = (o.notes.map Directory.Note.call).foldl (Directory.Call.tally g)
      (t.listings g) := by
  rw [listings, hear, hid]
  exact Directory.count_notes o.notes

theorem Settled.hear (h : Settled id t) {o : Outcome α} (ho : t.map.Follows o.map o.notes) :
    Settled id (t.hear o) where
  id := ho.id.trans h.id
  indexed := ho.indexed
  listings g := by
    rw [listings_hear ho.id, h.listings]
    exact Directory.tally_of_follow (ho.told g)

theorem Settled.next (h : Settled id t) (e : Event id) : Settled id (t.next e) := by
  cases e with
  | own op => exact h.hear (.run h.indexed op)
  | other id' ne n =>
    have hid : t.map.id ≠ id' := fun he => ne (he.symm.trans h.id)
    exact ⟨h.id, h.indexed, fun g => (Directory.count_note_of_ne hid n).trans (h.listings g)⟩

theorem Settled.run (h : Settled id t) (events : List (Event id)) : Settled id (t.run events) := by
  induction events generalizing t with
  | nil => exact h
  | cons e events ih => exact ih (h.next e)

end Station
end Realm
