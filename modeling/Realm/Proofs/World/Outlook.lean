import Realm.Proofs.World.Mirror
import Realm.Proofs.WorldMap.Tasks

/-! # Where objects will be

On every map an object is on its way to where the queued tasks lead it. A tick works queues off and
leaves the outlook alone; a teleport changes it on two maps at most. -/

namespace Realm

theorem Task.next_remove {g : Guid} {x : Option Spot} : (Task.remove g).next x = none := by
  cases x <;> rfl

theorem Task.isSome_next_relocate {g : Guid} {p : Position} {x : Option Spot} :
    ((Task.relocate g p).next x).isSome = x.isSome := by
  cases x with
  | none => rfl
  | some spot =>
    rw [next, effect]
    split <;> rfl

theorem Task.isSome_next_add {g : Guid} {p : Position} {s : Scope} {x : Option Spot}
    (hs : s.Holds g.kind) (hp : p.IsValid) : ((Task.add g p s).next x).isSome = true := by
  cases x with
  | none => rw [next, effect, if_pos ⟨hs, hp⟩]; rfl
  | some spot => rfl

namespace World

variable {w w' : World} {id id' source target : MapId} {m : WorldMap} {g : Guid} {t : Task}
  {p : Position} {s : Scope} {diff : Duration} {answers : List Bool}

def placement? (w : World) (id : MapId) (g : Guid) : Option Placement :=
  (w.map? id).bind (·.placement? g)

def spot? (w : World) (id : MapId) (g : Guid) : Option Spot := (w.map? id).bind (·.spot? g)

/-- Where an object is on a map once the map's queue is worked off. -/
def outlook? (w : World) (id : MapId) (g : Guid) : Option Spot :=
  (w.map? id).bind (·.outlook? g)

/-- No map has tasks to do. -/
def Idle (w : World) : Prop := ∀ m ∈ w.maps, m.queue.isEmpty = true

instance : Decidable w.Idle := inferInstanceAs (Decidable (∀ m ∈ w.maps, _))

theorem holds_eq_isSome_spot? (w : World) (id : MapId) (g : Guid) :
    w.holds id g = (w.spot? id g).isSome := by
  rw [holds, spot?]
  cases w.map? id with
  | none => rfl
  | some m => exact WorldMap.contains_eq_spot? m g

theorem spot?_eq_map (w : World) (id : MapId) (g : Guid) :
    w.spot? id g = (w.placement? id g).map Placement.spot := by
  rw [spot?, placement?]
  cases w.map? id <;> rfl

theorem Idle.outlook? (h : w.Idle) (id : MapId) (g : Guid) : w.outlook? id g = w.spot? id g := by
  rw [World.outlook?, spot?]
  cases hm : w.map? id with
  | none => rfl
  | some m => exact WorldMap.outlook?_of_isEmpty (h m (mem_of_map? hm)) g

theorem Mirrored.placement?_of_locate? (h : w.Mirrored) (hl : w.directory.locate? g = some id) :
    ∃ pl, w.placement? id g = some pl := by
  have hmem := (mem_holders h.ids).1 (h.mem_of_locate? hl)
  rw [holds_eq_isSome_spot?, spot?_eq_map, Option.isSome_map] at hmem
  exact Option.isSome_iff_exists.1 hmem

/-- The scope of a placement suits its object. -/
theorem Sound.held (h : w.Sound) {pl : Placement} (hp : w.placement? id g = some pl) :
    pl.scope.Holds g.kind := by
  obtain ⟨m, hm, hpl⟩ := Option.bind_eq_some_iff.1 hp
  obtain ⟨rfl, hfits⟩ := (h.indexed (mem_of_map? hm)).fits hpl
  exact hfits.held

/-! ## Ticks -/

theorem Sound.outlook?_tick (h : w.Sound) (diff : Duration) (id : MapId) (g : Guid) :
    (w.tick diff).2.outlook? id g = w.outlook? id g := by
  rw [World.outlook?, World.outlook?, h.map?_tick]
  cases hm : w.map? id with
  | none => rfl
  | some m => exact (h.indexed (mem_of_map? hm)).outlook?_update diff g

theorem Ticks.map? (ht : w.Ticks diff answers w') (id : MapId) :
    w'.map? id = (w.tick diff).2.map? id := by
  obtain ⟨d, -, rfl⟩ := ht
  rfl

theorem Ticks.maps (ht : w.Ticks diff answers w') :
    w'.maps = w.maps.map fun m => (m.update diff).1 := by
  obtain ⟨d, -, rfl⟩ := ht
  exact maps_tick w diff

theorem Ticks.outlook? (ht : w.Ticks diff answers w') (h : w.Sound) (id : MapId) (g : Guid) :
    w'.outlook? id g = w.outlook? id g := by
  rw [World.outlook?, ht.map?, ← World.outlook?, h.outlook?_tick]

/-! ## Posts -/

theorem outlook?_post (h : w.post id t = .ok w') (id' : MapId) (g : Guid) : w'.outlook? id' g =
    if id' = id ∧ t.guid = g then t.next (w.outlook? id' g) else w.outlook? id' g := by
  obtain ⟨m, hm, rfl⟩ := post_eq_ok h
  rw [outlook?, outlook?, map?_setMap_self hm (m.enqueue t) rfl]
  rcases eq_or_ne id' id with rfl | he
  · rw [if_pos rfl, hm]
    simp only [Option.bind_some, WorldMap.outlook?_enqueue, true_and]
  · rw [if_neg he, if_neg fun hc => he hc.1]

theorem placement?_post (h : w.post id t = .ok w') (id' : MapId) (g : Guid) :
    w'.placement? id' g = w.placement? id' g := by
  obtain ⟨m, hm, rfl⟩ := post_eq_ok h
  rw [placement?, placement?, map?_setMap_self hm (m.enqueue t) rfl]
  split
  · rename_i he
    rw [he, hm]
    rfl
  · rfl

theorem isSome_map?_post (h : w.post id t = .ok w') (id' : MapId) :
    (w'.map? id').isSome = (w.map? id').isSome := by
  obtain ⟨m, hm, rfl⟩ := post_eq_ok h
  rw [map?_setMap_self hm (m.enqueue t) rfl]
  split
  · rename_i he
    rw [he, hm]
    rfl
  · rfl

theorem post_of_isSome (h : (w.map? id).isSome) (t : Task) : ∃ w', w.post id t = .ok w' := by
  obtain ⟨m, hm⟩ := Option.isSome_iff_exists.1 h
  exact ⟨_, by rw [post, hm]⟩

theorem transfers_post (h : w.post id t = .ok w') : w'.transfers = w.transfers := by
  obtain ⟨m, -, rfl⟩ := post_eq_ok h
  rfl

theorem directory_post (h : w.post id t = .ok w') : w'.directory = w.directory := by
  obtain ⟨m, -, rfl⟩ := post_eq_ok h
  rfl

/-! ## Teleports -/

theorem origin_eq (w : World) (g : Guid) : w.origin g =
    match w.transfers[g]? with
    | some t => .ok (t.map, t.scope)
    | none =>
      match w.directory.locate? g with
      | none => .error (.stale g .notInWorld)
      | some id => .ok (id, ((w.placement? id g).map (·.scope)).getD .world) := rfl

/-- The tables that a teleport reads are left as they are, but for the record of the object. -/
structure Queues (w w' : World) (g : Guid) : Prop where
  placement? : ∀ id g', w'.placement? id g' = w.placement? id g'
  directory : w'.directory = w.directory
  transfers : ∀ g', g' ≠ g → w'.transfers[g']? = w.transfers[g']?

theorem Queues.origin (h : w.Queues w' g) {g' : Guid}
    (ht : w'.transfers[g']? = w.transfers[g']?) : w'.origin g' = w.origin g' := by
  rw [origin_eq, origin_eq, ht, h.directory]
  cases w.transfers[g']? with
  | some t => rfl
  | none =>
    cases w.directory.locate? g' with
    | none => rfl
    | some id => simp only [h.placement?]

theorem Queues.post (h : w.post id t = .ok w') (g : Guid) : w.Queues w' g :=
  ⟨placement?_post h, directory_post h, fun g' _ => by rw [transfers_post h]⟩

theorem Queues.trans {w₁ w₂ : World} (h : w.Queues w₁ g) (h' : w₁.Queues w₂ g) :
    w.Queues w₂ g where
  placement? id g' := (h'.placement? id g').trans (h.placement? id g')
  directory := h'.directory.trans h.directory
  transfers g' hg := (h'.transfers g' hg).trans (h.transfers g' hg)

theorem getElem?_insert_transfers (table : GuidTable Transfer) (r : Transfer) (g' : Guid) :
    (table.insert g r)[g']? = if g' = g then some r else table[g']? := by
  rw [Std.ExtTreeMap.getElem?_insert]
  simp only [Std.LawfulEqCmp.compare_eq_iff_eq, eq_comm (a := g')]

theorem Queues.record (h : w.Queues w' g) (r : Transfer) :
    w.Queues { w' with transfers := w'.transfers.insert g r } g where
  placement? := h.placement?
  directory := h.directory
  transfers g' hg := by
    simp only [getElem?_insert_transfers, if_neg hg]
    exact h.transfers g' hg

/-- What a teleport does to the outlook of its object. -/
def redirect (g : Guid) (source target : MapId) (p : Position) (s : Scope)
    (outlook : MapId → Option Spot) (id : MapId) : Option Spot :=
  if source = target then
    if id = target then (Task.relocate g p).next (outlook id) else outlook id
  else if id = target then (Task.add g p s).next (outlook id)
  else if id = source then none else outlook id

/-- `w'` has come from `w` by an accepted teleport of an object of scope `s`: it is led on from its
origin, and no other object is touched. -/
structure Redirected (w w' : World) (g : Guid) (source target : MapId) (p : Position)
    (s : Scope) : Prop extends Queues w w' g where
  valid : p.IsValid
  origin : w.origin g = .ok (source, s)
  transfer : w'.transfers[g]? = if source = target then w.transfers[g]? else some ⟨target, s⟩
  outlook : ∀ id, w'.outlook? id g = redirect g source target p s (w.outlook? · g) id
  others : ∀ id g', g' ≠ g → w'.outlook? id g' = w.outlook? id g'

/-- The next teleport takes the object from the target, whether it was recorded there or not. -/
theorem Redirected.origin_self (h : w.Redirected w' g source target p s) :
    w'.origin g = .ok (target, s) := by
  rcases eq_or_ne source target with rfl | hne
  · rw [h.toQueues.origin (by rw [h.transfer, if_pos rfl]), h.origin]
  · rw [origin_eq, h.transfer, if_neg hne]

theorem Redirected.origin_other {g' : Guid} (h : w.Redirected w' g source target p s)
    (hg : g' ≠ g) : w'.origin g' = w.origin g' :=
  h.toQueues.origin (h.transfers g' hg)

theorem Redirected.within (hp : p.IsValid) (ho : w.origin g = .ok (target, s))
    (hpost : w.post target (.relocate g p) = .ok w') :
    w.Redirected w' g target target p s where
  toQueues := .post hpost g
  valid := hp
  origin := ho
  transfer := by rw [if_pos rfl, transfers_post hpost]
  outlook id := by
    rw [outlook?_post hpost, redirect, if_pos rfl]
    simp only [Task.guid, and_true]
  others id g' hg := by rw [outlook?_post hpost, if_neg fun hc => hg hc.2.symm]

theorem Redirected.across {w₁ : World} (hp : p.IsValid) (ho : w.origin g = .ok (source, s))
    (hne : source ≠ target) (hpost₁ : w.post source (.remove g) = .ok w₁)
    (hpost₂ : w₁.post target (.add g p s) = .ok w') :
    w.Redirected { w' with transfers := w'.transfers.insert g ⟨target, s⟩ }
      g source target p s where
  toQueues := ((Queues.post hpost₁ g).trans (.post hpost₂ g)).record ⟨target, s⟩
  valid := hp
  origin := ho
  transfer := by simp only [getElem?_insert_transfers, if_true, if_neg hne]
  outlook id := by
    change w'.outlook? id g = _
    rw [outlook?_post hpost₂, outlook?_post hpost₁, redirect, if_neg hne]
    simp only [Task.guid, and_true]
    split
    · rename_i hid
      rw [if_neg fun he => hne (he.symm.trans hid)]
    · split
      · exact Task.next_remove
      · rfl
  others id g' hg := by
    change w'.outlook? id g' = _
    rw [outlook?_post hpost₂, if_neg fun hc => hg hc.2.symm, outlook?_post hpost₁,
      if_neg fun hc => hg hc.2.symm]

/-- A teleport that is accepted leads its object on from its origin and touches no other object. -/
theorem teleport_spec (h : w.teleport g target p = .ok w') :
    ∃ source s, w.Redirected w' g source target p s := by
  obtain ⟨hp, source, s, ho, ⟨rfl, hpost⟩ | ⟨hne, w₁, w₂, hpost₁, hpost₂, rfl⟩⟩ := teleport_eq_ok h
  · exact ⟨source, s, .within hp ho hpost⟩
  · exact ⟨source, s, .across hp ho hne hpost₁ hpost₂⟩

/-- A call of teleport. -/
structure Jump where
  guid : Guid
  target : MapId
  position : Position
  deriving DecidableEq, Repr

/-- A call that is refused changes nothing. -/
def attempt (w : World) (j : Jump) : World :=
  match w.teleport j.guid j.target j.position with
  | .ok w => w
  | .error _ => w

theorem attempt_of_ok {j : Jump} (h : w.teleport j.guid j.target j.position = .ok w') :
    w.attempt j = w' := by
  rw [attempt, h]

theorem attempt_of_error {j : Jump} {f : Fault}
    (h : w.teleport j.guid j.target j.position = .error f) : w.attempt j = w := by
  rw [attempt, h]

theorem teleport_attempt {j : Jump}
    (h : (w.teleport j.guid j.target j.position).isOk = true) :
    w.teleport j.guid j.target j.position = .ok (w.attempt j) := by
  cases ht : w.teleport j.guid j.target j.position with
  | error f => rw [ht] at h; exact nomatch h
  | ok w' => rw [attempt_of_ok ht]

end World
end Realm
