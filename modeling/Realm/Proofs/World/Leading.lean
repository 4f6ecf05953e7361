import Realm.Proofs.World.Outlook

/-! # Worlds whose queues lead objects

Who alone posts tasks to a world may keep books of where each object will be. As long as the books
are right, no task is refused, and a tick that works the queues off brings every object there. -/

namespace Realm.World

open Realm.Task (Smooth)

variable {w w' : World} {id target : MapId} {g : Guid} {t : Task} {p q : Position} {s : Scope}
  {diff : Duration} {answers : List Bool} {d : MapId × Spot} {dest : Guid → Option (MapId × Spot)}

/-! ## Destinations -/

/-- What a map sees of an object that has a destination. -/
def seenOn (id : MapId) (d : Option (MapId × Spot)) : Option Spot :=
  d.bind fun d => if d.1 = id then some d.2 else none

theorem seenOn_eq_some {x : Option (MapId × Spot)} {spot : Spot} :
    seenOn id x = some spot ↔ x = some (id, spot) := by
  cases x with
  | none => simp [seenOn]
  | some d =>
    obtain ⟨home, spot'⟩ := d
    simp [seenOn, Option.ite_none_right_eq_some]

/-- An object that only its source sees is seen by the target alone. -/
theorem redirect_seenOn {source : MapId} (hp : p.IsValid) (hs : s.Holds g.kind) (id : MapId) :
    redirect g source target p s (fun id => seenOn id (some (source, ⟨s, q⟩))) id =
      seenOn id (some (target, ⟨s, p⟩)) := by
  unfold redirect seenOn
  rcases eq_or_ne source target with rfl | hst
  · by_cases hid : id = source
    · simp [hid, Task.next, Task.effect, hp]
    · simp [hid, Ne.symm hid]
  · rcases eq_or_ne id target with rfl | hid
    · simp [hst, Task.next, Task.effect, hp, hs]
    · rcases eq_or_ne id source with rfl | his
      · simp [hst, Ne.symm hst]
      · simp [hst, hid, Ne.symm hid, his, Ne.symm his]

/-- An object with a destination is there and nowhere else. -/
theorem holders_of_seenOn (hw : (w.maps.map (·.id)).Nodup) {d : Option (MapId × Spot)}
    (h : ∀ id, w.spot? id g = seenOn id d) : w.holders g = (d.map (·.1)).toList := by
  have hmem (id : MapId) : id ∈ w.holders g ↔ (seenOn id d).isSome := by
    rw [mem_holders hw, holds_eq_isSome_spot?, h]
  cases d with
  | none =>
    rw [Option.map_none, Option.toList_none, List.eq_nil_iff_forall_not_mem]
    intro id hid
    exact nomatch (hmem id).1 hid
  | some d =>
    refine List.perm_singleton.1 ((List.perm_ext_iff_of_nodup (nodup_holders hw)
      (List.nodup_singleton d.1)).2 fun id => ?_)
    rw [hmem, List.mem_singleton, seenOn, Option.bind_some]
    split
    · rename_i he; simp [he]
    · rename_i he; simp [Ne.symm he]

/-! ## Tasks that will be accepted -/

/-- No task in any queue will be refused. -/
def Smoothly (w : World) : Prop :=
  ∀ id m, w.map? id = some m → ∀ g, Smooth g (m.spot? g) m.queue.toList

theorem Smoothly.of_idle (h : w.Idle) : w.Smoothly := by
  intro id m hm g
  rw [TaskQueue.isEmpty_iff.1 (h m (mem_of_map? hm))]
  trivial

theorem Smoothly.post (h : w.Smoothly) (hp : w.post id t = .ok w')
    (he : (t.effect (w.outlook? id t.guid)).isSome) : w'.Smoothly := by
  obtain ⟨m, hm, rfl⟩ := post_eq_ok hp
  intro id' m' hm' g
  rw [map?_setMap_self hm (m.enqueue t) rfl] at hm'
  split at hm'
  · cases hm'
    have hqueue : (m.enqueue t).queue.toList = m.queue.toList ++ [t] := Array.toList_push
    rw [hqueue]
    refine (h id m hm g).append ?_
    rw [World.outlook?, hm] at he
    rw [Smooth]
    split
    · rename_i hg
      subst hg
      exact ⟨he, trivial⟩
    · trivial
  · exact h id' m' hm' g

/-! ## Leading -/

/-- The queues lead every object to where `dest` says, by tasks of which none will be refused, and
a teleport takes it from there. -/
structure Leads (w : World) (dest : Guid → Option (MapId × Spot)) : Prop where
  mirrored : w.Mirrored
  outlook : ∀ id g, w.outlook? id g = seenOn id (dest g)
  smoothly : w.Smoothly
  origin : ∀ {g : Guid} {id : MapId} {s : Scope}, w.origin g = .ok (id, s) →
    ∃ p, dest g = some (id, ⟨s, p⟩)
  held : ∀ {g : Guid} {d : MapId × Spot}, dest g = some d → d.2.scope.Holds g.kind

theorem Leads.outlook_self (h : w.Leads dest) (hd : dest g = some d) :
    w.outlook? d.1 g = some d.2 := by
  rw [h.outlook, seenOn_eq_some, hd]

/-- Objects keep scopes for their kinds when one of them gets a destination of that sort. -/
theorem Leads.held_update (h : w.Leads dest) (hd : d.2.scope.Holds g.kind) {g' : Guid}
    {d' : MapId × Spot} (hd' : Function.update dest g (some d) g' = some d') :
    d'.2.scope.Holds g'.kind := by
  rcases eq_or_ne g' g with rfl | hg
  · rw [Function.update_self] at hd'
    cases hd'
    exact hd
  · rw [Function.update_of_ne hg] at hd'
    exact h.held hd'

/-- A world at rest leads objects to where they are. -/
theorem Leads.of_idle (hm : w.Mirrored) (hidle : w.Idle) (hfree : w.transfers = ∅)
    (hspot : ∀ id g, w.spot? id g = seenOn id (dest g)) : w.Leads dest where
  mirrored := hm
  outlook id g := by rw [hidle.outlook?, hspot]
  smoothly := .of_idle hidle
  origin {g id s} ho := by
    have hnone : w.transfers[g]? = none := by rw [hfree]; simp
    rw [origin_eq, hnone] at ho
    cases hl : w.directory.locate? g with
    | none => rw [hl] at ho; exact nomatch ho
    | some home =>
      obtain ⟨pl, hpl⟩ := hm.placement?_of_locate? hl
      simp only [hl, hpl] at ho
      cases ho
      refine ⟨pl.position, seenOn_eq_some.1 ?_⟩
      rw [← hspot, spot?_eq_map, hpl]
      rfl
  held {g d} hd := by
    have hseen : w.spot? d.1 g = some d.2 := by rw [hspot, seenOn_eq_some, hd]
    rw [spot?_eq_map] at hseen
    obtain ⟨pl, hpl, hspot⟩ := Option.map_eq_some_iff.1 hseen
    rw [← hspot]
    exact hm.held hpl

/-- A new world leads nothing. -/
theorem Leads.new {c : Config} (h : ofConfig c = .ok w) : w.Leads fun _ => none := by
  have hmirrored := Mirrored.new h
  obtain ⟨-, rfl⟩ := ofConfig_eq_ok h
  refine .of_idle hmirrored (fun m hm => ?_) rfl fun id g => ?_
  · obtain ⟨id, -, rfl⟩ := List.mem_map.1 hm
    rfl
  · refine Option.bind_eq_none_iff.2 fun m hm => ?_
    obtain ⟨id, -, rfl⟩ := List.mem_map.1 (mem_of_map? hm)
    simp [WorldMap.spot?, WorldMap.placement?]

/-! ## Posts and teleports -/

/-- A task that will be accepted leads its object to where it says. -/
theorem Leads.post (h : w.Leads dest) (hpost : w.post id t = .ok w')
    (haccepted : (t.effect (w.outlook? id t.guid)).isSome)
    (hseen : ∀ id', seenOn id' (some d) =
      if id' = id then t.next (seenOn id' (dest t.guid)) else seenOn id' (dest t.guid))
    (horigin : ∀ {id s}, w.origin t.guid = .ok (id, s) → d.1 = id ∧ d.2.scope = s)
    (hheld : d.2.scope.Holds t.guid.kind) :
    w'.Leads (Function.update dest t.guid (some d)) where
  mirrored := h.mirrored.post hpost
  outlook id' g := by
    rw [outlook?_post hpost, h.outlook]
    rcases eq_or_ne g t.guid with rfl | hg
    · simp only [Function.update_self, hseen, and_true]
    · rw [Function.update_of_ne hg, if_neg fun hc => hg hc.2.symm]
  smoothly := h.smoothly.post hpost haccepted
  origin {g id' s'} ho := by
    rw [(Queues.post hpost g).origin (by rw [transfers_post hpost])] at ho
    rcases eq_or_ne g t.guid with rfl | hg
    · obtain ⟨rfl, rfl⟩ := horigin ho
      exact ⟨d.2.position, by rw [Function.update_self]⟩
    · rw [Function.update_of_ne hg]
      exact h.origin ho
  held := h.held_update hheld

/-- An object that is nowhere comes to a map. -/
theorem Leads.add (h : w.Leads dest) (hpost : w.post id (.add g p s) = .ok w')
    (hnone : dest g = none) (hs : s.Holds g.kind) (hp : p.IsValid) :
    w'.Leads (Function.update dest g (some (id, ⟨s, p⟩))) := by
  have hunseen (id : MapId) : seenOn id (dest g) = none := by rw [hnone]; rfl
  refine h.post (t := .add g p s) hpost ?_ (fun id' => ?_) (fun ho => ?_) hs
  · simp [Task.guid, Task.effect, h.outlook, hunseen, hs, hp]
  · rw [Task.guid, hunseen]
    simp [Task.next, Task.effect, hs, hp, seenOn, eq_comm (a := id)]
  · obtain ⟨_, hd⟩ := h.origin ho
    rw [Task.guid, hnone] at hd
    cases hd

/-- An object moves where it is. -/
theorem Leads.relocate (h : w.Leads dest) (hpost : w.post id (.relocate g p) = .ok w')
    (hd : dest g = some (id, ⟨s, q⟩)) (hp : p.IsValid) :
    w'.Leads (Function.update dest g (some (id, ⟨s, p⟩))) := by
  have hs : s.Holds g.kind := h.held hd
  refine h.post (t := .relocate g p) hpost ?_ (fun id' => ?_) (fun ho => ?_) hs
  · have hself : w.outlook? id g = some ⟨s, q⟩ := h.outlook_self hd
    simp [Task.guid, Task.effect, hself, hp]
  · have hmove : redirect g id id p s (fun id' => seenOn id' (some (id, ⟨s, q⟩))) id' = _ :=
      redirect_seenOn hp hs id'
    rw [redirect, if_pos rfl] at hmove
    rw [← hmove, Task.guid, hd]
  · obtain ⟨_, hd'⟩ := h.origin ho
    rw [Task.guid, hd] at hd'
    cases hd'
    exact ⟨rfl, rfl⟩

/-- The tasks of an accepted teleport will be accepted too: the origin has the object once its queue
is worked off, and the target has not. -/
theorem Leads.smoothly_teleport (h : w.Leads dest) (ht : w.teleport g target p = .ok w') :
    w'.Smoothly := by
  obtain ⟨hp, source, s, ho, hcase⟩ := teleport_eq_ok ht
  obtain ⟨q, hq⟩ := h.origin ho
  have hsource : w.outlook? source g = some ⟨s, q⟩ := h.outlook_self hq
  rcases hcase with ⟨rfl, hpost⟩ | ⟨hst, w₁, w₂, hpost₁, hpost₂, rfl⟩
  · refine h.smoothly.post hpost ?_
    simp only [Task.guid, hsource, Task.effect, if_pos hp, Option.isSome_some]
  · have htarget : w₁.outlook? target g = none := by
      rw [outlook?_post hpost₁, if_neg fun hc => hst hc.1.symm, h.outlook, hq]
      simp [seenOn, hst]
    have hfirst : w₁.Smoothly := by
      refine h.smoothly.post hpost₁ ?_
      simp only [Task.guid, hsource, Task.effect, Option.isSome_some]
    have hsecond : w₂.Smoothly := by
      refine hfirst.post hpost₂ ?_
      simp only [Task.guid, htarget, Task.effect, if_pos (And.intro (h.held hq) hp),
        Option.isSome_some]
    exact hsecond

/-- An accepted teleport gives its object a new destination. -/
theorem Leads.teleport (h : w.Leads dest) (ht : w.teleport g target p = .ok w') :
    ∃ source s q, dest g = some (source, ⟨s, q⟩) ∧
      w'.Leads (Function.update dest g (some (target, ⟨s, p⟩))) := by
  obtain ⟨source, s, hred⟩ := teleport_spec ht
  obtain ⟨q, hq⟩ := h.origin hred.origin
  have hs : s.Holds g.kind := h.held hq
  refine ⟨source, s, q, hq, h.mirrored.teleport ht, fun id g' => ?_, h.smoothly_teleport ht, ?_,
    h.held_update hs⟩
  · rcases eq_or_ne g' g with rfl | hg
    · simp only [Function.update_self, hred.outlook, h.outlook, hq]
      exact redirect_seenOn hred.valid hs id
    · rw [hred.others id g' hg, Function.update_of_ne hg, h.outlook]
  · intro g' id s' ho
    rcases eq_or_ne g' g with rfl | hg
    · rw [hred.origin_self] at ho
      cases ho
      exact ⟨p, Function.update_self ..⟩
    · rw [hred.origin_other hg] at ho
      rw [Function.update_of_ne hg]
      exact h.origin ho

/-! ## Ticks -/

/-- No queue is longer than one update works off. -/
def Fits (w : World) : Prop := ∀ m ∈ w.maps, m.queue.size ≤ m.config.maxTasks.toNat

instance : Decidable w.Fits := inferInstanceAs (Decidable (∀ m ∈ w.maps, _))

theorem stats_tick (w : World) (diff : Duration) :
    (w.tick diff).1.maps = w.maps.map fun m => (m.update diff).2.1 :=
  List.map_map

theorem Leads.rejected (h : w.Leads dest) (hfit : w.Fits) (diff : Duration) :
    ∀ stats ∈ (w.tick diff).1.maps, stats.rejected = 0 := by
  intro stats hstats
  rw [stats_tick, List.mem_map] at hstats
  obtain ⟨m, hm, rfl⟩ := hstats
  refine ((h.mirrored.indexed hm).updated diff).rejected fun g => ?_
  rw [(WorldMap.batch_of_fits (hfit m hm)).1]
  exact h.smoothly m.id m (map?_of_mem h.mirrored.ids hm) g

/-- A tick works off queues that are not too long. -/
theorem Ticks.idle (ht : w.Ticks diff answers w') (h : w.Sound) (hfit : w.Fits) : w'.Idle := by
  intro m' hm'
  rw [ht.maps, List.mem_map] at hm'
  obtain ⟨m, hm, rfl⟩ := hm'
  rw [((h.indexed hm).updated diff).queue]
  exact (WorldMap.batch_of_fits (hfit m hm)).2

theorem Idle.pending (h : w.Idle) (id : MapId) : w.pending id = 0 := by
  rw [World.pending]
  cases hm : w.map? id with
  | none => rfl
  | some m =>
    have hempty := TaskQueue.isEmpty_iff.1 (h m (mem_of_map? hm))
    exact congrArg List.length hempty

theorem transfers_tick (ht : w.Ticks diff answers w') (hidle : w'.Idle) : w'.transfers = ∅ := by
  obtain ⟨d, -, rfl⟩ := ht
  apply Std.ExtTreeMap.ext_getElem?
  intro g
  have hpending (id : MapId) : World.pending { (w.tick diff).2 with directory := d } id = 0 :=
    Idle.pending hidle id
  change (w.transfers.filter fun _ r =>
    decide (0 < World.pending { (w.tick diff).2 with directory := d } r.map))[g]? = _
  simp [hpending]

/-- A tick that works the queues off brings every object to its destination. -/
theorem Leads.spot? (h : w.Leads dest) (hfit : w.Fits) (ht : w.Ticks diff answers w') (id : MapId)
    (g : Guid) : w'.spot? id g = seenOn id (dest g) := by
  rw [← (ht.idle h.mirrored.toSound hfit).outlook?, ht.outlook? h.mirrored.toSound, h.outlook]

theorem Leads.tick (h : w.Leads dest) (hfit : w.Fits) (ht : w.Ticks diff answers w') :
    w'.Leads dest := by
  have hidle := ht.idle h.mirrored.toSound hfit
  exact .of_idle (h.mirrored.tick ht).1 hidle (transfers_tick ht hidle) (h.spot? hfit ht)

end Realm.World
