import Mathlib.Data.List.Dedup
import Realm.Proofs.World.Maps

/-! # The directory mirrors the maps

A world runs by posts, teleports, ticks and operations on single maps. In a tick the maps work on
the directory in any order. Whatever happens, the directory lists a map under a guid exactly when
the map holds it. -/

namespace Realm.World

open Directory (Call Interleaved Mirrors)

variable {w w' : World} {id : MapId} {m : WorldMap} {g : Guid} {diff : Duration}
  {answers : List Bool} {d : Directory}

/-! ## Steps -/

/-- The calls that one map makes while the others are at rest. -/
def callsOf (id : MapId) (notes : List Directory.Note) : MapId → List Call :=
  Function.update (fun _ => []) id (notes.map (·.call))

/-- The calls that each map makes in a tick. -/
def work (w : World) (diff : Duration) (id : MapId) : List Call :=
  ((w.map? id).map fun m => (m.update diff).2.2.map (·.call)).getD []

/-- `w'` has come from `w` by a tick in which the maps reached the directory in some order, and
`answers` tell whether each registration to be taken back was there. -/
def Ticks (w : World) (diff : Duration) (answers : List Bool) (w' : World) : Prop :=
  ∃ d, Interleaved w.directory (w.work diff) answers d ∧
    w' = { (w.tick diff).2 with directory := d }

/-- One step of a world, with the answers of the directory. -/
inductive Step : World → List Bool → World → Prop
  | post {w w' : World} {id : MapId} {t : Task} (h : w.post id t = .ok w') : Step w [] w'
  | teleport {w w' : World} {g : Guid} {target : MapId} {p : Position}
      (h : w.teleport g target p = .ok w') : Step w [] w'
  | onMap {w : World} {id : MapId} {m : WorldMap} {op : WorldMap.Op} {answers : List Bool}
      {d : Directory} (hm : w.map? id = some m)
      (hd : Interleaved w.directory (callsOf m.id (op.run m).notes) answers d) :
      Step w answers { w.setMap (op.run m).map with directory := d }
  | tick {w w' : World} {diff : Duration} {answers : List Bool} (h : w.Ticks diff answers w') :
      Step w answers w'

/-- The worlds that a configuration can lead to. -/
inductive Reachable (c : Config) : World → Prop
  | new {w : World} (h : ofConfig c = .ok w) : Reachable c w
  | step {w w' : World} {answers : List Bool} (h : Reachable c w) (next : Step w answers w') :
      Reachable c w'

/-! ## The invariant -/

/-- Every map is indexed and has its own number and the common settings. -/
structure Sound (w : World) : Prop where
  ids : (w.maps.map (·.id)).Nodup
  indexed : ∀ {m : WorldMap}, m ∈ w.maps → m.Indexed
  config : ∀ {m : WorldMap}, m ∈ w.maps → m.config = w.config.maps

/-- The directory is at rest and lists what the maps hold. -/
structure Mirrored (w : World) : Prop extends Sound w where
  mirrors : w.directory.Mirrors (fun _ => []) w.holds

/-- A map is put in place of one with the same number. -/
theorem Sound.setMap (h : w.Sound) (hm : m.Indexed) (hc : m.config = w.config.maps) :
    (w.setMap m).Sound where
  ids := by rw [ids_setMap]; exact h.ids
  indexed hx := (mem_setMap hx).elim (fun e => e ▸ hm) h.indexed
  config hx := (mem_setMap hx).elim (fun e => e ▸ hc) h.config

theorem Sound.update (h : w.Sound) (hm : m ∈ w.maps) (diff : Duration) :
    m.Follows (m.update diff).1 (m.update diff).2.2 :=
  .update (h.indexed hm) diff

theorem Sound.map?_tick (h : w.Sound) (diff : Duration) (id : MapId) :
    (w.tick diff).2.map? id = (w.map? id).map fun m => (m.update diff).1 :=
  World.map?_tick fun _ hm => (h.update hm diff).id

theorem Sound.tick (h : w.Sound) (diff : Duration) : (w.tick diff).2.Sound where
  ids := by
    have hids : (w.tick diff).2.maps.map (·.id) = w.maps.map (·.id) := by
      rw [maps_tick, List.map_map]
      exact List.map_congr_left fun m hm => (h.update hm diff).id
    rw [hids]
    exact h.ids
  indexed hx := by
    rw [maps_tick, List.mem_map] at hx
    obtain ⟨m, hm, rfl⟩ := hx
    exact (h.update hm diff).indexed
  config hx := by
    rw [maps_tick, List.mem_map] at hx
    obtain ⟨m, hm, rfl⟩ := hx
    exact (h.update hm diff).config.trans (h.config hm)

/-! ## New worlds -/

theorem validate_eq_ok {c : Config} (h : c.validate = .ok ()) : c.mapIds ≠ [] ∧ c.mapIds.Nodup := by
  rw [Config.validate] at h
  split at h
  · exact nomatch h
  split at h
  · exact nomatch h
  rename_i hne
  split at h
  · exact nomatch h
  rename_i hn
  exact ⟨hne, not_not.1 hn⟩

theorem ofConfig_eq_ok {c : Config} (h : ofConfig c = .ok w) : c.validate = .ok () ∧
    w = { config := c, maps := c.mapIds.map fun id => { id, config := c.maps } } := by
  cases hv : c.validate with
  | error f => simp [ofConfig, hv, Except.mapError, bind, Except.bind] at h
  | ok u =>
    simp only [ofConfig, hv, Except.mapError, bind, Except.bind, pure, Except.pure,
      Except.ok.injEq] at h
    exact ⟨rfl, h.symm⟩

theorem Mirrored.new {c : Config} (h : ofConfig c = .ok w) : w.Mirrored := by
  obtain ⟨hv, rfl⟩ := ofConfig_eq_ok h
  refine ⟨⟨?_, ?_, ?_⟩, ?_⟩
  · simpa [Function.comp_def] using (validate_eq_ok hv).2
  · intro m hm
    obtain ⟨id, -, rfl⟩ := List.mem_map.1 hm
    exact WorldMap.indexed_new id c.maps
  · intro m hm
    obtain ⟨id, -, rfl⟩ := List.mem_map.1 hm
    rfl
  · have hnone : World.holds
        { config := c, maps := c.mapIds.map fun id => { id, config := c.maps } } =
        fun _ _ => false := by
      funext id g
      rw [holds, Option.any_eq_false]
      intro m hm
      obtain ⟨id, -, rfl⟩ := List.mem_map.1 (mem_of_map? hm)
      simp [WorldMap.contains]
    rw [hnone]
    exact .empty

/-! ## Every step keeps the mirror -/

/-- A queue changes, and nothing that the directory knows of. -/
theorem Mirrored.setQueue (h : w.Mirrored) (hm : w.map? id = some m) (queue : TaskQueue) :
    (w.setMap (m.requeue queue)).Mirrored := by
  have hmem := mem_of_map? hm
  have hconfig := h.config hmem
  refine ⟨h.toSound.setMap ((h.indexed hmem).requeue queue) hconfig, ?_⟩
  have hsame : (w.setMap (m.requeue queue)).holds = w.holds := by
    funext id' g
    rw [holds, map?_setMap_self hm (m.requeue queue) rfl, holds]
    split
    · rename_i he; rw [he, hm]; rfl
    · rfl
  rw [hsame]
  exact h.mirrors

theorem post_eq_ok {t : Task} (h : w.post id t = .ok w') :
    ∃ m, w.map? id = some m ∧ w' = w.setMap (m.enqueue t) := by
  rw [World.post] at h
  split at h
  · exact nomatch h
  · rename_i m hm
    cases h
    exact ⟨m, hm, rfl⟩

theorem Mirrored.post {t : Task} (h : w.Mirrored) (hp : w.post id t = .ok w') : w'.Mirrored := by
  obtain ⟨m, hm, rfl⟩ := post_eq_ok hp
  exact h.setQueue hm (m.queue.push t)

theorem Mirrored.setTransfers (h : w.Mirrored) (transfers : GuidTable Transfer) :
    Mirrored { w with transfers } :=
  ⟨⟨h.ids, h.indexed, h.config⟩, h.mirrors⟩

/-- A teleport is a relocation for one map, or a removal and an addition for two. -/
theorem teleport_eq_ok {target : MapId} {p : Position} (h : w.teleport g target p = .ok w') :
    p.IsValid ∧ ∃ source scope, w.origin g = .ok (source, scope) ∧
      ((source = target ∧ w.post target (.relocate g p) = .ok w') ∨
        (source ≠ target ∧ ∃ w₁ w₂, w.post source (.remove g) = .ok w₁ ∧
          w₁.post target (.add g p scope) = .ok w₂ ∧
          w' = { w₂ with transfers := w₂.transfers.insert g ⟨target, scope⟩ })) := by
  rw [World.teleport] at h
  split at h
  · exact nomatch h
  rename_i hp
  split at h
  · exact nomatch h
  cases ho : w.origin g with
  | error f => rw [ho] at h; exact nomatch h
  | ok o =>
    obtain ⟨source, scope⟩ := o
    rw [ho] at h
    refine ⟨not_not.1 hp, source, scope, rfl, ?_⟩
    simp only [bind, Except.bind] at h
    split at h
    · rename_i hs
      exact .inl ⟨hs, h⟩
    · rename_i hs
      cases h₁ : w.post source (.remove g) with
      | error f => rw [h₁] at h; exact nomatch h
      | ok w₁ =>
        rw [h₁] at h
        simp only at h
        cases h₂ : w₁.post target (.add g p scope) with
        | error f => rw [h₂] at h; exact nomatch h
        | ok w₂ =>
          rw [h₂] at h
          simp only [pure, Except.pure, Except.ok.injEq] at h
          exact .inr ⟨hs, w₁, w₂, rfl, h₂, h.symm⟩

theorem Mirrored.teleport {target : MapId} {p : Position} (h : w.Mirrored)
    (ht : w.teleport g target p = .ok w') : w'.Mirrored := by
  obtain ⟨-, source, scope, -, ⟨-, hp⟩ | ⟨-, w₁, w₂, hp₁, hp₂, rfl⟩⟩ := teleport_eq_ok ht
  · exact h.post hp
  · exact ((h.post hp₁).post hp₂).setTransfers _

/-- The work of one map on the directory, done while the others are at rest. -/
theorem Mirrored.onMap {op : WorldMap.Op} (h : w.Mirrored) (hm : w.map? id = some m)
    (hd : Interleaved w.directory (callsOf m.id (op.run m).notes) answers d) :
    Mirrored { w.setMap (op.run m).map with directory := d } ∧ ∀ a ∈ answers, a = true := by
  have hmem := mem_of_map? hm
  have hrun := WorldMap.Follows.run (h.indexed hmem) op
  have hsound := h.toSound.setMap hrun.indexed (hrun.config.trans (h.config hmem))
  have hstart : w.directory.Mirrors (callsOf m.id (op.run m).notes)
      (w.setMap (op.run m).map).holds := h.mirrors.start fun id' g => by
      rw [holds, holds, map?_setMap_self hm _ hrun.id, callsOf, id_of_map? hm,
        Function.update_apply]
      split
      · rename_i he
        subst he
        simpa [hm] using hrun.told g
      · rfl
  obtain ⟨hend, hanswers⟩ := hstart.interleaved hd
  exact ⟨⟨⟨hsound.ids, hsound.indexed, hsound.config⟩, hend⟩, hanswers⟩

theorem Mirrored.tick (h : w.Mirrored) (ht : w.Ticks diff answers w') :
    w'.Mirrored ∧ ∀ a ∈ answers, a = true := by
  obtain ⟨d, hd, rfl⟩ := ht
  have hsound := h.toSound.tick diff
  have hstart : w.directory.Mirrors (w.work diff) (w.tick diff).2.holds :=
    h.mirrors.start fun id g => by
      rw [holds, holds, h.map?_tick, work]
      cases hm : w.map? id with
      | none => rfl
      | some m => exact (h.update (mem_of_map? hm) diff).told g
  obtain ⟨hend, hanswers⟩ := hstart.interleaved hd
  exact ⟨⟨⟨hsound.ids, hsound.indexed, hsound.config⟩, hend⟩, hanswers⟩

theorem Mirrored.step (h : w.Mirrored) (next : Step w answers w') :
    w'.Mirrored ∧ ∀ a ∈ answers, a = true := by
  cases next with
  | post hp => exact ⟨h.post hp, fun _ ha => nomatch ha⟩
  | teleport ht => exact ⟨h.teleport ht, fun _ ha => nomatch ha⟩
  | onMap hm hd => exact h.onMap hm hd
  | tick ht => exact h.tick ht

theorem Reachable.mirrored {c : Config} (h : Reachable c w) : w.Mirrored := by
  induction h with
  | new hw => exact .new hw
  | step _ next ih => exact (ih.step next).1

/-! ## Reports made at once

`World.onMap` and `World.tick` hand the notes of a map to the directory when its work is done, which
is one of the orders. -/

/-- An operation that reports at once is a step. -/
theorem Step.of_onMap (op : WorldMap.Op) (hm : w.map? id = some m) :
    ∃ answers, Step w answers (w.onMap m op.run).2 := by
  have hlast : Interleaved (w.directory.notes m.id (op.run m).notes)
      (Function.update (callsOf m.id (op.run m).notes) m.id []) []
      (w.directory.notes m.id (op.run m).notes) := by
    rw [callsOf, Function.update_idem, Function.update_eq_self]
    exact .done _
  obtain ⟨answers, hd⟩ := Interleaved.notes (Function.update_self ..) hlast
  exact ⟨answers, .onMap hm hd⟩

/-- A world after a map was asked to add an object. -/
def enter (w : World) (id : MapId) (g : Guid) (p : Position) (s : Scope) : World :=
  match w.map? id with
  | some m => (w.onMap m (WorldMap.Op.add g p s).run).2
  | none => w

theorem transfers_enter (id : MapId) (g : Guid) (p : Position) (s : Scope) :
    (w.enter id g p s).transfers = w.transfers := by
  rw [World.enter]
  split <;> rfl

theorem Reachable.enter {c : Config} (h : Reachable c w) (id : MapId) (g : Guid) (p : Position)
    (s : Scope) : Reachable c (w.enter id g p s) := by
  rw [World.enter]
  split
  · rename_i m hm
    obtain ⟨answers, hstep⟩ := Step.of_onMap (.add g p s) hm
    exact h.step hstep
  · exact h

/-- Maps that report one after the other. -/
theorem interleaved_updates {maps : List WorldMap} (hn : (maps.map (·.id)).Nodup)
    (hid : ∀ m ∈ maps, (m.update diff).1.id = m.id) (d : Directory) :
    ∃ answers, Interleaved d
      (fun id =>
        ((maps.find? fun m => m.id = id).map fun m => (m.update diff).2.2.map (·.call)).getD [])
      answers ((updateMaps maps diff).foldl (fun d u => d.notes u.1.id u.2.2) d) := by
  induction maps generalizing d with
  | nil => exact ⟨[], .done d⟩
  | cons m maps ih =>
    obtain ⟨hnew, hn⟩ := List.nodup_cons.1 hn
    obtain ⟨hm, hid⟩ := List.forall_mem_cons.1 hid
    obtain ⟨answers, hrest⟩ := ih hn hid (d.notes m.id (m.update diff).2.2)
    have hnone : maps.find? (fun x => x.id = m.id) = none := by
      rw [List.find?_eq_none]
      intro x hx hxm
      exact hnew (List.mem_map.2 ⟨x, hx, by simpa using hxm⟩)
    rw [updateMaps, List.map_cons, List.foldl_cons, hm]
    have hnext : (((m :: maps).find? fun x => x.id = m.id).map fun m =>
        (m.update diff).2.2.map (·.call)).getD [] = (m.update diff).2.2.map (·.call) := by simp
    refine Interleaved.notes hnext (?_ : Interleaved _ _ answers _)
    refine (congrArg (Interleaved _ · answers _) ?_).mpr hrest
    funext id
    by_cases he : id = m.id
    · rw [he, Function.update_self, hnone]
      rfl
    · rw [Function.update_of_ne he, List.find?_cons_of_neg (by simpa using Ne.symm he)]

/-- A tick in which the maps report in their order. -/
theorem Sound.ticks (h : w.Sound) (diff : Duration) :
    ∃ answers, w.Ticks diff answers (w.tick diff).2 := by
  obtain ⟨answers, hd⟩ := interleaved_updates h.ids (fun m hm => (h.update hm diff).id) w.directory
  exact ⟨answers, _, hd, rfl⟩

/-! ## What the directory answers -/

theorem Mirrored.mem_registrations (h : w.Mirrored) :
    id ∈ w.directory.registrations g ↔ id ∈ w.holders g := by
  rw [h.mirrors.mem_registrations, mem_holders h.ids]

theorem Mirrored.count_registrations (h : w.Mirrored) (g : Guid) (id : MapId) :
    (w.directory.registrations g).count id = if id ∈ w.holders g then 1 else 0 := by
  simp only [(h.mirrors.nodup g).count, h.mem_registrations]

theorem Mirrored.locate?_eq_none (h : w.Mirrored) :
    w.directory.locate? g = none ↔ w.holders g = [] := by
  rw [Directory.locate?, List.getLast?_eq_none_iff, List.eq_nil_iff_forall_not_mem,
    List.eq_nil_iff_forall_not_mem]
  simp only [h.mem_registrations]

theorem Mirrored.mem_of_locate? (h : w.Mirrored) (hl : w.directory.locate? g = some id) :
    id ∈ w.holders g :=
  h.mem_registrations.1 (List.mem_of_getLast? hl)

theorem Sound.mem_keys (h : w.Sound) (hm : m ∈ w.maps) :
    g ∈ m.placements.keys ↔ w.holds m.id g = true := by
  rw [holds, map?_of_mem h.ids hm, Option.any_some, WorldMap.contains,
    Std.ExtTreeMap.contains_iff_mem, Std.ExtTreeMap.mem_keys]

/-- The guids that are placed on some map. -/
def population (w : World) : List Guid := (w.maps.flatMap fun m => m.placements.keys).dedup

theorem Mirrored.size_directory (h : w.Mirrored) : w.directory.size = w.population.length := by
  refine h.mirrors.size_eq (List.nodup_dedup _) fun g => ?_
  simp only [population, List.mem_dedup, List.mem_flatMap]
  constructor
  · rintro ⟨m, hm, hg⟩
    exact ⟨m.id, (h.mem_keys hm).1 hg⟩
  · rintro ⟨id, hg⟩
    obtain ⟨m, hm, -⟩ := (Option.any_eq_true _ _).1 hg
    rw [← id_of_map? hm] at hg
    exact ⟨m, mem_of_map? hm, (h.mem_keys (mem_of_map? hm)).2 hg⟩

/-- The directory lists each map that holds a guid once and no other map, so that it locates every
object that is placed and nothing else. A registration that the next step takes back is there. -/
structure Faithful (w : World) : Prop where
  registered : ∀ g id, (w.directory.registrations g).count id = if id ∈ w.holders g then 1 else 0
  unplaced : ∀ g, w.directory.locate? g = none ↔ w.holders g = []
  located : ∀ g id, w.directory.locate? g = some id → id ∈ w.holders g
  size : w.directory.size = w.population.length
  answered : ∀ answers w', Step w answers w' → ∀ a ∈ answers, a = true

/-- Every world that is reached has a faithful directory. -/
theorem Reachable.faithful {c : Config} (h : Reachable c w) : w.Faithful where
  registered := h.mirrored.count_registrations
  unplaced _ := h.mirrored.locate?_eq_none
  located _ _ := h.mirrored.mem_of_locate?
  size := h.mirrored.size_directory
  answered _ _ next := (h.mirrored.step next).2

/-- An object that has just come to map 1. -/
def newcomer : World :=
  World.enter { config := {}, maps := [0, 1].map fun id => { id, config := {} } } 1 ⟨.player, 1⟩
    (.flat 0 0) .world

theorem faithful_newcomer : newcomer.holders ⟨.player, 1⟩ = [1] ∧ newcomer.Faithful :=
  ⟨by decide +kernel,
    Reachable.faithful (c := {}) ((Reachable.new rfl).enter 1 _ (.flat 0 0) .world)⟩

end Realm.World
