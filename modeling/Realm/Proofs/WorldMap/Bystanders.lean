import Realm.Proofs.WorldMap.LifeCycle
import Realm.Proofs.WorldMap.Range
import Realm.Proofs.WorldMap.Register
import Realm.Proofs.WorldMap.Reporting

/-! # Bystanders

An operation touches the objects that it names: the guid it is called with, those of the tasks it
applies, or those in the grid it takes away. For all other objects nothing changes, neither where
they are nor the order in which they are met. -/

namespace Realm

namespace WorldMap

variable {m m' m'' : WorldMap} {c : GridCoord} {s : Scope} {mask : KindMask} {g : Guid}
  {grid : Grid} {p : Guid → Bool} {notes notes' : List Directory.Note} {t : Task}

/-- The guids of a scope and the kinds in a mask in a loaded grid. -/
def visitGrid (m : WorldMap) (c : GridCoord) (s : Scope) (mask : KindMask) : List Guid :=
  match m.grid? c with
  | some grid => grid.visit s mask
  | none => []

theorem visitGrid_eq (hc : c.IsValid) : m.visitGrid c s mask = (List.finRange 64).flatMap fun i =>
    (Compartment.kinds s mask).flatMap fun k => m.guids (CellCoord.within c i) s k := by
  have hlisted (i : Fin 64) (k : Kind) : m.listed (CellCoord.within c i) s k =
      ((m.grid? c).map fun grid => (grid.roster i s k).toList).getD [] := by
    rw [listed, CellCoord.gridCoord_within hc, CellCoord.localIndex_within hc]
    cases m.grid? c <;> rfl
  simp only [visitGrid, guids, hlisted]
  cases m.grid? c with
  | none => simp
  | some grid =>
    simp only [Grid.visit_eq, Roster.guids_eq_map_toList, Option.map_some, Option.getD_some]

theorem visitGrid_of_not_valid (hc : ¬c.IsValid) : m.visitGrid c s mask = [] := by
  rw [visitGrid, grid?, if_neg hc]

/-! ## Changes that pass objects by -/

/-- `m'` has come from `m`, with these notes, by changes that pass the objects in `p` by. -/
structure Bypasses (p : Guid → Bool) (m m' : WorldMap) (notes : List Directory.Note) : Prop where
  placement? : ∀ g, p g = true → m'.placement? g = m.placement? g
  guids : ∀ d s k, (m'.guids d s k).filter p = (m.guids d s k).filter p
  notes : ∀ n ∈ notes, p n.guid = false

theorem Bypasses.refl (m : WorldMap) : Bypasses p m m [] :=
  ⟨fun _ _ => rfl, fun _ _ _ => rfl, fun _ hn => nomatch hn⟩

theorem Bypasses.trans (h : Bypasses p m m' notes) (h' : Bypasses p m' m'' notes') :
    Bypasses p m m'' (notes ++ notes') where
  placement? g hg := (h'.placement? g hg).trans (h.placement? g hg)
  guids d s k := (h'.guids d s k).trans (h.guids d s k)
  notes n hn := (List.mem_append.1 hn).elim (h.notes n) (h'.notes n)

theorem Bypasses.keeps (hm : m.Shelved) (h : m.Keeps m') : Bypasses p m m' [] where
  placement? _ _ := by rw [h.placement?]
  guids d s k := by rw [WorldMap.guids, h.listed hm, WorldMap.guids]
  notes _ hn := nomatch hn

/-! Whoever walks over a map meets the objects in the order in which the cells list them. -/

theorem Bypasses.visit (h : Bypasses p m m' notes) (a : Area) (s : Scope) (mask : KindMask) :
    (m'.visit a s mask).filter p = (m.visit a s mask).filter p := by
  have hcell (c : CellCoord) (k : Kind) := h.guids c s k
  simp only [WorldMap.guids] at hcell
  simp only [WorldMap.visit, visitCell_eq, List.filter_flatMap, hcell]

theorem Bypasses.visitGrid (h : Bypasses p m m' notes) (c : GridCoord) (s : Scope)
    (mask : KindMask) : (m'.visitGrid c s mask).filter p = (m.visitGrid c s mask).filter p := by
  by_cases hc : c.IsValid
  · simp only [visitGrid_eq hc, List.filter_flatMap, h.guids]
  · rw [visitGrid_of_not_valid hc, visitGrid_of_not_valid hc]

theorem Bypasses.isNear (h : Bypasses p m m' notes) (hg : p g = true) (centre : Position)
    (radius : Single) : m'.isNear centre radius g = m.isNear centre radius g := by
  rw [WorldMap.isNear, h.placement? g hg, WorldMap.isNear]

theorem Bypasses.inRange (h : Bypasses p m m' notes) (centre : Position) (radius : Single)
    (mask : KindMask) :
    (m'.inRange centre radius mask).filter p = (m.inRange centre radius mask).filter p := by
  have hmet : ([Scope.world, .grid].flatMap fun s =>
        m'.visit (Area.around centre.x centre.y radius) s mask).filter p =
      ([Scope.world, .grid].flatMap fun s =>
        m.visit (Area.around centre.x centre.y radius) s mask).filter p := by
    simp only [List.filter_flatMap, h.visit]
  rw [WorldMap.inRange, WorldMap.inRange, List.filter_comm, hmet, List.filter_comm p]
  exact List.filter_congr fun g hg => h.isNear (List.mem_filter.1 hg).2 centre radius

/-! ## Tasks -/

theorem Indexed.notes_apply (h : m.Indexed) (t : Task) :
    ∀ n ∈ (m.apply t).notes, n.guid = t.guid := by
  cases t with
  | add g p s =>
    change ∀ n ∈ (m.add g p s).notes, n.guid = g
    by_cases hok : m.placement? g = none ∧ s.Holds g.kind ∧ p.IsValid
    · obtain ⟨l, m', hadd, -⟩ := h.add hok.1 hok.2.1 hok.2.2
      rw [hadd]
      exact List.forall_mem_singleton.2 rfl
    · obtain ⟨f, hf⟩ := add_refused hok
      rw [hf]
      exact List.forall_mem_nil _
  | remove g =>
    change ∀ n ∈ (m.remove g).notes, n.guid = g
    cases hg : m.placement? g with
    | none =>
      obtain ⟨f, hf⟩ := remove_refused hg
      rw [hf]
      exact List.forall_mem_nil _
    | some pl =>
      obtain ⟨m', hrem, -⟩ := h.remove hg
      rw [hrem]
      exact List.forall_mem_singleton.2 rfl
  | relocate g p =>
    change ∀ n ∈ (m.relocate g p).notes, n.guid = g
    rw [h.notes_relocate]
    exact List.forall_mem_nil _

/-- A task enters or takes out one guid, and so the others keep their order. -/
theorem Bypasses.apply (h : m.Indexed) (ht : p t.guid = false) :
    Bypasses p m (m.apply t).map (m.apply t).notes where
  placement? g hg := by
    refine (h.obeys t).others g ?_
    rintro rfl
    exact Bool.false_ne_true (ht.symm.trans hg)
  guids d s k := by
    have hsame : (fun g => decide (g ≠ t.guid) && p g) = p := by
      funext g
      rcases eq_or_ne g t.guid with rfl | hg
      · rw [ht, Bool.and_false]
      · rw [decide_eq_true hg, Bool.true_and]
    rw [h.guids_apply, Register.guids_next rfl rfl]
    split
    · rfl
    · rw [List.filter_append, List.filter_filter]
      simp only [Bool.and_comm (p _), hsame]
      split
      · rw [List.filter_singleton, ht]
        exact List.append_nil _
      · exact List.append_nil _
  notes n hn := by rw [h.notes_apply t n hn, ht]

theorem Bypasses.applyAll (h : m.Indexed) {ts : List Task} (hts : ∀ t ∈ ts, p t.guid = false) :
    Bypasses p m (m.applyAll ts).map (m.applyAll ts).notes := by
  refine (applyAll_induct (P := fun m' notes => m'.Indexed ∧ Bypasses p m m' notes)
    ⟨h, .refl m⟩ fun m' notes t ht hr => ?_).2
  exact ⟨(Follows.apply hr.1 t).indexed, hr.2.trans (.apply hr.1 (hts t ht))⟩

theorem Bypasses.requeue (m : WorldMap) (queue : TaskQueue) :
    Bypasses p m (m.requeue queue) [] :=
  ⟨fun _ _ => rfl, fun _ _ _ => rfl, fun _ hn => absurd hn List.not_mem_nil⟩

theorem Bypasses.update (h : m.Indexed) (hts : ∀ t ∈ m.batch, p t.guid = false)
    (diff : Duration) : Bypasses p m (m.update diff).1 (m.update diff).2.2 := by
  have hrun := (Bypasses.requeue m m.restQueue).trans (.applyAll (h.requeue m.restQueue) hts)
  have hall := hrun.trans (.keeps h.served.toShelved (.served m diff))
  rwa [List.append_nil, List.nil_append, ← notes_update] at hall

/-! ## Forced unloads -/

/-- The object is placed in a cell of the grid at `c`. -/
def inGrid (m : WorldMap) (c : GridCoord) (g : Guid) : Bool :=
  (m.placement? g).any (·.gridCoord = c)

theorem inGrid_iff : m.inGrid c g = true ↔ ∃ pl, m.placement? g = some pl ∧ pl.gridCoord = c := by
  rw [inGrid, Option.any_eq_true]
  simp only [decide_eq_true_eq]

theorem Indexed.mem_occupants_iff_inGrid (h : m.Indexed) :
    g ∈ m.occupants c ↔ m.inGrid c g = true := by
  rw [h.mem_occupants, inGrid_iff]

/-- A loaded grid goes, occupied or not, and its objects go with it. -/
theorem Indexed.unload_forced (h : m.Indexed) (hg : m.grid? c = some grid) : m.unload c true =
    { result := .ok true, map := m.evict c, notes := (m.occupants c).map .gone } := by
  obtain ⟨b, -, hnone⟩ | ⟨grid', hg', ⟨he, hu⟩ | ⟨-, hu⟩⟩ := m.unload_cases c true
  · rw [hnone rfl] at hg
    exact nomatch hg
  · have hempty : m.occupants c = [] := by
      rw [← List.isEmpty_iff, h.isEmpty_occupants hg', he]
    rw [hu, WorldMap.evict, hempty]
    rfl
  · exact hu

/-- Eviction passes by all who are not in the grid. -/
theorem Bypasses.evict (h : m.Indexed) (hg : m.grid? c = some grid) :
    Bypasses (fun g => !m.inGrid c g) m (m.evict c) ((m.occupants c).map .gone) := by
  refine ⟨fun g hin => ?_, fun d s k => ?_, fun n hn => ?_⟩
  · have hout : g ∉ m.occupants c := fun hmem => by
      rw [h.mem_occupants_iff_inGrid.1 hmem] at hin
      exact Bool.false_ne_true hin
    rw [placement?_evict, if_neg hout]
  · rw [WorldMap.guids, listed_evict, listed_dropGrid (grid?_eq_some.1 hg).1]
    split
    · -- all that the cell lists is placed in the grid
      rename_i hd
      refine (List.filter_eq_nil_iff.2 fun g hmem => ?_).symm
      obtain ⟨⟨l, g'⟩, hl, rfl⟩ := List.mem_map.1 hmem
      obtain ⟨pl, hpl, rfl, -⟩ := h.entry.1 hl
      rw [inGrid_iff.2 ⟨pl, hpl, hd⟩]
      exact Bool.false_ne_true
    · rfl
  · obtain ⟨g, hmem, rfl⟩ := List.mem_map.1 hn
    rw [Directory.Note.guid, h.mem_occupants_iff_inGrid.1 hmem]
    rfl

theorem Bypasses.unload (h : m.Indexed) (c : GridCoord) (force : Bool) :
    Bypasses (fun g => !(force && m.inGrid c g)) m (m.unload c force).map
      (m.unload c force).notes := by
  obtain ⟨b, hu, -⟩ | ⟨grid, hg, ⟨he, hu⟩ | ⟨rfl, hu⟩⟩ := m.unload_cases c force
  · rw [hu]
    exact .refl m
  · rw [hu]
    exact .keeps h.toShelved (.dropGrid hg he)
  · rw [hu]
    exact .evict h hg

/-! ## Operations -/

/-- The objects that an operation names. -/
def Op.touches (m : WorldMap) : Op → Guid → Bool
  | .add g _ _ | .addKind _ _ _ g _ | .remove g | .relocate g _ => (· = g)
  | .apply t => (· = t.guid)
  | .unload c force => fun g => force && m.inGrid c g
  | .update _ => fun g => m.batch.any (·.guid = g)
  | .load .. | .lock .. | .requeue _ => fun _ => false

theorem addKind_eq_add {k : Kind} (hs : s.Holds k) (hk : g.kind = k) (p : Position) :
    m.addKind k g p s = m.add g p s := by
  rw [addKind, if_neg (not_not_intro hk), add, if_neg (not_not_intro (hk ▸ hs))]
  simp only [linkKind_eq_link hs hk, enter]

theorem Bypasses.run (h : m.Indexed) (op : Op) :
    Bypasses (fun g => !op.touches m g) m (op.run m).map (op.run m).notes := by
  have hself {g g' : Guid} (he : g' = g) : (!decide (g' = g)) = false := by simp [he]
  cases op with
  | add g p s => exact .apply (t := .add g p s) h (hself rfl)
  | addKind k s held g p =>
    by_cases hk : g.kind = k
    · simp only [Op.run, addKind_eq_add held hk]
      exact .apply (t := .add g p s) h (hself rfl)
    · simp only [Op.run, addKind, if_pos hk]
      exact .refl m
  | remove g => exact .apply (t := .remove g) h (hself rfl)
  | relocate g p => exact .apply (t := .relocate g p) h (hself rfl)
  | load c tweaks =>
    simp only [Op.run]
    split
    · rename_i m' hm
      exact .keeps h.toShelved (.modifyGrid (.tweaks tweaks) hm)
    · exact .refl m
  | unload c force => exact .unload h c force
  | lock c on =>
    simp only [Op.run, notes_lockGrid]
    exact .keeps h.toShelved (.lockGrid m c on)
  | apply t => exact .apply h (hself rfl)
  | requeue queue => exact .requeue m queue
  | update diff =>
    refine .update h (fun t ht => ?_) diff
    have hany : m.batch.any (·.guid = t.guid) = true :=
      List.any_eq_true.2 ⟨t, ht, decide_eq_true rfl⟩
    change (!m.batch.any _) = false
    rw [hany]
    rfl

/-- The operation is about grids alone: no object is named, and no task is waiting. -/
def Op.IsHousekeeping (m : WorldMap) : Op → Prop
  | .load .. | .lock .. | .requeue _ | .unload _ false => True
  | .update _ => m.queue.isEmpty = true
  | _ => False

theorem Op.IsHousekeeping.touches {op : Op} (h : op.IsHousekeeping m) (g : Guid) :
    op.touches m g = false := by
  cases op with
  | load | lock | requeue => rfl
  | unload c force =>
    cases force with
    | false => rfl
    | true => exact h.elim
  | update diff =>
    have hbatch : m.batch = [] := by
      rw [toList_batch, TaskQueue.isEmpty_iff.1 h, List.take_nil]
    rw [Op.touches, hbatch]
    rfl
  | add | addKind | remove | relocate | apply => exact h.elim

theorem Indexed.placement?_unload_forced (h : m.Indexed) (hg : m.grid? c = some grid) (g : Guid) :
    (m.unload c true).map.placement? g = (m.placement? g).filter (·.gridCoord ≠ c) := by
  simp only [h.unload_forced hg, placement?_evict, h.mem_occupants_iff_inGrid, inGrid]
  cases m.placement? g with
  | none => rfl
  | some pl => by_cases hc : pl.gridCoord = c <;> simp [hc, Option.filter]

end WorldMap

namespace Station

open WorldMap (Op Bypasses)

variable {t : Station} {id : MapId} {p : Guid → Bool} {α : Type} {o : Outcome α} {c : GridCoord}

/-- For the objects in `p` all is as before: their placements, the maps that are listed under them,
and the order in which they are met. -/
structure Undisturbed (p : Guid → Bool) (t t' : Station) : Prop where
  placement? : ∀ g, p g = true → t'.map.placement? g = t.map.placement? g
  registrations : ∀ g, p g = true →
    t'.directory.registrations g = t.directory.registrations g
  visit : ∀ a s mask, (t'.map.visit a s mask).filter p = (t.map.visit a s mask).filter p
  visitGrid : ∀ c s mask,
    (t'.map.visitGrid c s mask).filter p = (t.map.visitGrid c s mask).filter p
  inRange : ∀ centre radius mask,
    (t'.map.inRange centre radius mask).filter p = (t.map.inRange centre radius mask).filter p

/-- All objects are where they were, and they are met in the same order. -/
structure Unchanged (t t' : Station) : Prop where
  placement? : t'.map.placement? = t.map.placement?
  directory : t'.directory = t.directory
  visit : t'.map.visit = t.map.visit
  visitGrid : t'.map.visitGrid = t.map.visitGrid
  inRange : t'.map.inRange = t.map.inRange

/-- The grid at `c` is gone, and exactly the objects in it have gone with it. -/
structure Evicts (c : GridCoord) (t : Station) (o : Outcome Bool) : Prop where
  result : o.result = .ok true
  unloaded : o.map.isLoaded c = false
  placement? : ∀ g, o.map.placement? g = (t.map.placement? g).filter (·.gridCoord ≠ c)
  others : Undisturbed (fun g => !t.map.inGrid c g) t (t.hear o)
  struck : ∀ g, t.map.inGrid c g = true → t.listings g = 1 ∧ (t.hear o).listings g = 0
  /-- Each of them can be added again, anywhere. -/
  again : ∀ g p s, t.map.inGrid c g = true → s.Holds g.kind → p.IsValid →
    (o.map.add g p s).result = .ok p.cellCoord ∧
      (o.map.addKind g.kind g p s).result = .ok p.cellCoord
  /-- Whoever stays has a link that leads to it. -/
  live : ∀ g p, o.map.placement? g = some p → ∃ grid, o.map.grid? p.gridCoord = some grid ∧
    ((grid.cell p.cell).roster p.scope g.kind).get? p.link = some g

/-- What operations on a map change, and what they do not. -/
structure Frame (t : Station) : Prop where
  others : ∀ op : Op,
    Undisturbed (fun g => !op.touches t.map g) t (t.hear (op.run t.map))
  housekeeping : ∀ op : Op, op.IsHousekeeping t.map → Unchanged t (t.hear (op.run t.map))
  evicts : ∀ c, t.map.isLoaded c = true → Evicts c t (t.map.unload c true)

theorem Undisturbed.of_bypasses (h : Bypasses p t.map o.map o.notes) :
    Undisturbed p t (t.hear o) where
  placement? := h.placement?
  registrations g hg := by
    refine Directory.registrations_notes_of_ne fun n hn he => ?_
    rw [he, h.notes n hn] at hg
    exact Bool.false_ne_true hg
  visit := h.visit
  visitGrid := h.visitGrid
  inRange := h.inRange

/-- Nothing at all changes if no object is touched. -/
theorem Unchanged.of_bypasses (h : Bypasses (fun _ => true) t.map o.map o.notes) :
    Unchanged t (t.hear o) where
  placement? := funext fun g => h.placement? g rfl
  directory := by
    have hnone : o.notes = [] :=
      List.eq_nil_iff_forall_not_mem.2 fun n hn => Bool.false_ne_true (h.notes n hn).symm
    rw [hear, hnone]
    rfl
  visit := by
    funext a s mask
    have hvisit := h.visit a s mask
    rwa [List.filter_true, List.filter_true] at hvisit
  visitGrid := by
    funext c s mask
    have hvisit := h.visitGrid c s mask
    rwa [List.filter_true, List.filter_true] at hvisit
  inRange := by
    funext centre radius mask
    have hfound := h.inRange centre radius mask
    rwa [List.filter_true, List.filter_true] at hfound

theorem Settled.evicts (h : Settled id t) (hc : t.map.isLoaded c = true) :
    Evicts c t (t.map.unload c true) := by
  obtain ⟨grid, hg⟩ := Option.isSome_iff_exists.1 hc
  have hout := h.hear (.unload h.indexed c true)
  have hpl := h.indexed.placement?_unload_forced hg
  have hgone {g : Guid} (hin : t.map.inGrid c g = true) :
      (t.map.unload c true).map.placement? g = none := by
    obtain ⟨pl, hpl', hgc⟩ := WorldMap.inGrid_iff.1 hin
    rw [hpl, hpl', Option.filter_some, if_neg (by simp [hgc])]
  refine ⟨?_, ?_, hpl, .of_bypasses (.unload h.indexed c true), fun g hin => ⟨?_, ?_⟩,
    fun g p s hin hs hp => ⟨?_, ?_⟩, fun g p hp => ?_⟩
  · rw [h.indexed.unload_forced hg]
  · rw [h.indexed.unload_forced hg, WorldMap.isLoaded, WorldMap.grid?_evict,
      WorldMap.grid?_dropGrid (WorldMap.grid?_eq_some.1 hg).1, if_pos rfl]
    rfl
  · obtain ⟨pl, hpl', -⟩ := WorldMap.inGrid_iff.1 hin
    rw [h.listings, WorldMap.contains_eq_isSome, hpl']
    rfl
  · have hcontains := WorldMap.contains_eq_isSome (t.map.unload c true).map g
    rw [hgone hin] at hcontains
    rw [hout.listings, Station.hear, hcontains]
    rfl
  · obtain ⟨l, m', hadd, -⟩ := hout.indexed.add (hgone hin) hs hp
    exact congrArg Outcome.result hadd
  · obtain ⟨l, m', hadd, -⟩ := hout.indexed.addKind rfl (hgone hin) hs hp
    exact congrArg Outcome.result hadd
  · exact (hout.indexed.consistent.placed hp).2.2.2

theorem Settled.frame (h : Settled id t) : t.Frame where
  others op := .of_bypasses (.run h.indexed op)
  housekeeping op hop := by
    refine .of_bypasses ?_
    have hall : (fun g => !op.touches t.map g) = fun _ => true :=
      funext fun g => by rw [hop.touches]; rfl
    rw [← hall]
    exact .run h.indexed op
  evicts _ := h.evicts

/-- However a map and its directory have come about, an operation on the map changes what it names
and nothing else. -/
theorem frame_run (id : MapId) (config : MapConfig) (events : List (Event id)) :
    (run ⟨{ id, config }, ∅⟩ events).Frame :=
  ((settled_new id config).run events).frame

end Station
end Realm
