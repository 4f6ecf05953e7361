import Realm.Proofs.WorldMap.Chronicle
import Realm.Proofs.WorldMap.Coverage

/-! # The life of a grid

From the time a grid is loaded until it is dropped, its state and its countdown follow from what the
updates have found there since something last needed it. So its history tells when it is dropped. -/

namespace Realm

namespace WorldMap

open Sighting (Due)

variable {m m' : WorldMap} {c : GridCoord} {grid : Grid} {g : Guid} {diff : Duration}
  {seen : List Sighting} {op : Op}

/-! ## Occupied grids -/

theorem Indexed.mem_occupants_iff_visit (h : m.Indexed) (hg : m.grid? c = some grid) :
    g ∈ m.occupants c ↔ ∃ s, g ∈ grid.visit s .all := by
  have hcoord := h.coord_eq hg
  have hloaded : grid ∈ m.loadedGrids := mem_loadedGrids.2 ⟨_, (grid?_eq_some.1 hg).2⟩
  simp only [h.mem_occupants, Grid.mem_visit_all]
  constructor
  · rintro ⟨p, hp, rfl⟩
    have hself := h.listed_self hp
    have hkinds := h.kinds hself
    rw [listed_of_grid? hg] at hself
    exact ⟨p.scope, _, _, _, hkinds.2, hself⟩
  · rintro ⟨s, i, k, l, -, hl⟩
    obtain ⟨p, hp, hn⟩ := h.names hloaded hl
    exact ⟨p, hp, hn.grid.trans hcoord⟩

/-- A grid counts no objects if none are placed in it. -/
theorem Indexed.isEmpty_occupants (h : m.Indexed) (hg : m.grid? c = some grid) :
    (m.occupants c).isEmpty = grid.isEmpty := by
  have hsound := h.sound (grid?_eq_some.1 hg).2
  have hcount (s : Scope) : grid.objectCount s = 0 ↔ grid.visit s .all = [] := by
    rw [hsound.counted, ← hsound.length_visit, List.length_eq_zero_iff]
  have hempty : grid.isEmpty = true ↔ ∀ s, grid.visit s .all = [] := by
    simp only [← hcount, Grid.isEmpty_iff]
  rw [Bool.eq_iff_iff, hempty, List.isEmpty_iff, List.eq_nil_iff_forall_not_mem]
  simp only [h.mem_occupants_iff_visit hg, not_exists, List.eq_nil_iff_forall_not_mem]
  exact forall_comm

/-! ## History of a grid -/

/-- What an update finds at a grid once its tasks are done. -/
def sighting (m : WorldMap) (c : GridCoord) (diff : Duration) : Sighting where
  diff
  locked := (m.grid? c).any (·.retention.locked)
  vacant := (m.occupants c).isEmpty

/-- What updates have found at a grid since it was loaded or last near, after one operation more. -/
def watch (m : WorldMap) (c : GridCoord) (seen : List Sighting) (op : Op) : List Sighting :=
  if (op.run m).map.isLoaded c then
    match op with
    | .update diff => if m.served.Near c then [] else seen ++ [m.served.sighting c diff]
    | _ => seen
  else []

/-- The same, after a sequence of operations. -/
def sightings (c : GridCoord) (m : WorldMap) (seen : List Sighting) : List Op → List Sighting
  | [] => seen
  | op :: ops => sightings c (op.run m).map (m.watch c seen op) ops

/-- How long the countdown of a grid takes. -/
def unloadDelay (m : WorldMap) : Duration := .ofMillis m.config.unloadDelay.toNat

/-- The grid is as old as the sightings tell on a map with this configuration. -/
def AgedBy (config : MapConfig) (grid : Grid) (seen : List Sighting) : Prop :=
  grid.Aged (.ofMillis config.unloadDelay.toNat) seen

theorem lasting_agedBy : Lasting AgedBy :=
  ⟨fun _ _ => .active rfl rfl, fun hs h => h.sameClock hs.clock⟩

/-- A loaded grid is as old as its history tells. -/
abbrev Watched : WorldMap → GridCoord → List Sighting → Prop := Chronicle AgedBy

theorem watched_new (id : MapId) (config : MapConfig) (c : GridCoord) :
    Watched { id, config } c [] :=
  chronicle_new AgedBy id config c

theorem Watched.aged (h : m.Watched c seen) (hg : m.grid? c = some grid) :
    grid.Aged m.unloadDelay seen :=
  h.loaded hg

/-! ## Updates -/

/-- A grid that is not near is dropped if it is due, and else it is as old as this update makes
it. -/
theorem Watched.age (h : m.Watched c seen) (hm : m.Indexed) (hg : m.grid? c = some grid)
    (diff : Duration) :
    (grid.age diff = none ↔ Due m.unloadDelay (seen ++ [m.sighting c diff])) ∧
      ∀ grid', grid.age diff = some grid' →
        grid'.Aged m.unloadDelay (seen ++ [m.sighting c diff]) := by
  have hlocked : (m.sighting c diff).locked = grid.retention.locked := by
    rw [sighting, hg, Option.any_some]
  exact (h.aged hg).age (s := m.sighting c diff) hlocked (hm.isEmpty_occupants hg)

theorem Watched.update (h : m.Watched c seen) (hm : m.Indexed) (diff : Duration) :
    (m.update diff).1.Watched c (m.watch c seen (.update diff)) := by
  have hserved : m.served.Watched c seen := h.spares lasting_agedBy (writes_served m).spares
  have hwatch : m.watch c seen (.update diff) = if (m.update diff).1.isLoaded c then
      if m.served.Near c then [] else seen ++ [m.served.sighting c diff] else [] := rfl
  rw [hwatch]
  refine .of_loaded fun {grid'} hg' => ?_
  rw [(Keeps.served m diff).config]
  rw [hm.grid?_update] at hg'
  split at hg'
  · rename_i hnear
    rw [if_pos hnear]
    cases hg'
    exact .active (hserved.getD lasting_agedBy).full rfl
  · rename_i hfar
    rw [if_neg hfar]
    obtain ⟨grid, hg, hage⟩ := Option.bind_eq_some_iff.1 hg'
    exact (hserved.age hm.served hg diff).2 grid' hage

/-! ## Operations -/

/-- The operation leaves the states and countdowns of the grids to the map. -/
def Op.HandsOff : Op → Prop
  | .load _ tweaks => ∀ t ∈ tweaks, t.IsLock
  | _ => True

theorem Op.HandsOff.tweaksAt (h : op.HandsOff) (c : GridCoord) :
    ∀ t ∈ op.tweaksAt c, t.IsLock := by
  cases op with
  | load c' tweaks =>
    rw [Op.tweaksAt]
    split
    · exact h
    · exact List.forall_mem_nil _
  | lock c' on =>
    rw [Op.tweaksAt]
    split
    · exact List.forall_mem_singleton.2 trivial
    · exact List.forall_mem_nil _
  | add | addKind | remove | relocate | unload | apply | requeue | update =>
    exact List.forall_mem_nil _

theorem Watched.run (h : m.Watched c seen) (hm : m.Indexed) (hop : op.HandsOff) :
    (op.run m).map.Watched c (m.watch c seen op) := by
  have hrun (hu : ¬op.IsUpdate) :
      (op.run m).map.Watched c (if (op.run m).map.isLoaded c then seen else []) :=
    Chronicle.run h lasting_agedBy hm hu fun grid haged =>
      haged.sameClock (.tweaks (hop.tweaksAt c) grid)
  cases op with
  | add | addKind | remove | relocate | load | unload | lock | apply | requeue =>
    exact hrun not_false
  | update diff => exact h.update hm diff

theorem Watched.runAll {ops : List Op} (h : m.Watched c seen) (hm : m.Indexed)
    (hops : ∀ op ∈ ops, op.HandsOff) :
    (m.runAll ops).Watched c (sightings c m seen ops) := by
  induction ops generalizing m seen with
  | nil => exact h
  | cons op ops ih =>
    obtain ⟨hop, hrest⟩ := List.forall_mem_cons.1 hops
    exact ih (h.run hm hop) (Follows.run hm op).indexed hrest

/-! ## The life cycle -/

/-- What an update does to the grid at `c`, of which updates before it have seen `seen`. -/
structure LifeCycle (m : WorldMap) (c : GridCoord) (seen : List Sighting) (diff : Duration) :
    Prop where
  /-- No task drops a grid. -/
  loaded : m.isLoaded c → m.served.isLoaded c
  dropped : m.served.isLoaded c → ((m.update diff).1.isLoaded c = false ↔
    ¬m.served.Near c ∧ Due m.unloadDelay (seen ++ [m.served.sighting c diff]))
  /-- A grid that is kept has come as far as its history tells. -/
  aged : ∀ {grid : Grid}, (m.update diff).1.grid? c = some grid →
    grid.Aged m.unloadDelay
      (if m.served.Near c then [] else seen ++ [m.served.sighting c diff])
  needed : m.served.isLoaded c → (m.served.Near c ∨ (m.served.sighting c diff).locked ∨
    ∃ g p, m.served.placement? g = some p ∧ p.gridCoord = c) → (m.update diff).1.isLoaded c
  placements : (m.update diff).1.placement? = m.served.placement?
  lists : ∀ {grid grid' : Grid}, m.served.grid? c = some grid →
    (m.update diff).1.grid? c = some grid' → grid'.cells = grid.cells

theorem Watched.lifeCycle (h : m.Watched c seen) (hm : m.Indexed) (diff : Duration) :
    m.LifeCycle c seen diff := by
  have hserved : m.served.Watched c seen := h.spares lasting_agedBy (writes_served m).spares
  have hconfig : m.served.config = m.config := (writes_served m).spares.config
  have hdelay : m.served.unloadDelay = m.unloadDelay := by rw [unloadDelay, hconfig, unloadDelay]
  have hdropped (hl : m.served.isLoaded c) : (m.update diff).1.isLoaded c = false ↔
      ¬m.served.Near c ∧ Due m.unloadDelay (seen ++ [m.served.sighting c diff]) := by
    obtain ⟨grid, hg⟩ := Option.isSome_iff_exists.1 hl
    rw [isLoaded, Option.isSome_eq_false_iff, Option.isNone_iff_eq_none, hm.grid?_update, hg,
      ← hdelay, ← (hserved.age hm.served hg diff).1, Option.bind_some]
    by_cases hnear : m.served.Near c
    · simp [hnear]
    · simp [hnear]
  refine ⟨fun hl => ?_, hdropped, fun {grid} hg => ?_, fun hl hneed => ?_, ?_, ?_⟩
  · obtain ⟨grid, hg⟩ := Option.isSome_iff_exists.1 hl
    obtain ⟨grid', hg', -⟩ := (writes_served m).spares.loaded hg
    rw [isLoaded, hg']
    rfl
  · have haged := (h.update hm diff).loaded hg
    have hwatch : m.watch c seen (.update diff) =
        if (m.update diff).1.isLoaded c then
          if m.served.Near c then [] else seen ++ [m.served.sighting c diff] else [] := rfl
    rw [hwatch, isLoaded, hg, Option.isSome_some, if_pos rfl, (Keeps.served m diff).config,
      hconfig] at haged
    exact haged
  · rw [← Bool.not_eq_false, hdropped hl]
    rintro ⟨hfar, hdue⟩
    obtain ⟨hfree, hvacant⟩ := hdue.last
    rcases hneed with hnear | hlocked | ⟨g, p, hp, hc⟩
    · exact hfar hnear
    · exact Bool.false_ne_true (hfree.symm.trans hlocked)
    · have hmem := hm.served.mem_occupants.2 ⟨p, hp, hc⟩
      rw [List.isEmpty_iff.1 hvacant] at hmem
      exact List.not_mem_nil hmem
  · exact (Keeps.served m diff).placement?
  · intro grid grid' hg hg'
    rw [hm.grid?_update, hg] at hg'
    split at hg'
    · cases hg'
      rfl
    · exact (Grid.SameContents.age hg').cells

/-- After any operations that leave states and countdowns to the map, the next update drops exactly
the grids that are due. -/
theorem lifeCycle_runAll (id : MapId) (config : MapConfig) {ops : List Op}
    (hops : ∀ op ∈ ops, op.HandsOff) (c : GridCoord) (diff : Duration) :
    (runAll { id, config } ops).LifeCycle c (sightings c { id, config } [] ops) diff :=
  ((watched_new id config c).runAll (indexed_new id config) hops).lifeCycle
    ((indexed_new id config).runAll ops) diff

/-- Of a grid that is locked for two updates, the countdown of 100 ms runs on afterwards. -/
theorem lifeCycle_unlocked :
    let config : MapConfig := { unloadDelay := 100 }
    let c : GridCoord := ⟨0, 0⟩
    let tick := Duration.ofMillis 60
    let ops : List Op := [.load c [], .update tick, .update tick, .update tick, .lock c true,
      .update tick, .update tick, .lock c false]
    (runAll { id := 0, config } ops).LifeCycle c (sightings c { id := 0, config } [] ops) tick ∧
      (runAll { id := 0, config } ops).isLoaded c ∧
      ((runAll { id := 0, config } ops).update tick).1.isLoaded c = false :=
  ⟨lifeCycle_runAll _ _ (by simp [Op.HandsOff]) _ _, by decide +kernel, by decide +kernel⟩

end WorldMap
end Realm
