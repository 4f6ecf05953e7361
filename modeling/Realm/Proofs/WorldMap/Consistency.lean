import Mathlib.Data.List.Perm.Basic
import Realm.Proofs.Grid.Counters
import Realm.Proofs.WorldMap.Reach

/-! # Consistency of a map

The placements of a map, the entries of its cells, the counts of its grids and the number of grids
agree with each other, whatever was asked of the map. -/

namespace Realm

variable {α β : Type}

/-! ## Lists gathered from lists -/

/-- Nothing is gathered twice if it tells where it is from. -/
theorem nodup_gather {f : α → List β} {items : List α} (hitems : items.Nodup)
    (hf : ∀ x ∈ items, (f x).Nodup)
    (hfrom : ∀ x ∈ items, ∀ y ∈ items, ∀ b, b ∈ f x → b ∈ f y → x = y) :
    (items.flatMap f).Nodup := by
  refine List.nodup_flatMap.2 ⟨hf, hitems.imp_of_mem fun {x y} hx hy hne b hbx hby => ?_⟩
  exact hne (hfrom x hx y hy b hbx hby)

/-! ## Entries and placements -/

/-- The placement of an object that is listed in the cell `i` of the grid at `c`. -/
structure Placement.Names (p : Placement) (c : GridCoord) (i : Fin 64) (s : Scope) (k : Kind)
    (l : Link) : Prop where
  grid : p.gridCoord = c
  cell : CellCoord.localIndex p.cell = i
  scope : p.scope = s
  kind : p.guid.kind = k
  link : p.link = l

namespace WorldMap

variable {m : WorldMap} {grid : Grid} {i : Fin 64} {n : Nat} {s : Scope} {k : Kind} {l : Link}
  {g : Guid} {p : Placement}

theorem mem_loadedGrids : grid ∈ m.loadedGrids ↔ ∃ n : Nat, m.grids[n]? = some grid :=
  mem_values

theorem Indexed.grid? (h : m.Indexed) (hgrid : grid ∈ m.loadedGrids) :
    m.grid? grid.coord = some grid := by
  obtain ⟨n, hn⟩ := mem_loadedGrids.1 hgrid
  obtain ⟨hv, hid⟩ := h.keyed hn
  exact grid?_eq_some.2 ⟨hv, hid ▸ hn⟩

theorem Indexed.sound_of_mem (h : m.Indexed) (hgrid : grid ∈ m.loadedGrids) : grid.Sound := by
  obtain ⟨n, hn⟩ := mem_loadedGrids.1 hgrid
  exact h.sound hn

/-- The entries of a loaded grid are links of placements. -/
theorem Indexed.names (h : m.Indexed) (hgrid : grid ∈ m.loadedGrids)
    (hl : (l, g) ∈ (grid.roster i s k).toList) :
    ∃ p, m.placement? g = some p ∧ p.Names grid.coord i s k l := by
  have hloaded := h.grid? hgrid
  have hv := (grid?_eq_some.1 hloaded).1
  have hmem : (l, g) ∈ m.listed (CellCoord.within grid.coord i) s k := by
    rw [listed_of_grid? (g := grid) (by rw [CellCoord.gridCoord_within hv]; exact hloaded),
      CellCoord.localIndex_within hv]
    exact hl
  obtain ⟨p, hp, hcell, rfl, rfl, rfl⟩ := h.entry.1 hmem
  refine ⟨p, hp, ?_, ?_, rfl, by rw [(h.fits hp).1], rfl⟩
  · rw [Placement.gridCoord, hcell, CellCoord.gridCoord_within hv]
  · rw [hcell, CellCoord.localIndex_within hv]

/-- Two entries of one object belong to one placement. -/
theorem Indexed.names_both (h : m.Indexed) {grid' : Grid} {i' : Fin 64} {s' : Scope} {k' : Kind}
    {l' : Link} (hgrid : grid ∈ m.loadedGrids) (hgrid' : grid' ∈ m.loadedGrids)
    (hl : (l, g) ∈ (grid.roster i s k).toList) (hl' : (l', g) ∈ (grid'.roster i' s' k').toList) :
    ∃ p : Placement, p.Names grid.coord i s k l ∧ p.Names grid'.coord i' s' k' l' := by
  obtain ⟨p, hp, hn⟩ := h.names hgrid hl
  obtain ⟨p', hp', hn'⟩ := h.names hgrid' hl'
  rw [hp] at hp'
  cases hp'
  exact ⟨p, hn, hn'⟩

/-- A placement that names an entry is the placement of the object listed there. -/
theorem Indexed.entry_of_names (h : m.Indexed) (hgrid : grid ∈ m.loadedGrids)
    (hp : m.placement? g = some p) (hn : p.Names grid.coord i s k l) :
    (l, g) ∈ (grid.roster i s k).toList := by
  have hself := h.listed_self hp
  have hg : CellCoord.gridCoord p.cell = grid.coord := hn.grid
  rw [listed_of_grid? (g := grid) (by rw [hg]; exact h.grid? hgrid)] at hself
  obtain ⟨rfl, -⟩ := h.fits hp
  rwa [hn.cell, hn.scope, hn.kind, hn.link] at hself

/-! ## All that the grids show -/

/-- The guids that the loaded grids show: grid after grid, first those of the world scope. -/
def shown (m : WorldMap) : List Guid :=
  m.loadedGrids.flatMap fun grid => [Scope.world, .grid].flatMap fun s => grid.visit s .all

theorem Indexed.mem_shown (h : m.Indexed) : g ∈ m.shown ↔ g ∈ m.placements.keys := by
  simp only [shown, List.mem_flatMap, Grid.mem_visit_all, Std.ExtTreeMap.mem_keys,
    Std.ExtTreeMap.mem_iff_isSome_getElem?]
  constructor
  · rintro ⟨grid, hgrid, s, -, i, k, l, -, hl⟩
    obtain ⟨p, hp, -⟩ := h.names hgrid hl
    rw [placement?] at hp
    rw [hp]
    rfl
  · intro hg
    obtain ⟨p, hp⟩ := Option.isSome_iff_exists.1 hg
    have hself := h.listed_self (g := g) hp
    obtain ⟨grid, hgrid, hl⟩ := mem_listed.1 hself
    have hscope : p.scope ∈ [Scope.world, .grid] := by cases p.scope <;> simp
    exact ⟨grid, mem_loadedGrids.2 ⟨_, (grid?_eq_some.1 hgrid).2⟩, p.scope, hscope, _, _, _,
      (h.kinds hself).2, hl⟩

theorem Indexed.map_id_loadedGrids (h : m.Indexed) :
    m.loadedGrids.map (·.coord.id.toNat) = m.grids.keys := by
  rw [loadedGrids, values_eq_map_toList, List.map_map, ← Std.ExtTreeMap.map_fst_toList_eq_keys]
  refine List.map_congr_left fun e he => ?_
  exact (h.keyed (Std.ExtTreeMap.mem_toList_iff_getElem?_eq_some.1 he)).2

theorem Indexed.nodup_loadedGrids (h : m.Indexed) : m.loadedGrids.Nodup :=
  List.Nodup.of_map _ (h.map_id_loadedGrids ▸ Std.ExtTreeMap.nodup_keys)

/-! No object is shown twice: its placement tells the grid, the scope, the cell and the kind, and in
one list it has one link. -/

theorem Indexed.nodup_guids (h : m.Indexed) (hgrid : grid ∈ m.loadedGrids) (i : Fin 64) (s : Scope)
    (k : Kind) : (grid.roster i s k).guids.Nodup := by
  have hr := (h.sound_of_mem hgrid).rosters i s k
  rw [Roster.guids_eq_map_toList]
  refine (Roster.nodup_toList hr).map_on ?_
  rintro ⟨l, g⟩ hl ⟨l', g'⟩ hl' rfl
  obtain ⟨p, hn, hn'⟩ := h.names_both hgrid hgrid hl hl'
  rw [← hn.link, ← hn'.link]

theorem Indexed.nodup_visit (h : m.Indexed) (hgrid : grid ∈ m.loadedGrids) (s : Scope) :
    (grid.visit s .all).Nodup := by
  rw [Grid.visit_eq]
  refine nodup_gather (List.nodup_finRange 64) (fun i _ => ?_) fun i _ i' _ g => ?_
  · refine nodup_gather ?_ (fun k _ => h.nodup_guids hgrid i s k) fun k _ k' _ g => ?_
    · rw [Compartment.kinds_all]
      exact s.nodup_kinds
    · simp only [Grid.mem_guids]
      rintro ⟨l, hl⟩ ⟨l', hl'⟩
      obtain ⟨p, hn, hn'⟩ := h.names_both hgrid hgrid hl hl'
      exact hn.kind.symm.trans hn'.kind
  · simp only [List.mem_flatMap, Grid.mem_guids]
    rintro ⟨k, -, l, hl⟩ ⟨k', -, l', hl'⟩
    obtain ⟨p, hn, hn'⟩ := h.names_both hgrid hgrid hl hl'
    exact hn.cell.symm.trans hn'.cell

theorem Indexed.nodup_shown (h : m.Indexed) : m.shown.Nodup := by
  refine nodup_gather h.nodup_loadedGrids (fun grid hgrid => ?_) fun grid hgrid grid' hgrid' g => ?_
  · refine nodup_gather (by simp) (fun s _ => h.nodup_visit hgrid s) fun s _ s' _ g => ?_
    simp only [Grid.mem_visit_all]
    rintro ⟨i, k, l, -, hl⟩ ⟨i', k', l', -, hl'⟩
    obtain ⟨p, hn, hn'⟩ := h.names_both hgrid hgrid hl hl'
    exact hn.scope.symm.trans hn'.scope
  · simp only [List.mem_flatMap, Grid.mem_visit_all]
    rintro ⟨s, -, i, k, l, -, hl⟩ ⟨s', -, i', k', l', -, hl'⟩
    obtain ⟨p, hn, hn'⟩ := h.names_both hgrid hgrid' hl hl'
    have hloaded := h.grid? hgrid
    rw [← hn.grid, hn'.grid, h.grid? hgrid'] at hloaded
    exact (Option.some.inj hloaded).symm

theorem Indexed.perm_shown (h : m.Indexed) : m.shown.Perm m.placements.keys :=
  (List.perm_ext_iff_of_nodup h.nodup_shown Std.ExtTreeMap.nodup_keys).2 fun _ => h.mem_shown

/-- Together the grids count the objects of the map. -/
theorem Indexed.total_count (h : m.Indexed) :
    total (fun grid => grid.count .world .all + grid.count .grid .all) m.loadedGrids =
      m.shown.length := by
  rw [shown, ← total_length]
  refine total_congr fun grid hgrid => ?_
  have hsound := h.sound (mem_loadedGrids.1 hgrid).choose_spec
  simp [hsound.length_visit]

/-! ## Slots -/

/-- How many of the places for grids are taken. -/
def occupiedSlots (m : WorldMap) : Nat :=
  (List.range (gridsPerMap.toNat * gridsPerMap.toNat)).countP fun i => m.grids[i]?.isSome

theorem Indexed.occupiedSlots (h : m.Indexed) : m.occupiedSlots = m.grids.size := by
  have hperm : ((List.range (gridsPerMap.toNat * gridsPerMap.toNat)).filter
      fun i => m.grids[i]?.isSome).Perm m.grids.keys := by
    refine (List.perm_ext_iff_of_nodup (List.nodup_range.filter _)
      Std.ExtTreeMap.nodup_keys).2 fun i => ?_
    rw [List.mem_filter, Std.ExtTreeMap.mem_keys, Std.ExtTreeMap.mem_iff_isSome_getElem?,
      and_iff_right_iff_imp, List.mem_range]
    intro hi
    obtain ⟨grid, hgrid⟩ := Option.isSome_iff_exists.1 hi
    obtain ⟨hv, rfl⟩ := h.keyed hgrid
    have hid := Coord.toNat_id hv (by simp)
    obtain ⟨hx, hy⟩ := GridCoord.isValid_iff.1 hv
    simp only [toNat_gridsPerMap] at hid ⊢
    omega
  rw [WorldMap.occupiedSlots, List.countP_eq_length_filter, hperm.length_eq,
    Std.ExtTreeMap.length_keys]

/-! ## The whole -/

/-- All that a map keeps about its objects agrees. -/
structure Consistent (m : WorldMap) : Prop where
  /-- A placement is listed where it says. -/
  placed : ∀ {g : Guid} {p : Placement}, m.placement? g = some p →
    p.guid = g ∧ p.position.IsValid ∧ p.cell = p.position.cellCoord ∧
      ∃ grid, m.grid? p.gridCoord = some grid ∧
        ((grid.cell p.cell).roster p.scope g.kind).get? p.link = some g
  /-- Every entry belongs to one placement, that of the object it leads to. -/
  entered : ∀ {grid : Grid} {i : Fin 64} {s : Scope} {k : Kind} {l : Link} {g : Guid},
    grid ∈ m.loadedGrids → (grid.roster i s k).get? l = some g →
      ∃ p, m.placement? g = some p ∧ p.Names grid.coord i s k l ∧
        ∀ g' p', m.placement? g' = some p' → p'.Names grid.coord i s k l → p' = p
  /-- The grids show every object once and nothing else. -/
  shown : m.shown.Perm m.placements.keys
  counted : total (fun grid => grid.count .world .all + grid.count .grid .all) m.loadedGrids =
    m.objectCount
  counters : ∀ {grid : Grid}, grid ∈ m.loadedGrids → ∀ s, grid.objectCount s = grid.count s .all
  loaded : m.loadedCount = m.occupiedSlots
  keyed : ∀ {n : Nat} {grid : Grid}, m.grids[n]? = some grid →
    grid.coord.IsValid ∧ grid.coord.id.toNat = n

theorem Indexed.consistent (h : m.Indexed) : m.Consistent where
  placed {g p} hp := by
    obtain ⟨rfl, hfits⟩ := h.fits hp
    refine ⟨rfl, hfits.valid, hfits.cell, ?_⟩
    obtain ⟨grid, hgrid, hl⟩ := mem_listed.1 (h.listed_self hp)
    exact ⟨grid, hgrid,
      (Roster.mem_toList ((h.sound (grid?_eq_some.1 hgrid).2).rosters _ _ _)).1 hl⟩
  entered {grid i s k l g} hgrid hl := by
    have hr := (h.sound_of_mem hgrid).rosters i s k
    obtain ⟨p, hp, hn⟩ := h.names hgrid ((Roster.mem_toList hr).2 hl)
    refine ⟨p, hp, hn, fun g' p' hp' hn' => ?_⟩
    have hl' := (Roster.mem_toList hr).1 (h.entry_of_names hgrid hp' hn')
    rw [hl] at hl'
    cases hl'
    exact Option.some.inj (hp'.symm.trans hp)
  shown := h.perm_shown
  counted := by
    rw [h.total_count, h.perm_shown.length_eq, Std.ExtTreeMap.length_keys]
    rfl
  counters hgrid := (h.sound_of_mem hgrid).counted
  loaded := by rw [h.occupiedSlots, h.counted]
  keyed := h.keyed

/-- A map is consistent after any operations. -/
theorem consistent_runAll (id : MapId) (config : MapConfig) (ops : List Op) :
    (runAll { id, config } ops).Consistent :=
  ((indexed_new id config).runAll ops).consistent

end WorldMap
end Realm
