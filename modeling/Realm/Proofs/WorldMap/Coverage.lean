import Realm.Proofs.Area
import Realm.Proofs.Grid.Ageing
import Realm.Proofs.WorldMap.Consistency

/-! # Coverage

An update looks at each grid on its own. The grids near world-scoped objects are loaded and made
active, and every other loaded grid ages. So after an update the active grids are the ones that are
near. -/

namespace Realm

namespace WorldMap

variable {m m' : WorldMap} {c c' : GridCoord} {g : Grid} {diff : Duration} {ids : List Nat}
  {active : Std.ExtTreeSet Nat compare}

/-! ## Grids that are near -/

/-- The grid at `c` is needed by a world-scoped object. -/
def Near (m : WorldMap) (c : GridCoord) : Prop := c.IsValid ∧ c.id.toNat ∈ m.covered

instance (m : WorldMap) (c : GridCoord) : Decidable (m.Near c) :=
  inferInstanceAs (Decidable (_ ∧ _))

theorem mem_covered {i : Nat} : i ∈ m.covered ↔
    ∃ guid p, m.placement? guid = some p ∧ p.scope = .world ∧
      ∃ c ∈ (Area.around p.position.x p.position.y m.config.visibility).grids, c.id.toNat = i := by
  simp only [covered, Std.ExtTreeSet.mem_ofList, List.contains_iff_mem, List.mem_flatMap,
    List.mem_filter, mem_values, decide_eq_true_eq, List.mem_map]
  constructor
  · rintro ⟨p, ⟨⟨guid, hp⟩, hs⟩, hc⟩
    exact ⟨guid, p, hp, hs, hc⟩
  · rintro ⟨guid, p, hp, hs, hc⟩
    exact ⟨p, ⟨⟨guid, hp⟩, hs⟩, hc⟩

/-- The grids of the areas around world-scoped objects are near, and no others. -/
theorem near_iff : m.Near c ↔ ∃ guid p, m.placement? guid = some p ∧ p.scope = .world ∧
    c ∈ (Area.around p.position.x p.position.y m.config.visibility).grids := by
  have hvalid {p : Placement} {d : GridCoord}
      (hd : d ∈ (Area.around p.position.x p.position.y m.config.visibility).grids) : d.IsValid :=
    Area.isValid_of_mem_grids (Area.around_isValid ..).2 hd
  rw [Near, mem_covered]
  constructor
  · rintro ⟨hc, guid, p, hp, hs, d, hd, he⟩
    rw [← GridCoord.id_inj (hvalid hd) hc he]
    exact ⟨guid, p, hp, hs, hd⟩
  · rintro ⟨guid, p, hp, hs, hd⟩
    exact ⟨hvalid hd, guid, p, hp, hs, c, hd, rfl⟩

/-- A number is covered if it is that of a grid that is near. -/
theorem mem_covered_iff {i : Nat} : i ∈ m.covered ↔ ∃ c, m.Near c ∧ c.id.toNat = i := by
  constructor
  · intro hi
    obtain ⟨guid, p, hp, hs, c, hc, rfl⟩ := mem_covered.1 hi
    exact ⟨c, near_iff.2 ⟨guid, p, hp, hs, hc⟩, rfl⟩
  · rintro ⟨c, hc, rfl⟩
    exact hc.2

theorem Keeps.near (h : m.Keeps m') : m'.Near c ↔ m.Near c := by
  simp only [near_iff, h.config, h.placement?]

/-! ## What becomes of one grid -/

theorem grid?_of_not_valid (hc : ¬c.IsValid) : m.grid? c = none := if_neg hc

theorem grid?_activate (hc : c.IsValid) (c' : GridCoord) : (m.activate c.id.toNat).grid? c' =
    if c' = c then some ((m.grid? c).getD (m.freshGrid c)).activate else m.grid? c' := by
  have hid : Coord.ofId gridsPerMap (.ofNat c.id.toNat) = c := by
    rw [UInt32.ofNat_toNat]
    exact Coord.ofId_id hc (by simp)
  rw [activate, hid, modifyGrid]
  cases hg : m.grid? c with
  | some g =>
    rw [load_of_loaded hg]
    exact grid?_setGrid hc c'
  | none =>
    rw [load_of_missing hc hg]
    refine (grid?_setGrid (m := { m.setGrid c (m.freshGrid c) with
      loadedCount := m.loadedCount + 1 }) hc c').trans ?_
    split
    · rfl
    · rename_i hne
      exact (grid?_setGrid hc c').trans (if_neg hne)

theorem grid?_foldl_activate (hids : ∀ i ∈ ids, ∃ c : GridCoord, c.IsValid ∧ c.id.toNat = i)
    (hc : c.IsValid) : (ids.foldl activate m).grid? c =
      if c.id.toNat ∈ ids then some ((m.grid? c).getD (m.freshGrid c)).activate
      else m.grid? c := by
  induction ids generalizing m with
  | nil => simp
  | cons i ids ih =>
    obtain ⟨⟨d, hd, rfl⟩, hrest⟩ := List.forall_mem_cons.1 hids
    have hfresh : (m.activate d.id.toNat).freshGrid c = m.freshGrid c := by
      rw [freshGrid, (Keeps.activate m d.id.toNat).config, freshGrid]
    rw [List.foldl_cons, ih hrest, hfresh, grid?_activate hd]
    rcases eq_or_ne c d with rfl | hcd
    · -- activating a grid again changes nothing
      simp only [if_true, Option.getD_some, List.mem_cons, true_or]
      split <;> rfl
    · have hne : c.id.toNat ≠ d.id.toNat := fun he => hcd (GridCoord.id_inj hc hd he)
      simp only [if_neg hcd, List.mem_cons, hne, false_or]

theorem grid?_unload_unforced (m : WorldMap) (d c : GridCoord) : (m.unload d false).map.grid? c =
    if c = d then (m.grid? c).filter fun g => !g.isEmpty else m.grid? c := by
  obtain ⟨g, hg, he, hu⟩ | ⟨hfull, hu⟩ := m.unload_unforced d
  · rw [hu, grid?_dropGrid (grid?_eq_some.1 hg).1]
    split
    · rename_i hcd
      rw [hcd, hg, Option.filter_some, he]
      rfl
    · rfl
  · rw [hu]
    split
    · rename_i hcd
      subst hcd
      cases hg : m.grid? c with
      | none => rfl
      | some g => rw [Option.filter_some, hfull g hg]; rfl
    · rfl

theorem grid?_unloadAll (m : WorldMap) (cs : List GridCoord) (c : GridCoord) :
    (m.unloadAll cs).2.grid? c =
      if c ∈ cs then (m.grid? c).filter fun g => !g.isEmpty else m.grid? c := by
  induction cs generalizing m with
  | nil => rfl
  | cons d cs ih =>
    rw [unloadAll, ih, grid?_unload_unforced]
    by_cases hcd : c = d
    · -- to unload a grid again changes nothing
      simp only [hcd, List.mem_cons, true_or, if_true, Option.filter_filter, Bool.and_self, ite_self]
    · simp only [hcd, if_false, List.mem_cons, false_or]

/-- The grids that are due are those that no one needs and that have waited long enough. -/
theorem Shelved.mem_due (h : m.Shelved) (hc : c.IsValid) : c ∈ (m.waitGrids active diff).1 ↔
    ∃ g, m.grid? c = some g ∧ c.id.toNat ∉ active ∧ (g.wait diff).2 = true := by
  simp only [waitGrids, List.mem_map, List.mem_filter, mem_values, Std.ExtTreeMap.getElem?_map,
    Option.map_eq_some_iff]
  constructor
  · rintro ⟨_, ⟨⟨i, g, hg, rfl⟩, hdue⟩, rfl⟩
    split at hdue
    · exact absurd hdue Bool.false_ne_true
    · rename_i hfar
      obtain ⟨hv, rfl⟩ := h.keyed hg
      have hcoord : (g.wait diff).1.coord = g.coord := (Grid.SameContents.wait g diff).coord
      rw [if_neg hfar, hcoord]
      exact ⟨g, (grid?_of_valid hv).trans hg, hfar, hdue⟩
  · rintro ⟨g, hg, hfar, hdue⟩
    refine ⟨g.wait diff, ⟨⟨c.id.toNat, g, (grid?_eq_some.1 hg).2, if_neg hfar⟩, hdue⟩, ?_⟩
    rw [(Grid.SameContents.wait g diff).coord, h.coord_eq hg]

/-- Once the grids that are due are unloaded, all but the active ones have aged. -/
theorem Shelved.grid?_aged (h : m.Shelved) (hc : c.IsValid) :
    ((m.waitGrids active diff).2.unloadAll (m.waitGrids active diff).1).2.grid? c =
      (m.grid? c).bind fun g => if c.id.toNat ∈ active then some g else g.age diff := by
  rw [grid?_unloadAll, grid?_of_valid hc, getElem?_waitGrids, ← grid?_of_valid hc]
  simp only [h.mem_due hc]
  cases hg : m.grid? c with
  | none => simp
  | some g =>
    simp only [Option.map_some, Option.some.injEq, exists_eq_left', Option.bind_some]
    by_cases hact : c.id.toNat ∈ active
    · simp only [hact, not_true_eq_false, false_and, if_false, if_true]
    · cases hdue : (g.wait diff).2 with
      | false => simp [hact, hdue, Grid.age]
      | true => simp [hact, hdue, Grid.age, Grid.isEmpty_wait, (Grid.of_due hdue).2]

/-- Only numbers of grids are covered. -/
theorem exists_of_mem_covered (m : WorldMap) :
    ∀ i ∈ m.covered.toList, ∃ c : GridCoord, c.IsValid ∧ c.id.toNat = i := by
  intro i hi
  obtain ⟨c, hc, he⟩ := mem_covered_iff.1 (Std.ExtTreeSet.mem_toList.1 hi)
  exact ⟨c, hc.1, he⟩

/-- A grid that is near is loaded and active; any other one ages if it is loaded. -/
theorem Shelved.grid?_keepHouse (h : m.Shelved) (diff : Duration) (c : GridCoord) :
    (m.keepHouse diff).grid? c =
      if m.Near c then some ((m.grid? c).getD (m.freshGrid c)).activate
      else (m.grid? c).bind (·.age diff) := by
  by_cases hc : c.IsValid
  · have hnear : c.id.toNat ∈ m.covered ↔ m.Near c := (and_iff_right hc).symm
    rw [keepHouse, unloads, ((Keeps.warmed m).shelved h).grid?_aged hc, warmed,
      grid?_foldl_activate m.exists_of_mem_covered hc]
    simp only [Std.ExtTreeSet.mem_toList, hnear]
    split <;> rfl
  · have hfar : ¬m.Near c := fun h => hc h.1
    rw [grid?_of_not_valid hc, if_neg hfar, grid?_of_not_valid hc, Option.bind_none]

/-! ## Updates -/

theorem active_stats (m : WorldMap) (diff : Duration) :
    (m.update diff).2.1.active = m.served.covered.size := by
  rw [stats_update]

theorem Indexed.grid?_update (h : m.Indexed) (diff : Duration) (c : GridCoord) :
    (m.update diff).1.grid? c =
      if m.served.Near c then some ((m.served.grid? c).getD (m.served.freshGrid c)).activate
      else (m.served.grid? c).bind (·.age diff) := by
  rw [update_eq, h.served.toShelved.grid?_keepHouse]

theorem Indexed.isLoaded_update (h : m.Indexed) (diff : Duration) (c : GridCoord) :
    (m.update diff).1.isLoaded c ↔ m.served.Near c ∨
      ∃ grid, m.served.grid? c = some grid ∧ (grid.age diff).isSome := by
  rw [isLoaded, h.grid?_update]
  split
  · rename_i hnear
    simp [hnear]
  · rename_i hfar
    rw [or_iff_right hfar]
    cases m.served.grid? c <;> simp

theorem Indexed.isActive_update (h : m.Indexed) :
    (∃ g, (m.update diff).1.grid? c = some g ∧ g.state = .active) ↔
      (m.update diff).1.Near c := by
  rw [(Keeps.served m diff).near, h.grid?_update]
  constructor
  · rintro ⟨g, hg, hs⟩
    by_contra hfar
    rw [if_neg hfar, Option.bind_eq_some_iff] at hg
    obtain ⟨old, -, hold⟩ := hg
    obtain ⟨state, retention, hstate, -, rfl⟩ := Grid.age_eq_some hold
    exact hstate hs
  · intro hnear
    rw [if_pos hnear]
    exact ⟨_, rfl, rfl⟩

/-! ## The active grids -/

theorem Indexed.mem_activeGrids (h : m.Indexed) :
    c ∈ m.activeGrids ↔ ∃ g, m.grid? c = some g ∧ g.state = .active := by
  simp only [activeGrids, List.mem_map, List.mem_filter, decide_eq_true_eq]
  constructor
  · rintro ⟨g, ⟨hg, hs⟩, rfl⟩
    exact ⟨g, h.grid? hg, hs⟩
  · rintro ⟨g, hg, hs⟩
    exact ⟨g, ⟨mem_loadedGrids.2 ⟨_, (grid?_eq_some.1 hg).2⟩, hs⟩, h.coord_eq hg⟩

/-- The active grids come in the order of their numbers. -/
theorem Indexed.ordered_activeGrids (h : m.Indexed) :
    m.activeGrids.Pairwise fun a b => a.id.toNat < b.id.toNat := by
  have hloaded : m.loadedGrids.Pairwise fun a b => a.coord.id.toNat < b.coord.id.toNat := by
    rw [← List.pairwise_map, h.map_id_loadedGrids]
    exact Std.ExtTreeMap.ordered_keys.imp Nat.compare_eq_lt.1
  exact List.pairwise_map.2 (hloaded.filter _)

/-- What is active on a map, compared with what its world-scoped objects need. -/
structure Covers (m : WorldMap) (stats : UpdateStats) : Prop where
  active : ∀ c, (∃ g, m.grid? c = some g ∧ g.state = .active) ↔
    ∃ guid p, m.placement? guid = some p ∧ p.scope = .world ∧
      c ∈ (Area.around p.position.x p.position.y m.config.visibility).grids
  listed : ∀ c, c ∈ m.activeGrids ↔ ∃ g, m.grid? c = some g ∧ g.state = .active
  ordered : m.activeGrids.Pairwise fun a b => a.id.toNat < b.id.toNat
  counted : stats.active = m.activeGrids.length

theorem Indexed.covers (h : m.Indexed) (diff : Duration) :
    (m.update diff).1.Covers (m.update diff).2.1 := by
  have hm' := (Follows.update h diff).indexed
  refine ⟨fun c => h.isActive_update.trans near_iff, fun c => hm'.mem_activeGrids,
    hm'.ordered_activeGrids, ?_⟩
  -- the numbers of the active grids are the covered ones
  have hnodup : ((m.update diff).1.activeGrids.map (·.id.toNat)).Nodup :=
    List.pairwise_map.2 (hm'.ordered_activeGrids.imp Nat.ne_of_lt)
  have hperm : ((m.update diff).1.activeGrids.map (·.id.toNat)).Perm m.served.covered.toList := by
    refine (List.perm_ext_iff_of_nodup hnodup
      (Std.ExtTreeSet.ordered_toList.imp fun hlt => (Nat.compare_eq_lt.1 hlt).ne)).2 fun i => ?_
    simp only [List.mem_map, hm'.mem_activeGrids, h.isActive_update, (Keeps.served m diff).near,
      Std.ExtTreeSet.mem_toList, mem_covered_iff]
  rw [active_stats, ← Std.ExtTreeSet.length_toList, ← hperm.length_eq, List.length_map]

/-- After an update that comes after any operations, the grids that are active are those near
world-scoped objects. -/
theorem covers_runAll (id : MapId) (config : MapConfig) (ops : List Op) (diff : Duration) :
    ((runAll { id, config } ops).update diff).1.Covers
      ((runAll { id, config } ops).update diff).2.1 :=
  ((indexed_new id config).runAll ops).covers diff

/-! ## Grids of world-scoped objects -/

/-- Every world-scoped object stands in one of the grids around it, and that is active. -/
def Attended (m : WorldMap) : Prop :=
  ∀ guid p, m.placement? guid = some p → p.scope = .world →
    CellCoord.gridCoord p.cell ∈
        (Area.around p.position.x p.position.y m.config.visibility).grids ∧
      ∃ g, m.grid? (CellCoord.gridCoord p.cell) = some g ∧ g.state = .active

theorem Indexed.attended (h : m.Indexed) (diff : Duration) : (m.update diff).1.Attended := by
  intro guid p hp hs
  obtain ⟨-, hfits⟩ := (Follows.update h diff).indexed.fits hp
  have haround : CellCoord.gridCoord p.cell ∈
      (Area.around p.position.x p.position.y (m.update diff).1.config.visibility).grids := by
    rw [hfits.cell]
    exact Area.gridCoord_mem_grids (Area.contains_self hfits.valid.1.1 _)
  exact ⟨haround, h.isActive_update.2 (near_iff.2 ⟨guid, p, hp, hs, haround⟩)⟩

/-- The area around a point holds the square around it, and so an update keeps the grids of all
world-scoped objects active. -/
theorem attended_runAll (id : MapId) (config : MapConfig) (ops : List Op) (diff : Duration) :
    (∀ x y radius, (Area.around x y radius).Encloses x y radius) ∧
      ((runAll { id, config } ops).update diff).1.Attended :=
  ⟨Area.encloses_around, ((indexed_new id config).runAll ops).attended diff⟩

end WorldMap
end Realm
