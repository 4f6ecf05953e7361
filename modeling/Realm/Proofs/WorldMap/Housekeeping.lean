import Realm.Proofs.WorldMap.Shelf

/-! # Housekeeping

Loading, changing, dropping and ageing grids keeps every object and every entry. -/

namespace Realm

/-- What a caller may do to a loaded grid without touching its contents. -/
inductive Grid.Tweak where
  | state (state : GridState)
  | retention (step : Retention.Step)
  deriving DecidableEq, Repr

def Grid.tweak (g : Grid) : Grid.Tweak → Grid
  | .state state => g.setState state
  | .retention step => g.setRetention fun r => r.step step

theorem Grid.SameContents.tweaks (tweaks : List Grid.Tweak) (g : Grid) :
    g.SameContents (tweaks.foldl Grid.tweak g) := by
  induction tweaks generalizing g with
  | nil => exact .refl g
  | cons t tweaks ih =>
    refine SameContents.trans ?_ (ih _)
    cases t with
    | state state => exact .setState g state
    | retention step => exact .setRetention g fun r => r.step step

namespace WorldMap

variable {m m' : WorldMap} {c : GridCoord} {g : Grid}

/-! ## Loading -/

theorem load_of_loaded (hg : m.grid? c = some g) : m.load c = .ok (g, m) := by
  obtain ⟨hc, hi⟩ := grid?_eq_some.1 hg
  rw [load, if_neg (not_not_intro hc), hi]

/-- The grid that takes the place of one that is not loaded. -/
def freshGrid (m : WorldMap) (c : GridCoord) : Grid :=
  (Grid.empty c (.ofMillis m.config.unloadDelay.toNat) m.config.gridUnload).setState .active

theorem load_of_missing (hc : c.IsValid) (hg : m.grid? c = none) : m.load c =
    .ok (m.freshGrid c,
      { m.setGrid c (m.freshGrid c) with loadedCount := m.loadedCount + 1 }) := by
  rw [grid?_of_valid hc] at hg
  rw [load, if_neg (not_not_intro hc), hg]
  rfl

/-- A valid coordinate always gets its grid. -/
theorem load_spec (hc : c.IsValid) :
    ∃ g m', m.load c = .ok (g, m') ∧ m.Keeps m' ∧ m'.grid? c = some g := by
  cases hg : m.grid? c with
  | some g => exact ⟨g, m, load_of_loaded hg, .refl m, hg⟩
  | none =>
    have hslot : m.grids[c.id.toNat]? = none := by rw [← grid?_of_valid hc, hg]
    refine ⟨_, _, load_of_missing hc hg, .of_kept ⟨rfl, rfl, rfl, rfl⟩ ?_ ?_, ?_⟩
    · intro h
      have hnew : m.grids.contains c.id.toNat = false := by
        rw [Std.ExtTreeMap.contains_eq_isSome_getElem?, hslot]
        rfl
      rw [setGrid, Std.ExtTreeMap.size_insert, hnew, if_neg Bool.false_ne_true, h.counted]
    · intro i
      change Kept i _ (m.setGrid c _).grids[i]?
      rw [getElem?_setGrid]
      split
      · subst i
        rw [hslot]
        exact .loaded ⟨hc, rfl⟩ ((Grid.Sound.empty ..).sameContents (.setState _ _)) rfl
      · exact .refl ..
    · rw [grid?_of_valid hc]
      change (m.setGrid c _).grids[c.id.toNat]? = _
      rw [getElem?_setGrid, if_pos rfl]

theorem modifyGrid_spec (hc : c.IsValid) {f : Grid → Grid} (hf : ∀ g : Grid, g.SameContents (f g)) :
    ∃ m', m.modifyGrid c f = .ok m' ∧ m.Keeps m' := by
  obtain ⟨g, m', hl, hk, hg⟩ := load_spec (m := m) hc
  exact ⟨m'.setGrid c (f g), by rw [modifyGrid, hl]; rfl, hk.trans (.setGrid hg (hf g))⟩

theorem Keeps.modifyGrid {f : Grid → Grid} (hf : ∀ g : Grid, g.SameContents (f g))
    (h : m.modifyGrid c f = .ok m') : m.Keeps m' := by
  by_cases hc : c.IsValid
  · obtain ⟨m₁, hm, hk⟩ := modifyGrid_spec (m := m) hc hf
    rw [h] at hm
    cases hm
    exact hk
  · rw [WorldMap.modifyGrid, load, if_pos hc] at h
    exact nomatch h

theorem Keeps.lockGrid (m : WorldMap) (c : GridCoord) (on : Bool) :
    m.Keeps (m.lockGrid c on).map := by
  rw [WorldMap.lockGrid]
  split
  · exact .refl m
  · rename_i g hg
    exact .setGrid hg (.setRetention g _)

theorem notes_lockGrid (m : WorldMap) (c : GridCoord) (on : Bool) :
    (m.lockGrid c on).notes = [] := by
  rw [WorldMap.lockGrid]
  split <;> rfl

/-! ## Dropping -/

/-- A map without the grid of a coordinate. -/
def dropGrid (m : WorldMap) (c : GridCoord) : WorldMap :=
  { m with grids := m.grids.erase c.id.toNat, loadedCount := m.loadedCount - 1 }

theorem getElem?_dropGrid (m : WorldMap) (c : GridCoord) (i : Nat) :
    (m.dropGrid c).grids[i]? = if i = c.id.toNat then none else m.grids[i]? := by
  rw [dropGrid, Std.ExtTreeMap.getElem?_erase]
  simp only [Std.LawfulEqCmp.compare_eq_iff_eq, eq_comm (a := i)]

theorem counted_dropGrid (hg : m.grid? c = some g) (h : m.Shelved) :
    (m.dropGrid c).loadedCount = (m.dropGrid c).grids.size := by
  have hmem : m.grids.contains c.id.toNat = true := by
    rw [Std.ExtTreeMap.contains_eq_isSome_getElem?, (grid?_eq_some.1 hg).2]
    rfl
  rw [dropGrid, Std.ExtTreeMap.size_erase, if_pos hmem, h.counted]

theorem Shelved.loadedCount_dropGrid (h : m.Shelved) (hg : m.grid? c = some g) :
    (m.dropGrid c).loadedCount + 1 = m.loadedCount := by
  have hpos : m.grids.size ≠ 0 := fun hsize => by
    have hslot := (grid?_eq_some.1 hg).2
    rw [Std.ExtTreeMap.eq_empty_iff_size_eq_zero.2 hsize] at hslot
    exact Option.some_ne_none _ hslot.symm
  rw [dropGrid, h.counted]
  exact Nat.succ_pred hpos

theorem Shelved.dropGrid (h : m.Shelved) (hg : m.grid? c = some g) : (m.dropGrid c).Shelved := by
  have hkept {i : Nat} {x : Grid} (hx : (m.dropGrid c).grids[i]? = some x) :
      m.grids[i]? = some x := by
    rw [getElem?_dropGrid, Option.ite_none_left_eq_some] at hx
    exact hx.2
  exact ⟨fun hx => h.keyed (hkept hx), fun hx => h.sound (hkept hx), counted_dropGrid hg h⟩

theorem grid?_dropGrid (hc : c.IsValid) (c' : GridCoord) :
    (m.dropGrid c).grid? c' = if c' = c then none else m.grid? c' := by
  rw [grid?, grid?, getElem?_dropGrid]
  rcases eq_or_ne c' c with rfl | hne
  · rw [if_pos rfl, if_pos rfl, ite_self]
  · rw [if_neg hne]
    split
    · rename_i hc'
      rw [if_neg fun hi => hne (GridCoord.id_inj hc' hc hi)]
    · rfl

theorem listed_dropGrid (hc : c.IsValid) (d : CellCoord) (s : Scope) (k : Kind) :
    (m.dropGrid c).listed d s k =
      if CellCoord.gridCoord d = c then [] else m.listed d s k := by
  rcases eq_or_ne (CellCoord.gridCoord d) c with hd | hd
  · rw [if_pos hd, listed, grid?_dropGrid hc, if_pos hd]
  · rw [if_neg hd, listed, listed, grid?_dropGrid hc, if_neg hd]

theorem Keeps.dropGrid (hg : m.grid? c = some g) (he : g.isEmpty = true) :
    m.Keeps (m.dropGrid c) := by
  refine .of_kept ⟨rfl, rfl, rfl, rfl⟩ (counted_dropGrid hg) fun i => ?_
  rw [getElem?_dropGrid]
  split
  · subst i
    rw [(grid?_eq_some.1 hg).2]
    exact .dropped he
  · exact .refl ..

/-! ## The grids in an update -/

theorem Keeps.activate (m : WorldMap) (id : Nat) : m.Keeps (m.activate id) := by
  rw [WorldMap.activate]
  split
  · rename_i m' h
    exact .modifyGrid (fun g => (Grid.SameContents.setState g _).trans (.setRetention _ _)) h
  · exact .refl m

/-- An unload that is not forced drops an empty grid, or it changes nothing. -/
theorem unload_unforced (m : WorldMap) (c : GridCoord) :
    (∃ g, m.grid? c = some g ∧ g.isEmpty = true ∧
        m.unload c false = { result := .ok true, map := m.dropGrid c }) ∨
      (∀ g, m.grid? c = some g → g.isEmpty = false) ∧
        m.unload c false = { result := .ok false, map := m } := by
  rw [WorldMap.unload]
  cases hg : m.grid? c with
  | none => exact .inr ⟨fun _ h => absurd h (Option.some_ne_none _).symm, rfl⟩
  | some g =>
    dsimp only
    split
    · rename_i he
      exact .inl ⟨g, rfl, he, rfl⟩
    · rename_i he
      refine .inr ⟨fun g' h => ?_, rfl⟩
      cases h
      exact Bool.eq_false_iff.2 he

theorem Keeps.unloadAll (m : WorldMap) (cs : List GridCoord) : m.Keeps (m.unloadAll cs).2 := by
  induction cs generalizing m with
  | nil => exact .refl m
  | cons c cs ih =>
    refine Keeps.trans ?_ (ih (m.unload c false).map)
    obtain ⟨g, hg, he, hu⟩ | ⟨-, hu⟩ := m.unload_unforced c
    · rw [hu]
      exact .dropGrid hg he
    · rw [hu]
      exact .refl m

theorem getElem?_waitGrids (m : WorldMap) (active : Std.ExtTreeSet Nat compare) (diff : Duration)
    (i : Nat) : (m.waitGrids active diff).2.grids[i]? =
      m.grids[i]?.map fun g => if i ∈ active then g else (g.wait diff).1 := by
  rw [waitGrids]
  simp only [Std.ExtTreeMap.getElem?_map, Option.map_map]
  congr 1
  funext g
  exact apply_ite Prod.fst ..

theorem Keeps.waitGrids (m : WorldMap) (active : Std.ExtTreeSet Nat compare) (diff : Duration) :
    m.Keeps (m.waitGrids active diff).2 := by
  refine .of_kept ⟨rfl, rfl, rfl, rfl⟩ (fun h => ?_) fun i => ?_
  · simp only [WorldMap.waitGrids, Std.ExtTreeMap.size_map]
    exact h.counted
  · rw [getElem?_waitGrids]
    cases m.grids[i]? with
    | none => exact .none
    | some g =>
      refine .same ?_
      split
      · exact .refl g
      · exact .wait g diff

/-- A map whose grids near world-scoped objects are loaded and active. -/
def warmed (m : WorldMap) : WorldMap := m.covered.toList.foldl WorldMap.activate m

theorem Keeps.warmed (m : WorldMap) : m.Keeps m.warmed := .foldl .activate _ m

/-- The unloads of an update, counted, and the map after them. -/
def unloads (m : WorldMap) (diff : Duration) : Nat × WorldMap :=
  let waited := m.warmed.waitGrids m.covered diff
  waited.2.unloadAll waited.1

/-- What an update does to the grids once its tasks are applied. -/
def keepHouse (m : WorldMap) (diff : Duration) : WorldMap := (m.unloads diff).2

theorem Keeps.keepHouse (m : WorldMap) (diff : Duration) : m.Keeps (m.keepHouse diff) :=
  (Keeps.warmed m).trans ((Keeps.waitGrids _ _ diff).trans (.unloadAll _ _))

end WorldMap
end Realm
