import Realm.Proofs.WorldMap.Writes

/-! # Chronicles

An operation other than an update changes a loaded grid as it says, and no other grid but for its
contents. So what is written down of a grid from the time it is loaded can be kept up one operation
at a time. -/

namespace Realm.WorldMap

variable {α : Type} {P : MapConfig → Grid → List α → Prop} {m m' : WorldMap} {c : GridCoord}
  {grid : Grid} {op : Op} {xs ys : List α}

/-! ## One operation -/

/-- What an operation does to the state, the countdown and the locks of the grid at `c`. -/
def Op.tweaksAt (c : GridCoord) : Op → List Grid.Tweak
  | .load c' tweaks => if c' = c then tweaks else []
  | .lock c' on => if c' = c then [.retention (.pin on)] else []
  | _ => []

def Op.IsUpdate : Op → Prop
  | .update _ => True
  | _ => False

/-- An unload drops its grid or none. -/
theorem grid?_unload (m : WorldMap) (c c' : GridCoord) (force : Bool) :
    (m.unload c' force).map.grid? c = none ∨ (m.unload c' force).map.grid? c = m.grid? c := by
  have hdrop {grid' : Grid} (hg : m.grid? c' = some grid') :
      (m.dropGrid c').grid? c = none ∨ (m.dropGrid c').grid? c = m.grid? c := by
    rw [grid?_dropGrid (grid?_eq_some.1 hg).1]
    split
    · exact .inl rfl
    · exact .inr rfl
  obtain ⟨b, hu, -⟩ | ⟨grid', hg, ⟨-, hu⟩ | ⟨-, hu⟩⟩ := m.unload_cases c' force
  · rw [hu]
    exact .inr rfl
  · rw [hu]
    exact hdrop hg
  · rw [hu, grid?_evict]
    exact hdrop hg

theorem grid?_lockGrid (m : WorldMap) (c c' : GridCoord) (on : Bool) :
    (m.lockGrid c' on).map.grid? c =
      if c' = c then (m.grid? c).map (·.setRetention fun r => r.pin on) else m.grid? c := by
  rw [lockGrid]
  split
  · rename_i hmissing
    split
    · rename_i he
      rw [← he, hmissing]
      exact hmissing
    · rfl
  · rename_i old hold
    rw [grid?_setGrid (grid?_eq_some.1 hold).1]
    rcases eq_or_ne c' c with rfl | hne
    · rw [if_pos rfl, if_pos rfl, hold]
      rfl
    · rw [if_neg hne.symm, if_neg hne]

/-- The grid under a valid coordinate is loaded for the changes. -/
theorem grid?_load_run (m : WorldMap) (c c' : GridCoord) (tweaks : List Grid.Tweak) :
    ((Op.load c' tweaks).run m).map.grid? c =
      if c' = c ∧ c.IsValid then
        some (tweaks.foldl Grid.tweak ((m.grid? c).getD (m.freshGrid c)))
      else m.grid? c := by
  by_cases hc' : c'.IsValid
  · obtain ⟨m', hmod, -⟩ := modifyGrid_spec (m := m) hc' fun g => .tweaks tweaks g
    simp only [Op.run, hmod]
    rw [grid?_modifyGrid hmod]
    rcases eq_or_ne c c' with rfl | hne
    · rw [if_pos rfl, if_pos ⟨rfl, hc'⟩]
    · rw [if_neg hne, if_neg fun h => hne h.1.symm]
  · have hrefused : ((Op.load c' tweaks).run m).map = m := by
      simp only [Op.run, modifyGrid, load, if_pos hc']
      rfl
    have hother : ¬(c' = c ∧ c.IsValid) := fun h => hc' (h.1 ▸ h.2)
    rw [hrefused, if_neg hother]

/-- A grid that is loaded afterwards was loaded before or is new, and only the operation's own
changes have been made to it. -/
theorem grid?_run (hop : ¬op.IsUpdate) (hg : (op.run m).map.grid? c = some grid) :
    ((op.tweaksAt c).foldl Grid.tweak ((m.grid? c).getD (m.freshGrid c))).SameAge grid := by
  have hsame (h : m.grid? c = some grid) : ((m.grid? c).getD (m.freshGrid c)).SameAge grid := by
    rw [h]
    exact .refl grid
  cases op with
  | add g p s => exact (writes_add m g p s).spares.getD hg
  | addKind k s held g p => exact (writes_addKind m k g p s).spares.getD hg
  | remove g => exact (writes_remove m g).spares.getD hg
  | relocate g p => exact (writes_relocate m g p).spares.getD hg
  | apply t => exact (writes_apply m t).spares.getD hg
  | requeue queue => exact hsame hg
  | load c' tweaks =>
    rw [grid?_load_run] at hg
    rw [Op.tweaksAt]
    split at hg
    · rename_i hc
      cases hg
      rw [if_pos hc.1]
      exact .refl _
    · -- a loaded grid has a valid coordinate, so the changes were made to another one
      rename_i hc
      rw [if_neg fun he => hc ⟨he, (grid?_eq_some.1 hg).1⟩]
      exact hsame hg
  | unload c' force =>
    rcases grid?_unload m c c' force with h | h
    · exact nomatch hg.symm.trans h
    · exact hsame (h.symm.trans hg)
  | lock c' on =>
    have hg := (grid?_lockGrid m c c' on).symm.trans hg
    rw [Op.tweaksAt]
    split at hg
    · rename_i he
      obtain ⟨old, hold, rfl⟩ := Option.map_eq_some_iff.1 hg
      rw [if_pos he, hold]
      exact .refl _
    · rename_i hne
      rw [if_neg hne]
      exact hsame hg
  | update diff => exact (hop trivial).elim

/-! ## Chronicles -/

/-- If the grid at `c` is loaded, it is as `P` tells of it by `xs`, and nothing is told of a grid
that is not loaded. -/
structure Chronicle (P : MapConfig → Grid → List α → Prop) (m : WorldMap) (c : GridCoord)
    (xs : List α) : Prop where
  missing : m.grid? c = none → xs = []
  loaded : ∀ {grid : Grid}, m.grid? c = some grid → P m.config grid xs

/-- Nothing needs to be told of new grids, and nothing of what a grid holds. -/
structure Lasting (P : MapConfig → Grid → List α → Prop) : Prop where
  fresh : ∀ m c, P m.config (freshGrid m c) []
  sameAge : ∀ {config : MapConfig} {grid grid' : Grid} {xs : List α}, grid.SameAge grid' →
    P config grid xs → P config grid' xs

theorem chronicle_new (P : MapConfig → Grid → List α → Prop) (id : MapId) (config : MapConfig)
    (c : GridCoord) : Chronicle P { id, config } c [] where
  missing _ := rfl
  loaded hg := by simp [grid?] at hg

theorem Chronicle.getD (h : m.Chronicle P c xs) (hP : Lasting P) :
    P m.config ((m.grid? c).getD (m.freshGrid c)) xs := by
  cases hg : m.grid? c with
  | none => exact h.missing hg ▸ hP.fresh m c
  | some grid => exact h.loaded hg

theorem Chronicle.of_loaded (h : ∀ {grid}, m.grid? c = some grid → P m.config grid xs) :
    m.Chronicle P c (if m.isLoaded c then xs else []) where
  missing hg := by rw [isLoaded, hg]; rfl
  loaded hg := by rw [isLoaded, hg]; exact h hg

theorem Chronicle.spares (h : m.Chronicle P c xs) (hP : Lasting P) (hs : m.Spares m') :
    m'.Chronicle P c xs where
  missing hg' := by
    cases hg : m.grid? c with
    | none => exact h.missing hg
    | some grid =>
      obtain ⟨_, hsome, -⟩ := hs.loaded hg
      exact nomatch hg'.symm.trans hsome
  loaded hg' := by
    rw [hs.config]
    exact hP.sameAge (hs.getD hg') (h.getD hP)

/-- What `ys` tells of a grid once the operation's changes are made to it is told of the map's grid
after the operation. -/
theorem Chronicle.run (h : m.Chronicle P c xs) (hP : Lasting P) (hm : m.Indexed)
    (hop : ¬op.IsUpdate) (hys : ∀ grid, P m.config grid xs →
      P m.config ((op.tweaksAt c).foldl Grid.tweak grid) ys) :
    (op.run m).map.Chronicle P c (if (op.run m).map.isLoaded c then ys else []) := by
  refine .of_loaded fun hg => ?_
  rw [(Follows.run hm op).config]
  exact hP.sameAge (grid?_run hop hg) (hys _ (h.getD hP))

end Realm.WorldMap
