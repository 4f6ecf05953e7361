import Mathlib.Data.List.FinRange
import Realm.Grid.Basic
import Realm.Proofs.Roster

/-! # What a grid holds

A grid is a table of rosters, one for each cell, scope and kind. Whatever is done to its contents
replaces one of these rosters, and a sound grid counts what the rosters hold. -/

namespace Realm

theorem Kind.index_inj {a b : Kind} : a.index = b.index ↔ a = b :=
  ⟨fun h => Kind.rank_injective (congrArg Fin.val h), fun h => h ▸ rfl⟩

theorem Kind.index_lt (k : Kind) : k.index.val < 8 := k.index.isLt

theorem Scope.nodup_kinds (s : Scope) : s.kinds.Nodup := by
  cases s <;> decide

/-! ## Compartments and cells -/

namespace Compartment

variable {s : Scope}

theorem kinds_all : kinds s .all = s.kinds := by
  cases s <;> decide

def setRoster (c : Compartment s) (k : Kind) (r : Roster) : Compartment s :=
  ⟨c.rosters.set k.index r k.index_lt⟩

theorem roster_setRoster (c : Compartment s) (k k' : Kind) (r : Roster) :
    (c.setRoster k r).roster k' = if k' = k then r else c.roster k' := by
  simp only [roster, setRoster, Fin.getElem_fin, Vector.getElem_set, Fin.val_inj,
    Kind.index_inj, eq_comm (a := k)]

theorem insert?_of_holds (c : Compartment s) {g : Guid} (h : s.Holds g.kind) :
    c.insert? g = some (((c.roster g.kind).insert g).1,
      c.setRoster g.kind ((c.roster g.kind).insert g).2) := by
  simp only [insert?, h, if_true]
  rfl

theorem insert?_of_not_holds (c : Compartment s) {g : Guid} (h : ¬s.Holds g.kind) :
    c.insert? g = none := by
  rw [insert?, if_neg h]

theorem erase?_of_not_holds (c : Compartment s) {k : Kind} (h : ¬s.Holds k) (l : Link) :
    c.erase? k l = none := by
  rw [erase?, if_neg h]

theorem erase?_of_holds (c : Compartment s) {k : Kind} (h : s.Holds k) (l : Link) :
    c.erase? k l = ((c.roster k).erase? l).map (c.setRoster k) := by
  simp only [erase?, h, if_true]
  rfl

theorem roster_empty (k : Kind) : (∅ : Compartment s).roster k = ∅ := by
  simp [roster, EmptyCollection.emptyCollection]

end Compartment

namespace Cell

def setRoster (c : Cell) (s : Scope) (k : Kind) (r : Roster) : Cell :=
  c.set ((c.compartment s).setRoster k r)

theorem roster_setRoster (c : Cell) (s t : Scope) (k k' : Kind) (r : Roster) :
    (c.setRoster s k r).roster t k' = if t = s ∧ k' = k then r else c.roster t k' := by
  cases s <;> cases t <;> simp [setRoster, set, roster, compartment, Compartment.roster_setRoster]

theorem insert?_of_holds (c : Cell) {s : Scope} {g : Guid} (h : s.Holds g.kind) :
    c.insert? s g = some (((c.roster s g.kind).insert g).1,
      c.setRoster s g.kind ((c.roster s g.kind).insert g).2) := by
  rw [insert?, Compartment.insert?_of_holds _ h]
  rfl

theorem erase?_of_holds (c : Cell) {s : Scope} {k : Kind} (h : s.Holds k) (l : Link) :
    c.erase? s k l = ((c.roster s k).erase? l).map (c.setRoster s k) := by
  rw [erase?, Compartment.erase?_of_holds _ h, Option.map_map]
  rfl

theorem roster_empty (s : Scope) (k : Kind) : (∅ : Cell).roster s k = ∅ := by
  cases s <;> exact Compartment.roster_empty k

end Cell

/-! ## Grids -/

namespace Grid

variable {g g' : Grid} {i j : Fin 64} {c : CellCoord} {s t : Scope} {k q : Kind} {l : Link}
  {guid : Guid}

/-- The roster of a scope and kind in one of the 64 cells. -/
def roster (g : Grid) (i : Fin 64) (s : Scope) (k : Kind) : Roster := g.cells[i].roster s k

def setRoster (g : Grid) (i : Fin 64) (s : Scope) (k : Kind) (r : Roster) : Grid :=
  { g with cells := g.cells.set i (g.cells[i].setRoster s k r) }

theorem roster_setRoster (r : Roster) : (g.setRoster i s k r).roster j t q =
    if j = i ∧ t = s ∧ q = k then r else g.roster j t q := by
  simp only [roster, setRoster, Fin.getElem_fin, Vector.getElem_set, Fin.val_inj]
  rcases eq_or_ne i j with rfl | h
  · simp [Cell.roster_setRoster]
  · simp [h, Ne.symm h]

@[simp] theorem roster_setCount (n : Nat) : (g.setCount t n).roster i s k = g.roster i s k := by
  cases t <;> rfl

@[simp] theorem count_setCount (n : Nat) (mask : KindMask) :
    (g.setCount t n).count s mask = g.count s mask := by
  cases t <;> rfl

theorem objectCount_setCount (n : Nat) :
    (g.setCount t n).objectCount s = if s = t then n else g.objectCount s := by
  cases s <;> cases t <;> rfl

@[simp] theorem objectCount_setRoster (r : Roster) :
    (g.setRoster i s k r).objectCount t = g.objectCount t := by
  cases t <;> rfl

@[simp] theorem coord_setCount (n : Nat) : (g.setCount t n).coord = g.coord := by
  cases t <;> rfl

@[simp] theorem coord_setRoster (r : Roster) : (g.setRoster i s k r).coord = g.coord := rfl

theorem insert?_of_holds (h : s.Holds guid.kind) :
    g.insert? c s guid =
      some (((g.roster (CellCoord.localIndex c) s guid.kind).insert guid).1,
        (g.setRoster (CellCoord.localIndex c) s guid.kind
          ((g.roster (CellCoord.localIndex c) s guid.kind).insert guid).2).setCount s
            (g.objectCount s + 1)) := by
  rw [insert?, Cell.insert?_of_holds _ h]
  rfl

theorem insert?_of_not_holds (h : ¬s.Holds guid.kind) : g.insert? c s guid = none := by
  rw [insert?, Cell.insert?, Compartment.insert?_of_not_holds _ h]
  rfl

theorem insert?_eq_none : g.insert? c s guid = none ↔ ¬s.Holds guid.kind := by
  refine ⟨fun h hs => ?_, insert?_of_not_holds⟩
  rw [insert?_of_holds hs] at h
  exact nomatch h

/-- Whether the count comes before the entry or after it makes no difference. -/
theorem insert?_eq_add (h : s.Holds guid.kind) :
    g.insert? c s guid = some (g.add c s guid.kind guid) := by
  rw [insert?_of_holds h]
  cases s <;> rfl

theorem erase?_of_holds (h : s.Holds k) :
    g.erase? c s k l = ((g.roster (CellCoord.localIndex c) s k).erase? l).map fun r =>
      (g.setRoster (CellCoord.localIndex c) s k r).setCount s (g.objectCount s - 1) := by
  rw [erase?, Cell.erase?_of_holds _ h, Option.map_map]
  rfl

theorem erase?_eq_some : g.erase? c s k l = some g' ↔
    s.Holds k ∧ ∃ r, (g.roster (CellCoord.localIndex c) s k).erase? l = some r ∧
      (g.setRoster (CellCoord.localIndex c) s k r).setCount s (g.objectCount s - 1) = g' := by
  by_cases h : s.Holds k
  · rw [erase?_of_holds h, Option.map_eq_some_iff]
    simp only [h, true_and]
  · rw [erase?, Cell.erase?, Compartment.erase?_of_not_holds _ h]
    simp [h]

theorem isEmpty_iff : g.isEmpty = true ↔ ∀ s, g.objectCount s = 0 := by
  simp only [isEmpty, Bool.and_eq_true, decide_eq_true_eq]
  refine ⟨fun h s => ?_, fun h => ⟨h .world, h .grid⟩⟩
  cases s with
  | world => exact h.1
  | grid => exact h.2

/-! ## Counts and visits, roster by roster -/

theorem toList_cells : g.cells.toList = (List.finRange 64).map fun i => g.cells[i] := by
  apply List.ext_getElem
  · simp
  · intro n h₁ h₂
    simp

theorem count_eq (mask : KindMask) : g.count s mask =
    total (fun i => total (fun k => (g.roster i s k).size) (Compartment.kinds s mask))
      (List.finRange 64) := by
  rw [count, toList_cells, total_map]
  rfl

theorem visit_eq (mask : KindMask) : g.visit s mask =
    (List.finRange 64).flatMap fun i =>
      (Compartment.kinds s mask).flatMap fun k => (g.roster i s k).guids := by
  rw [visit, toList_cells, List.flatMap_map]
  rfl

theorem count_setRoster (h : s.Holds k) (r : Roster) :
    (g.setRoster i s k r).count s .all + (g.roster i s k).size = g.count s .all + r.size := by
  simp only [count_eq, Compartment.kinds_all]
  -- the cell counts differently because one of its rosters does, the grid because the cell does
  have hinner := total_change (fun q => (g.roster i s q).size)
    (fun q => ((g.setRoster i s k r).roster i s q).size) s.nodup_kinds h fun q _ hq => by
      simp [roster_setRoster, hq]
  have houter := total_change (fun j => total (fun q => (g.roster j s q).size) s.kinds)
    (fun j => total (fun q => ((g.setRoster i s k r).roster j s q).size) s.kinds)
    (List.nodup_finRange 64) (List.mem_finRange i) fun j _ hj => by
      simp [roster_setRoster, hj]
  simp only [roster_setRoster, and_self, if_true] at hinner houter ⊢
  omega

theorem count_setRoster_other (h : t ≠ s) (r : Roster) (mask : KindMask) :
    (g.setRoster i s k r).count t mask = g.count t mask := by
  simp [count_eq, roster_setRoster, h]

/-! ## Sound grids -/

/-- Every roster is sound and holds guids of its kind alone, and the grid counts them all. -/
structure Sound (g : Grid) : Prop where
  rosters : ∀ i s k, (g.roster i s k).Sound
  kinds : ∀ {i s k e}, e ∈ (g.roster i s k).toList → e.2.kind = k ∧ s.Holds k
  counted : ∀ s, g.objectCount s = g.count s .all

/-- The same cells and counts. -/
structure SameContents (g g' : Grid) : Prop where
  coord : g'.coord = g.coord
  cells : g'.cells = g.cells
  worldCount : g'.worldCount = g.worldCount
  gridCount : g'.gridCount = g.gridCount

theorem SameContents.refl (g : Grid) : g.SameContents g := ⟨rfl, rfl, rfl, rfl⟩

theorem SameContents.trans {g'' : Grid} (h : g.SameContents g') (h' : g'.SameContents g'') :
    g.SameContents g'' :=
  ⟨h'.coord.trans h.coord, h'.cells.trans h.cells, h'.worldCount.trans h.worldCount,
    h'.gridCount.trans h.gridCount⟩

theorem SameContents.setState (g : Grid) (state : GridState) : g.SameContents (g.setState state) :=
  ⟨rfl, rfl, rfl, rfl⟩

theorem SameContents.setRetention (g : Grid) (f : Retention → Retention) :
    g.SameContents (g.setRetention f) :=
  ⟨rfl, rfl, rfl, rfl⟩

theorem SameContents.roster (h : g.SameContents g') : g'.roster = g.roster := by
  funext i s k
  rw [Grid.roster, h.cells, Grid.roster]

theorem SameContents.objectCount (h : g.SameContents g') : g'.objectCount = g.objectCount := by
  funext s
  cases s
  · exact h.gridCount
  · exact h.worldCount

theorem SameContents.count (h : g.SameContents g') : g'.count = g.count := by
  funext s mask
  rw [Grid.count, h.cells, Grid.count]

theorem Sound.sameContents (hg : g.Sound) (h : g.SameContents g') : g'.Sound where
  rosters := h.roster ▸ hg.rosters
  kinds := h.roster ▸ hg.kinds
  counted s := by rw [h.objectCount, h.count, hg.counted]

theorem roster_empty (coord : GridCoord) (delay : Duration) (unload : Bool) :
    (Grid.empty coord delay unload).roster i s k = ∅ := by
  simp [roster, empty, Cell.roster_empty]

theorem Sound.empty (coord : GridCoord) (delay : Duration) (unload : Bool) :
    (Grid.empty coord delay unload).Sound where
  rosters i s k := by rw [roster_empty]; exact .empty
  kinds h := by rw [roster_empty, Roster.toList_empty] at h; exact nomatch h
  counted s := by
    have hcount : (Grid.empty coord delay unload).count s .all = 0 := by
      rw [count_eq, total_eq_zero]
      intro i _
      rw [total_eq_zero]
      intro k _
      rw [roster_empty]
      rfl
    cases s <;> rw [hcount] <;> rfl

/-- The rosters of a grid that counts no objects have no entries. -/
theorem toList_of_isEmpty (hg : g.Sound) (h : g.isEmpty = true) :
    (g.roster i s k).toList = [] := by
  rw [List.eq_nil_iff_forall_not_mem]
  intro e he
  have hcount : g.count s .all = 0 := by
    rw [← hg.counted]
    exact isEmpty_iff.1 h s
  rw [count_eq, total_eq_zero] at hcount
  have hcell := hcount i (List.mem_finRange i)
  rw [Compartment.kinds_all, total_eq_zero] at hcell
  have hsize := hcell k (hg.kinds he).2
  rw [Roster.toList_of_size_zero (hg.rosters i s k) hsize] at he
  exact nomatch he

theorem Sound.setRoster (hg : g.Sound) (hs : s.Holds k) {r : Roster} (hr : r.Sound)
    (hk : ∀ e ∈ r.toList, e.2.kind = k) {n : Nat}
    (hn : n + (g.roster i s k).size = g.objectCount s + r.size) :
    ((g.setRoster i s k r).setCount s n).Sound where
  rosters j t q := by
    rw [roster_setCount, roster_setRoster]
    split
    · exact hr
    · exact hg.rosters j t q
  kinds {j t q e} h := by
    rw [roster_setCount, roster_setRoster] at h
    split at h
    · rename_i he
      obtain ⟨-, rfl, rfl⟩ := he
      exact ⟨hk e h, hs⟩
    · exact hg.kinds h
  counted t := by
    rw [count_setCount, objectCount_setCount, objectCount_setRoster]
    have hsame := count_setRoster (g := g) (i := i) hs r
    split
    · rename_i ht
      subst ht
      have := hg.counted t
      omega
    · rename_i ht
      rw [count_setRoster_other ht, hg.counted]

/-! ## One entry more, one entry less -/

theorem toList_setRoster {f : List (Link × Guid) → List (Link × Guid)} {r : Roster} {n : Nat}
    (hr : r.toList = f (g.roster i s k).toList) :
    (((g.setRoster i s k r).setCount s n).roster j t q).toList =
      if j = i ∧ t = s ∧ q = k then f (g.roster j t q).toList else (g.roster j t q).toList := by
  rw [roster_setCount, roster_setRoster]
  split
  · rename_i h
    obtain ⟨rfl, rfl, rfl⟩ := h
    exact hr
  · rfl

theorem Sound.insert? (hg : g.Sound) (hs : s.Holds guid.kind) (c : CellCoord) :
    ∃ l g', g.insert? c s guid = some (l, g') ∧ g'.Sound ∧ g'.coord = g.coord ∧
      ∀ j t q, (g'.roster j t q).toList =
        if j = CellCoord.localIndex c ∧ t = s ∧ q = guid.kind
        then (g.roster j t q).toList ++ [(l, guid)] else (g.roster j t q).toList := by
  have hr := hg.rosters (CellCoord.localIndex c) s guid.kind
  refine ⟨_, _, insert?_of_holds hs, hg.setRoster hs (hr.insert guid) ?_ ?_, by simp,
    fun j t q => toList_setRoster (f := fun es => es ++ [_]) (Roster.toList_insert hr guid)⟩
  · intro e he
    rw [Roster.toList_insert hr, List.mem_append, List.mem_singleton] at he
    rcases he with he | rfl
    · exact (hg.kinds he).1
    · rfl
  · rw [Roster.size_insert]; omega

theorem Sound.erase? (hg : g.Sound)
    (hl : (l, guid) ∈ (g.roster (CellCoord.localIndex c) s k).toList) :
    ∃ g', g.erase? c s k l = some g' ∧ g'.Sound ∧ g'.coord = g.coord ∧
      ∀ j t q, (g'.roster j t q).toList =
        if j = CellCoord.localIndex c ∧ t = s ∧ q = k
        then (g.roster j t q).toList.filter (·.1 ≠ l) else (g.roster j t q).toList := by
  have hr := hg.rosters (CellCoord.localIndex c) s k
  have hs := (hg.kinds hl).2
  obtain ⟨r', hr'⟩ : ∃ r', (g.roster (CellCoord.localIndex c) s k).erase? l = some r' := by
    rw [← Option.isSome_iff_exists, Roster.isSome_erase?, (Roster.mem_toList hr).1 hl]
    rfl
  have hsize := Roster.size_erase? hr hr'
  have hcount := count_setRoster (g := g) (i := CellCoord.localIndex c) hs r'
  have hcounted := hg.counted s
  refine ⟨_, by rw [erase?_of_holds hs, hr']; rfl, hg.setRoster hs (hr.erase? hr') ?_ ?_, by simp,
    fun j t q => toList_setRoster (f := fun es => es.filter (·.1 ≠ l))
      (Roster.toList_erase? hr hr')⟩
  · intro e he
    rw [Roster.toList_erase? hr hr', List.mem_filter] at he
    exact (hg.kinds he.1).1
  · omega

end Grid
end Realm
