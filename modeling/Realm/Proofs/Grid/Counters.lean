import Realm.Proofs.Grid.Contents

/-! # The counters of a grid

Whoever holds a grid may enter guids into its cells and take entries out, with any link, right or
wrong. The counters follow what the rosters hold all the same. -/

namespace Realm

/-- The length of lists put together. -/
theorem total_length {α β : Type} (f : α → List β) (items : List α) :
    total (fun x => (f x).length) items = (items.flatMap f).length := by
  induction items with
  | nil => rfl
  | cons x items ih => rw [total_cons, ih, List.flatMap_cons, List.length_append]

theorem Compartment.mem_kinds_all {s : Scope} {k : Kind} : k ∈ kinds s .all ↔ s.Holds k := by
  rw [kinds_all]
  rfl

namespace Grid

variable {g g' : Grid} {i : Fin 64} {c : CellCoord} {s t : Scope} {k q : Kind} {l : Link}
  {guid : Guid} {mask : KindMask}

/-! ## Edits -/

/-- What a caller may do to the contents of a grid. -/
inductive Edit where
  | add (c : CellCoord) (s : Scope) (guid : Guid) (held : s.Holds guid.kind)
  | insert (c : CellCoord) (s : Scope) (guid : Guid)
  | erase (c : CellCoord) (s : Scope) (k : Kind) (l : Link)

/-- A grid after an edit. One that is refused changes nothing. -/
def Edit.run (g : Grid) : Edit → Grid
  | .add c s guid _ => (g.add c s guid.kind guid).2
  | .insert c s guid => ((g.insert? c s guid).map (·.2)).getD g
  | .erase c s k l => (g.erase? c s k l).getD g

def edit (g : Grid) (edits : List Edit) : Grid := edits.foldl Edit.run g

/-- An insertion enters its guid in one roster and counts it. -/
theorem Sound.add (hg : g.Sound) (hs : s.Holds guid.kind) (c : CellCoord) :
    (g.add c s guid.kind guid).2.Sound := by
  obtain ⟨l, g', hins, hsound, -⟩ := hg.insert? hs c
  rw [insert?_eq_add hs] at hins
  cases hins
  exact hsound

/-- Whatever a link leads to, a removal takes it out of its roster and counts it no more. -/
theorem Sound.of_erase? (hg : g.Sound) (h : g.erase? c s k l = some g') : g'.Sound := by
  obtain ⟨hs, r, hr, -⟩ := erase?_eq_some.1 h
  obtain ⟨guid, hget⟩ := Option.isSome_iff_exists.1 (Roster.erase?_eq_some.1 hr).1
  have hmem := (Roster.mem_toList (hg.rosters (CellCoord.localIndex c) s k)).2 hget
  obtain ⟨g'', herase, hsound, -⟩ := hg.erase? hmem
  rw [h] at herase
  cases herase
  exact hsound

theorem Sound.run (hg : g.Sound) (e : Edit) : (e.run g).Sound := by
  cases e with
  | add c s guid held => exact hg.add held c
  | insert c s guid =>
    rw [Edit.run]
    by_cases hs : s.Holds guid.kind
    · rw [insert?_eq_add hs]
      exact hg.add hs c
    · rw [insert?_of_not_holds hs]
      exact hg
  | erase c s k l =>
    rw [Edit.run]
    cases h : g.erase? c s k l with
    | none => exact hg
    | some g' => exact hg.of_erase? h

theorem Sound.edit (hg : g.Sound) (edits : List Edit) : (g.edit edits).Sound := by
  induction edits generalizing g with
  | nil => exact hg
  | cons e edits ih => exact ih (hg.run e)

/-! ## Visits -/

theorem mem_guids {r : Roster} : guid ∈ r.guids ↔ ∃ l, (l, guid) ∈ r.toList := by
  simp [Roster.guids_eq_map_toList]

theorem mem_visit : guid ∈ g.visit s mask ↔
    ∃ i k l, k ∈ Compartment.kinds s mask ∧ (l, guid) ∈ (g.roster i s k).toList := by
  simp only [visit_eq, List.mem_flatMap, List.mem_finRange, true_and, mem_guids]
  constructor
  · rintro ⟨i, k, hk, l, hl⟩
    exact ⟨i, k, l, hk, hl⟩
  · rintro ⟨i, k, l, hk, hl⟩
    exact ⟨i, k, hk, l, hl⟩

theorem mem_visit_all : guid ∈ g.visit s .all ↔
    ∃ i k l, s.Holds k ∧ (l, guid) ∈ (g.roster i s k).toList := by
  simp only [mem_visit, Compartment.mem_kinds_all]

/-- A grid counts as many objects as it shows. -/
theorem Sound.length_visit (hg : g.Sound) (s : Scope) (mask : KindMask) :
    (g.visit s mask).length = g.count s mask := by
  rw [visit_eq, count_eq, ← total_length]
  refine total_congr fun i _ => ?_
  rw [← total_length]
  refine total_congr fun k _ => ?_
  rw [Roster.guids_eq_map_toList, List.length_map, Roster.length_toList (hg.rosters i s k)]

/-- A visit shows what the mask asks for and the scope may have. -/
theorem Sound.kind_of_mem_visit (hg : g.Sound) (h : guid ∈ g.visit s mask) :
    mask.has guid.kind = true ∧ s.Holds guid.kind := by
  obtain ⟨i, k, l, hk, hl⟩ := mem_visit.1 h
  obtain ⟨rfl, hs⟩ := hg.kinds hl
  exact ⟨(List.mem_filter.1 hk).2, hs⟩

/-! ## Emptiness -/

theorem count_all_eq_zero :
    g.count s .all = 0 ↔ ∀ (i : Fin 64) (k : Kind), s.Holds k → (g.roster i s k).size = 0 := by
  simp only [count_eq, total_eq_zero, Compartment.kinds_all, List.mem_finRange, true_imp_iff]
  rfl

theorem cell_isEmpty_iff (x : Cell) :
    x.isEmpty = true ↔ ∀ (s : Scope) (k : Kind), s.Holds k → (x.roster s k).size = 0 := by
  have hcompartment {s : Scope} (x : Compartment s) :
      x.isEmpty = true ↔ ∀ k, s.Holds k → (x.roster k).size = 0 := by
    simp only [Compartment.isEmpty, List.all_eq_true, Roster.isEmpty, decide_eq_true_eq]
    rfl
  simp only [Cell.isEmpty, Bool.and_eq_true, hcompartment]
  refine ⟨fun h s => ?_, fun h => ⟨h .world, h .grid⟩⟩
  cases s with
  | world => exact h.1
  | grid => exact h.2

theorem Sound.isEmpty_iff_cells (hg : g.Sound) :
    g.isEmpty = true ↔ ∀ cell ∈ g.cells.toList, cell.isEmpty = true := by
  simp only [isEmpty_iff, hg.counted, count_all_eq_zero, cell_isEmpty_iff, toList_cells,
    List.forall_mem_map, List.mem_finRange, true_imp_iff]
  exact ⟨fun h i s k hs => h s i k hs, fun h s i k hs => h i s k hs⟩

/-! ## Removals -/

/-- One roster has one entry less, and its scope counts one object less. -/
structure Drops (g g' : Grid) (i : Fin 64) (s : Scope) (k : Kind) : Prop where
  counter : g'.objectCount s + 1 = g.objectCount s
  size : (g'.roster i s k).size + 1 = (g.roster i s k).size
  otherCounter : ∀ t, t ≠ s → g'.objectCount t = g.objectCount t
  otherRosters : ∀ j t q, ¬(j = i ∧ t = s ∧ q = k) → g'.roster j t q = g.roster j t q

theorem Sound.drops (hg : g.Sound) (h : g.erase? c s k l = some g') :
    Drops g g' (CellCoord.localIndex c) s k := by
  obtain ⟨hs, r, hr, rfl⟩ := erase?_eq_some.1 h
  have hsize := Roster.size_erase? (hg.rosters _ _ _) hr
  have hcount := count_setRoster (g := g) (i := CellCoord.localIndex c) hs r
  -- the entry was counted, and so the counter is not zero
  have hpos : g.objectCount s - 1 + 1 = g.objectCount s := by
    rw [hg.counted]
    omega
  refine ⟨?_, ?_, fun t ht => ?_, fun j t q h => ?_⟩
  · rw [objectCount_setCount, if_pos rfl, hpos]
  · rw [roster_setCount, roster_setRoster, if_pos ⟨rfl, rfl, rfl⟩, hsize]
  · rw [objectCount_setCount, if_neg ht, objectCount_setRoster]
  · rw [roster_setCount, roster_setRoster, if_neg h]

/-! ## All together -/

/-- The counters of a grid, the counts of its rosters and what it shows agree. -/
structure Exact (g : Grid) : Prop where
  counters : ∀ s,
    g.objectCount s = g.count s .all ∧ g.objectCount s = (g.visit s .all).length
  counts : ∀ s mask, g.count s mask = (g.visit s mask).length
  kinds : ∀ s mask guid, guid ∈ g.visit s mask → mask.has guid.kind = true ∧ s.Holds guid.kind
  isEmpty : g.isEmpty = true ↔ ∀ cell ∈ g.cells.toList, cell.isEmpty = true
  /-- An insertion is refused if the scope may not have the kind, and then there is no new grid. -/
  refused : ∀ c s guid, g.insert? c s guid = none ↔ ¬s.Holds guid.kind
  /-- What a removal takes away was counted before. -/
  drops : ∀ c s k l g', g.erase? c s k l = some g' → Drops g g' (CellCoord.localIndex c) s k

theorem Sound.exact (hg : g.Sound) : g.Exact where
  counters s := ⟨hg.counted s, by rw [hg.length_visit, hg.counted]⟩
  counts s mask := (hg.length_visit s mask).symm
  kinds _ _ _ := hg.kind_of_mem_visit
  isEmpty := hg.isEmpty_iff_cells
  refused _ _ _ := insert?_eq_none
  drops _ _ _ _ _ := hg.drops

/-- However a grid is edited, its counters are exact. -/
theorem exact_edit (coord : GridCoord) (delay : Duration) (unload : Bool) (edits : List Edit) :
    ((Grid.empty coord delay unload).edit edits).Exact :=
  ((Sound.empty coord delay unload).edit edits).exact

end Grid
end Realm
