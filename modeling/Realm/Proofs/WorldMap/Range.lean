import Realm.Proofs.Area
import Realm.Proofs.WorldMap.Consistency
import Realm.WorldMap.Query

/-! # Range queries

A range query looks at the cells around its centre and finds every object of the map that is near
and has its place there, each once. An object in the exact square around the centre has. -/

namespace Realm.WorldMap

variable {m : WorldMap} {c : CellCoord} {a : Area} {s : Scope} {k : Kind} {g : Guid}
  {mask : KindMask} {p p' : Placement} {centre : Position} {radius : Single}

/-! Nothing is found twice: an object has one placement, and that tells where it is found. -/

theorem eq_of_placement? (hp : m.placement? g = some p) (hp' : m.placement? g = some p') :
    p = p' :=
  Option.some.inj (hp.symm.trans hp')

/-! ## One cell -/

theorem visitCell_eq (m : WorldMap) (c : CellCoord) (s : Scope) (mask : KindMask) :
    m.visitCell c s mask =
      (Compartment.kinds s mask).flatMap fun k => (m.listed c s k).map (·.2) := by
  rw [visitCell]
  cases hg : m.grid? (CellCoord.gridCoord c) with
  | none => simp [listed, hg]
  | some grid =>
    simp only [listed_of_grid? hg, ← Roster.guids_eq_map_toList]
    rfl

theorem mem_kinds : k ∈ Compartment.kinds s mask ↔ s.Holds k ∧ mask.has k = true :=
  List.mem_filter

/-- A cell shows the objects whose placements name it. -/
theorem Indexed.mem_visitCell (h : m.Indexed) : g ∈ m.visitCell c s mask ↔
    ∃ p, m.placement? g = some p ∧ p.cell = c ∧ p.scope = s ∧ mask.has g.kind = true := by
  simp only [visitCell_eq, List.mem_flatMap, List.mem_map, mem_kinds, Prod.exists, exists_eq_right,
    h.entry]
  constructor
  · rintro ⟨k, ⟨-, hk⟩, l, p, hp, hc, hs, rfl, -⟩
    exact ⟨p, hp, hc, hs, hk⟩
  · rintro ⟨p, hp, rfl, rfl, hk⟩
    obtain ⟨rfl, hfits⟩ := h.fits hp
    exact ⟨_, ⟨hfits.held, hk⟩, _, p, hp, rfl, rfl, rfl, rfl⟩

theorem Shelved.nodup_listed (h : m.Shelved) (c : CellCoord) (s : Scope) (k : Kind) :
    (m.listed c s k).Nodup := by
  cases hg : m.grid? (CellCoord.gridCoord c) with
  | none => simp [listed, hg]
  | some grid =>
    rw [listed_of_grid? hg]
    exact Roster.nodup_toList ((h.sound (grid?_eq_some.1 hg).2).rosters _ _ _)

theorem Indexed.nodup_visitCell (h : m.Indexed) (c : CellCoord) (s : Scope) (mask : KindMask) :
    (m.visitCell c s mask).Nodup := by
  rw [visitCell_eq]
  refine nodup_gather (s.nodup_kinds.filter _) (fun k _ => ?_) fun k _ k' _ g hg hg' => ?_
  · refine (h.nodup_listed c s k).map_on ?_
    rintro ⟨l, g⟩ hl ⟨l', g'⟩ hl' rfl
    obtain ⟨p, hp, -, -, -, rfl⟩ := h.entry.1 hl
    obtain ⟨p', hp', -, -, -, rfl⟩ := h.entry.1 hl'
    rw [eq_of_placement? hp hp']
  · obtain ⟨⟨l, g⟩, hl, rfl⟩ := List.mem_map.1 hg
    obtain ⟨⟨l', g'⟩, hl', rfl⟩ := List.mem_map.1 hg'
    exact (h.kinds hl).1.symm.trans (h.kinds hl').1

/-! ## The cells of an area -/

theorem Indexed.mem_visit (h : m.Indexed) : g ∈ m.visit a s mask ↔
    ∃ p, m.placement? g = some p ∧ a.Contains p.cell ∧ p.scope = s ∧ mask.has g.kind = true := by
  simp only [visit, List.mem_flatMap, Area.mem_cells, h.mem_visitCell]
  constructor
  · rintro ⟨c, hc, p, hp, rfl, hs, hk⟩
    exact ⟨p, hp, hc, hs, hk⟩
  · rintro ⟨p, hp, hc, hs, hk⟩
    exact ⟨p.cell, hc, p, hp, rfl, hs, hk⟩

theorem Indexed.nodup_visit_area (h : m.Indexed) (a : Area) (s : Scope) (mask : KindMask) :
    (m.visit a s mask).Nodup := by
  refine nodup_gather a.nodup_cells (fun c _ => h.nodup_visitCell c s mask)
    fun c _ c' _ g hg hg' => ?_
  obtain ⟨p, hp, rfl, -⟩ := h.mem_visitCell.1 hg
  obtain ⟨p', hp', rfl, -⟩ := h.mem_visitCell.1 hg'
  rw [eq_of_placement? hp hp']

/-! ## Queries -/

/-- A query finds what is near and placed in the cells that it looks at. -/
theorem Indexed.mem_inRange (h : m.Indexed) : g ∈ m.inRange centre radius mask ↔
    ∃ p, m.placement? g = some p ∧ mask.has g.kind = true ∧ p.position.Within centre radius ∧
      (Area.around centre.x centre.y radius).Contains p.cell := by
  simp only [inRange, List.mem_filter, List.mem_flatMap, h.mem_visit, isNear]
  constructor
  · rintro ⟨⟨s, -, p, hp, hc, -, hk⟩, hnear⟩
    rw [hp] at hnear
    exact ⟨p, hp, hk, of_decide_eq_true hnear, hc⟩
  · rintro ⟨p, hp, hk, hnear, hc⟩
    have hscope : p.scope ∈ [Scope.world, .grid] := by cases p.scope <;> simp
    refine ⟨⟨p.scope, hscope, p, hp, hc, rfl, hk⟩, ?_⟩
    rw [hp]
    exact decide_eq_true hnear

theorem Indexed.nodup_inRange (h : m.Indexed) (centre : Position) (radius : Single)
    (mask : KindMask) : (m.inRange centre radius mask).Nodup := by
  refine List.Nodup.filter _ (nodup_gather (by simp) (fun s _ => h.nodup_visit_area _ s mask)
    fun s _ s' _ g hg hg' => ?_)
  obtain ⟨p, hp, -, rfl, -⟩ := h.mem_visit.1 hg
  obtain ⟨p', hp', -, rfl, -⟩ := h.mem_visit.1 hg'
  rw [eq_of_placement? hp hp']

/-- What a query finds: each object once, nothing that is not near, and all that is near and lies
in the exact square around the centre. -/
structure Finds (m : WorldMap) (centre : Position) (radius : Single) (mask : KindMask)
    (found : List Guid) : Prop where
  once : found.Nodup
  near : ∀ g ∈ found, ∃ p, m.placement? g = some p ∧ mask.has g.kind = true ∧
    p.position.Within centre radius
  all : ∀ g p, m.placement? g = some p → mask.has g.kind = true →
    p.position.Within centre radius → p.position.InSquare centre radius → g ∈ found

theorem Indexed.finds (h : m.Indexed) (centre : Position) (radius : Single) (mask : KindMask) :
    m.Finds centre radius mask (m.inRange centre radius mask) where
  once := h.nodup_inRange centre radius mask
  near g hg := by
    obtain ⟨p, hp, hk, hnear, -⟩ := h.mem_inRange.1 hg
    exact ⟨p, hp, hk, hnear⟩
  all g p hp hk hnear hsquare := by
    obtain ⟨-, hfits⟩ := h.fits hp
    refine h.mem_inRange.2 ⟨p, hp, hk, hnear, ?_⟩
    rw [hfits.cell]
    exact Area.contains_around hfits.valid.1.1 hsquare

/-- On a map after any operations, a query finds all that is near, but for what only rounding brings
near. -/
theorem finds_runAll (id : MapId) (config : MapConfig) (ops : List Op) (centre : Position)
    (radius : Single) (mask : KindMask) :
    (runAll { id, config } ops).Finds centre radius mask
      ((runAll { id, config } ops).inRange centre radius mask) :=
  ((indexed_new id config).runAll ops).finds centre radius mask

namespace Border

def post : Position := .flat (-200) 0

/-- The first coordinate of a cell. -/
def stone : Position := .flat Geometry.cellSize 0

/-- A little less than the way from the post to the stone. The way is rounded to it. -/
def gap : Single := Geometry.cellSize * 4

def atPost : Guid := ⟨.creature, 1⟩

def atStone : Guid := ⟨.creature, 2⟩

def map : WorldMap :=
  runAll { id := 0, config := {} } [.add atPost post .grid, .add atStone stone .grid]

end Border

/-- The object at the stone is near the post, yet a query from the post misses it. A query from the
stone finds the one at the post. -/
theorem inRange_misses :
    Border.post.IsValid ∧ Border.gap.isFinite = true ∧ 0 ≤ Border.gap ∧
    (∃ p, Border.map.placement? Border.atStone = some p ∧
      p.position.Within Border.post Border.gap) ∧
    KindMask.all.has Border.atStone.kind = true ∧
    Border.map.inRange Border.post Border.gap .all = [Border.atPost] ∧
    Border.map.inRange Border.stone Border.gap .all = [Border.atPost, Border.atStone] :=
  ⟨by decide +kernel, by decide +kernel, by decide +kernel,
    ⟨(Border.map.placement? Border.atStone).get (by decide +kernel), by simp, by decide +kernel⟩,
    by decide +kernel, by decide +kernel, by decide +kernel⟩

end Realm.WorldMap
