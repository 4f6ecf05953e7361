import Realm.Proofs.Area

/-! # The cells and grids of an area

An area can be tested for a cell, listed cell by cell, measured, and covered by grids that are found
from its corners alone. On the map all of these speak of the same cells. -/

namespace Realm

/-! ## Sizes -/

namespace Coord

variable {limit : UInt32} {a b : UInt32}

theorem length_span (a b : UInt32) : (block.span a b).length = b.toNat + 1 - a.toNat := by
  rw [block.span, List.length_map, List.length_range']

theorem length_block (low high : Coord limit) : (block low high).length =
    (high.x.toNat + 1 - low.x.toNat) * (high.y.toNat + 1 - low.y.toNat) := by
  simp only [block, List.length_flatMap, List.length_map, length_span, List.map_const',
    List.sum_replicate_nat, Nat.mul_comm]

/-- Below the largest word, the width of a span is computed without loss. -/
theorem toNat_width (h : a ≤ b) (hb : b.toNat < 2 ^ 32 - 1) :
    (b - a + 1).toNat = b.toNat + 1 - a.toNat := by
  have hle := UInt32.le_iff_toNat_le.1 h
  rw [UInt32.toNat_add, UInt32.toNat_sub_of_le _ _ h, UInt32.toNat_one]
  omega

end Coord

namespace Area

variable {a : Area} {g : GridCoord}

theorem count_eq (hvalid : a.high.IsValid) (hx : a.low.x ≤ a.high.x) (hy : a.low.y ≤ a.high.y) :
    a.count = (a.high.x.toNat + 1 - a.low.x.toNat) * (a.high.y.toNat + 1 - a.low.y.toNat) := by
  obtain ⟨hhx, hhy⟩ := CellCoord.isValid_iff.1 hvalid
  rw [count, Coord.toNat_width hx (by omega), Coord.toNat_width hy (by omega)]

theorem isSingle_iff : a.isSingle = true ↔ a.low = a.high := decide_eq_true_iff

theorem count_eq_one_iff (hvalid : a.high.IsValid) (hx : a.low.x ≤ a.high.x)
    (hy : a.low.y ≤ a.high.y) : a.count = 1 ↔ a.low = a.high := by
  rw [count_eq hvalid hx hy, mul_eq_one]
  rw [UInt32.le_iff_toNat_le] at hx hy
  obtain ⟨⟨x, y⟩, x', y'⟩ := a
  simp only [Coord.mk.injEq, ← UInt32.toNat_inj] at hx hy ⊢
  omega

/-! ## Grids -/

/-- Between the grids of two components lie the grids of the components between them. -/
theorem exists_between_of_div {lo hi n : UInt32} (h : lo ≤ hi) (hlo : lo / cellsPerGrid ≤ n)
    (hhi : n ≤ hi / cellsPerGrid) : ∃ k, (lo ≤ k ∧ k ≤ hi) ∧ k / cellsPerGrid = n := by
  have hword := hi.toNat_lt
  simp only [UInt32.le_iff_toNat_le, UInt32.toNat_div, toNat_cellsPerGrid] at h hlo hhi
  -- the first component of the grid, or the low end if that comes later
  have hk : (UInt32.ofNat (max lo.toNat (n.toNat * 8))).toNat = max lo.toNat (n.toNat * 8) :=
    UInt32.toNat_ofNat_of_lt' (by simp only [UInt32.size]; omega)
  refine ⟨.ofNat (max lo.toNat (n.toNat * 8)), ?_, ?_⟩
  · rw [UInt32.le_iff_toNat_le, UInt32.le_iff_toNat_le, hk]
    omega
  · rw [← UInt32.toNat_inj, UInt32.toNat_div, toNat_cellsPerGrid, hk]
    omega

theorem mem_grids (hx : a.low.x ≤ a.high.x) (hy : a.low.y ≤ a.high.y) :
    g ∈ a.grids ↔ ∃ c, a.Contains c ∧ CellCoord.gridCoord c = g := by
  constructor
  · intro hg
    obtain ⟨⟨hxlow, hxhigh⟩, hylow, hyhigh⟩ := Coord.mem_block.1 hg
    obtain ⟨x, hx, hgx⟩ := exists_between_of_div hx hxlow hxhigh
    obtain ⟨y, hy, hgy⟩ := exists_between_of_div hy hylow hyhigh
    exact ⟨⟨x, y⟩, ⟨hx, hy⟩, by rw [CellCoord.gridCoord, hgx, hgy]⟩
  · rintro ⟨c, hc, rfl⟩
    exact gridCoord_mem_grids hc

theorem ordered_grids (a : Area) : a.grids.Pairwise Coord.RowMajor := Coord.ordered_block ..

/-! ## Enumerations -/

/-- All that can be asked of an area agrees on which cells it holds. -/
structure Enumerated (a : Area) : Prop where
  mem_cells : ∀ c, c ∈ a.cells ↔ a.Contains c
  nodup_cells : a.cells.Nodup
  ordered_cells : a.cells.Pairwise Coord.RowMajor
  length_cells : a.cells.length = a.count
  isSingle : a.isSingle = true ↔ a.count = 1
  mem_grids : ∀ g, g ∈ a.grids ↔ ∃ c, a.Contains c ∧ CellCoord.gridCoord c = g
  nodup_grids : a.grids.Nodup
  ordered_grids : a.grids.Pairwise Coord.RowMajor
  valid_grids : ∀ g ∈ a.grids, g.IsValid

/-- An area between two cells of the map lists the cells that it contains and the grids of these
cells, row by row and each once. -/
theorem enumerated_of_isValid (hvalid : a.low.IsValid ∧ a.high.IsValid)
    (hordered : a.low.x ≤ a.high.x ∧ a.low.y ≤ a.high.y) : a.Enumerated where
  mem_cells _ := mem_cells
  nodup_cells := a.nodup_cells
  ordered_cells := a.ordered_cells
  length_cells := by rw [cells, Coord.length_block, count_eq hvalid.2 hordered.1 hordered.2]
  isSingle := by rw [isSingle_iff, count_eq_one_iff hvalid.2 hordered.1 hordered.2]
  mem_grids _ := mem_grids hordered.1 hordered.2
  nodup_grids := a.ordered_grids.imp Coord.RowMajor.ne
  ordered_grids := a.ordered_grids
  valid_grids _ := isValid_of_mem_grids hvalid.2

/-- Six cells where four grids meet. -/
theorem enumerated_crossing :
    let a : Area := ⟨⟨6, 7⟩, ⟨8, 8⟩⟩
    (a.low.IsValid ∧ a.high.IsValid) ∧ (a.low.x ≤ a.high.x ∧ a.low.y ≤ a.high.y) ∧
      a.Enumerated ∧ a.count = 6 ∧ a.grids = [⟨0, 0⟩, ⟨1, 0⟩, ⟨0, 1⟩, ⟨1, 1⟩] :=
  ⟨by decide, by decide, enumerated_of_isValid (by decide) (by decide), by decide, by decide⟩

end Area
end Realm
