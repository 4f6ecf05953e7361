import Realm.Proofs.Position

/-! # Areas

An area lists the cells between its corners row by row, each of them once. The area around a point
holds the cell of every coordinate in the exact square around it: the corners are rounded, but never
past a number that lies in the square. -/

namespace Realm

open Binary

/-! ## Blocks -/

namespace Coord

variable {limit : UInt32} {low high c : Coord limit} {a b n : UInt32}

theorem mem_span : n ∈ block.span a b ↔ a ≤ n ∧ n ≤ b := by
  rw [block.span, List.mem_map, UInt32.le_iff_toNat_le, UInt32.le_iff_toNat_le]
  constructor
  · rintro ⟨k, hk, rfl⟩
    have hb := b.toNat_lt
    rw [List.mem_range'_1] at hk
    rw [UInt32.toNat_ofNat']
    omega
  · intro h
    exact ⟨n.toNat, by rw [List.mem_range'_1]; omega, UInt32.ofNat_toNat⟩

theorem ordered_span (a b : UInt32) : (block.span a b).Pairwise (· < ·) := by
  refine List.pairwise_map.2
    (List.Pairwise.imp_of_mem (fun {k k'} hk hk' hlt => ?_) List.pairwise_lt_range')
  have hb := b.toNat_lt
  rw [List.mem_range'_1] at hk hk'
  rw [UInt32.lt_iff_toNat_lt, UInt32.toNat_ofNat', UInt32.toNat_ofNat']
  omega

theorem mem_block :
    c ∈ block low high ↔ (low.x ≤ c.x ∧ c.x ≤ high.x) ∧ (low.y ≤ c.y ∧ c.y ≤ high.y) := by
  simp only [block, List.mem_flatMap, List.mem_map, mem_span]
  constructor
  · rintro ⟨y, hy, x, hx, rfl⟩
    exact ⟨hx, hy⟩
  · rintro ⟨hx, hy⟩
    exact ⟨c.y, hy, c.x, hx, rfl⟩

/-- Row by row, and in each row column by column. -/
def RowMajor (c d : Coord limit) : Prop := c.y < d.y ∨ c.y = d.y ∧ c.x < d.x

theorem RowMajor.ne {c d : Coord limit} (h : c.RowMajor d) : c ≠ d := by
  rintro rfl
  rcases h with hy | ⟨-, hx⟩
  · exact UInt32.lt_irrefl _ hy
  · exact UInt32.lt_irrefl _ hx

theorem ordered_block (low high : Coord limit) : (block low high).Pairwise RowMajor := by
  refine List.pairwise_flatMap.2
    ⟨fun y _ => ?_, (ordered_span ..).imp fun {y y'} hlt c hc c' hc' => ?_⟩
  · exact List.pairwise_map.2 ((ordered_span ..).imp fun hlt => .inr ⟨rfl, hlt⟩)
  · obtain ⟨x, -, rfl⟩ := List.mem_map.1 hc
    obtain ⟨x', -, rfl⟩ := List.mem_map.1 hc'
    exact .inl hlt

end Coord

namespace Area

theorem mem_cells {a : Area} {c : CellCoord} : c ∈ a.cells ↔ a.Contains c := Coord.mem_block

theorem ordered_cells (a : Area) : a.cells.Pairwise Coord.RowMajor := Coord.ordered_block ..

theorem nodup_cells (a : Area) : a.cells.Nodup := a.ordered_cells.imp Coord.RowMajor.ne

end Area

/-! ## Squares -/

namespace Geometry

variable {centre radius c lo hi : Single}

/-- In exact numbers `c` is at most `radius` away from `centre`. -/
def Reaches (centre radius c : Single) : Prop :=
  ∃ v vc vr, c.value? = some v ∧ centre.value? = some vc ∧ radius.value? = some vr ∧
    |v - vc| ≤ vr

/-- Rounding the ends of a segment leaves no number of the segment outside. -/
theorem Reaches.bounds (h : Reaches centre radius c) :
    centre + -radius ≤ c ∧ c ≤ centre + radius := by
  obtain ⟨v, vc, vr, hv, hvc, hvr, habs⟩ := h
  obtain ⟨hlow, hhigh⟩ := abs_le.1 habs
  obtain ⟨s, hs⟩ := add_eq_round hvc hvr
  obtain ⟨s', hs'⟩ := add_eq_round (y := -radius) hvc (value?_neg hvr)
  rw [hs, hs']
  exact ⟨round_le hv (by linarith) s', le_round hv (by linarith) s⟩

theorem Reaches.same (h : Reaches centre radius c) (hr : ¬0 < radius) :
    centre ≤ c ∧ c ≤ centre := by
  obtain ⟨v, vc, vr, hv, hvc, hvr, habs⟩ := h
  have hzero : (0 : Single).value? = some 0 := by decide +kernel
  obtain ⟨a, ha, -⟩ := value?_eq hvr
  obtain ⟨z, hz, -⟩ := value?_eq hzero
  have hneg : vr ≤ 0 := value_le hvr hzero (le_of_not_lt hz ha hr)
  have heq : v = vc := sub_eq_zero.1 (abs_eq_zero.1 (le_antisymm (habs.trans hneg) (abs_nonneg _)))
  have hplace : c.place? = centre.place? := by
    rw [← place?_round_value hv false, ← place?_round_value hvc false, heq]
  obtain ⟨b, hb, -⟩ := value?_eq hvc
  exact ⟨le_iff_place.2 ⟨b, b, hb, hplace.trans hb, le_refl b⟩,
    le_iff_place.2 ⟨b, b, hplace.trans hb, hb, le_refl b⟩⟩

end Geometry

/-- In exact numbers a position lies in the square around `centre` with half-side `radius`. -/
structure Position.InSquare (p centre : Position) (radius : Single) : Prop where
  x : Geometry.Reaches centre.x radius p.x
  y : Geometry.Reaches centre.y radius p.y

namespace Area

open Realm.Geometry

variable {x y x' y' radius : Single} {p centre : Position}

/-- Both corners are at the point itself, or at the ends of a finite half-side. -/
theorem around_cases (x y radius : Single) : around x y radius = ⟨corner x y, corner x y⟩ ∨
    ∃ r v, r.value? = some v ∧ 0 ≤ v ∧
      around x y radius = ⟨corner (x + -r) (y + -r), corner (x + r) (y + r)⟩ := by
  have hreach : ∃ v, (reach radius).value? = some v ∧ 0 ≤ v := by
    rw [reach]
    split
    · rename_i hr
      obtain ⟨v, hv⟩ := value_of_finite hr.1
      exact ⟨v, hv, value_le value_zero hv (le_of_lt hr.2)⟩
    · exact ⟨0, value_zero, le_rfl⟩
  obtain ⟨v, hr, hv⟩ := hreach
  unfold around
  dsimp only
  split
  · exact .inl rfl
  · exact .inr ⟨reach radius, v, hr, hv, rfl⟩

/-- A corner on the map is not cut off. -/
theorem corner_eq (hx : Between (-bound) (clamp x) bound) (hy : Between (-bound) (clamp y) bound) :
    corner x y = cellCoordAt (clamp x) (clamp y) := by
  have hcut {n : UInt32} (hn : n.toNat < 512) : min n (cellsPerMap - 1) = n :=
    if_pos (UInt32.le_iff_toNat_le.2 (Nat.le_of_lt_succ hn))
  rw [corner, Coord.normalize, cellCoordAt, hcut (toNat_cellAxis_lt hx),
    hcut (toNat_cellAxis_lt hy)]

/-- A block between two corners holds the cells of the map between them. -/
theorem contains_corners (hp : p.OnPlane) (hx : x ≤ p.x ∧ p.x ≤ x') (hy : y ≤ p.y ∧ p.y ≤ y') :
    Contains ⟨corner x y, corner x' y'⟩ p.cellCoord := by
  have hclamp {lo c hi : Single} (hc : OnMap c) (h : lo ≤ c ∧ c ≤ hi) :
      Between (-bound) (clamp lo) bound ∧ Between (-bound) (clamp hi) bound ∧
        cellAxis (clamp lo) ≤ cellAxis c ∧ cellAxis c ≤ cellAxis (clamp hi) := by
    obtain ⟨a, -, ha, -⟩ := le_iff_place.1 h.1
    obtain ⟨-, b, -, hb, -⟩ := le_iff_place.1 h.2
    have hlo := clamp_between ha
    have hhi := clamp_between hb
    exact ⟨hlo, hhi, cellAxis_mono hlo hc.between (clamp_le h.1 hc.between.low),
      cellAxis_mono hc.between hhi (le_clamp h.2 hc.between.high)⟩
  obtain ⟨hxlo, hxhi, hx⟩ := hclamp hp.1 hx
  obtain ⟨hylo, hyhi, hy⟩ := hclamp hp.2 hy
  rw [corner_eq hxlo hylo, corner_eq hxhi hyhi]
  exact ⟨hx, hy⟩

theorem around_of_pos (hfin : radius.isFinite = true) (hr : 0 < radius) :
    around x y radius = ⟨corner (x + -radius) (y + -radius), corner (x + radius) (y + radius)⟩ := by
  have hreach : reach radius = radius := if_pos ⟨hfin, hr⟩
  have hne : radius ≠ 0 := by
    intro he
    rw [he] at hr
    exact absurd hr (by decide +kernel)
  simp only [around, hreach, if_neg hne]

theorem around_of_not_pos (hr : ¬0 < radius) :
    around x y radius = ⟨corner x y, corner x y⟩ := by
  have hreach : reach radius = 0 := if_neg fun h => hr h.2
  simp only [around, hreach, if_true]

/-- The cells around a point hold every position on the map that lies in the exact square. -/
theorem contains_around (hp : p.OnPlane) (h : p.InSquare centre radius) :
    (around centre.x centre.y radius).Contains p.cellCoord := by
  by_cases hr : 0 < radius
  · obtain ⟨_, _, vr, -, -, hvr, -⟩ := h.x
    rw [around_of_pos (isFinite_of_value hvr) hr]
    exact contains_corners hp h.x.bounds h.y.bounds
  · rw [around_of_not_pos hr]
    exact contains_corners hp (h.x.same hr) (h.y.same hr)

/-- The cells around a point of the map hold its own cell, whatever the radius is. -/
theorem contains_self (hp : p.OnPlane) (radius : Single) :
    (around p.x p.y radius).Contains p.cellCoord := by
  have hle {c : Single} (hc : OnMap c) : c ≤ c := by
    obtain ⟨v, hv⟩ := value_of_finite hc.1
    exact (le_iff_value hv hv).2 le_rfl
  obtain harea | ⟨r, v, hr, hv, harea⟩ := around_cases p.x p.y radius
  · rw [harea]
    exact contains_corners hp ⟨hle hp.1, hle hp.1⟩ ⟨hle hp.2, hle hp.2⟩
  · have hself {c : Single} (hc : OnMap c) : Reaches c r c := by
      obtain ⟨w, hw⟩ := value_of_finite hc.1
      exact ⟨w, w, v, hw, hw, hr, by rwa [sub_self, abs_zero]⟩
    rw [harea]
    exact contains_corners hp (hself hp.1).bounds (hself hp.2).bounds

/-! ## Corners on the map -/

theorem corner_isValid (x y : Single) : (corner x y).IsValid :=
  Coord.normalize_isValid (by decide) _

/-- Whatever the point and the radius are, the corners are cells of the map. -/
theorem around_isValid (x y radius : Single) :
    (around x y radius).low.IsValid ∧ (around x y radius).high.IsValid := by
  obtain harea | ⟨r, -, -, -, harea⟩ := around_cases x y radius
  all_goals
    rw [harea]
    exact ⟨corner_isValid _ _, corner_isValid _ _⟩

/-- The ends of a segment are in order, unless its middle is not a number. -/
theorem ends_ordered {r : Single} {v : Rat} (hr : r.value? = some v) (hv : 0 ≤ v) (x : Single) :
    x + -r = x + r ∨ x + -r ≤ x + r := by
  cases x with
  | nan => exact .inl rfl
  | infinite negative =>
    cases r with
    | nan | infinite => exact nomatch hr
    | finite => exact .inl rfl
  | finite negative rank =>
    obtain ⟨s, hs⟩ := add_eq_round (x := .finite negative rank) rfl hr
    obtain ⟨s', hs'⟩ := add_eq_round (x := .finite negative rank) (y := -r) rfl (value?_neg hr)
    rw [hs, hs']
    exact .inr (round_mono (by linarith) s' s)

theorem corner_ordered {x x' y y' : Single} (hx : x = x' ∨ x ≤ x') (hy : y = y' ∨ y ≤ y') :
    (corner x y).x ≤ (corner x' y').x ∧ (corner x y).y ≤ (corner x' y').y := by
  have hcut {c c' : Single} (h : c = c' ∨ c ≤ c') :
      min (cellAxis (clamp c)) (cellsPerMap - 1) ≤ min (cellAxis (clamp c')) (cellsPerMap - 1) := by
    rcases h with rfl | h
    · exact UInt32.le_refl _
    · exact Coord.min_mono (cellAxis_clamp_mono h) _
  exact ⟨hcut hx, hcut hy⟩

theorem around_ordered (x y radius : Single) :
    (around x y radius).low.x ≤ (around x y radius).high.x ∧
      (around x y radius).low.y ≤ (around x y radius).high.y := by
  obtain harea | ⟨r, v, hr, hv, harea⟩ := around_cases x y radius
  · rw [harea]
    exact corner_ordered (.inl rfl) (.inl rfl)
  · rw [harea]
    exact corner_ordered (ends_ordered hr hv x) (ends_ordered hr hv y)

/-- An area that ends on the map overlaps grids of the map alone. -/
theorem isValid_of_mem_grids {a : Area} {c : GridCoord} (ha : a.high.IsValid) (hc : c ∈ a.grids) :
    c.IsValid := by
  obtain ⟨⟨-, hx⟩, -, hy⟩ := Coord.mem_block.1 hc
  obtain ⟨hgx, hgy⟩ := CellCoord.gridCoord_isValid.2 ha
  exact ⟨UInt32.lt_of_le_of_lt hx hgx, UInt32.lt_of_le_of_lt hy hgy⟩

/-- An area overlaps the grids of its cells. -/
theorem gridCoord_mem_grids {a : Area} {c : CellCoord} (h : a.Contains c) :
    CellCoord.gridCoord c ∈ a.grids := by
  have hdiv {m n : UInt32} (hmn : m ≤ n) : m / cellsPerGrid ≤ n / cellsPerGrid := by
    rw [UInt32.le_iff_toNat_le, UInt32.toNat_div, UInt32.toNat_div]
    exact Nat.div_le_div_right (UInt32.le_iff_toNat_le.1 hmn)
  obtain ⟨⟨hxlow, hxhigh⟩, hylow, hyhigh⟩ := h
  exact Coord.mem_block.2 ⟨⟨hdiv hxlow, hdiv hxhigh⟩, hdiv hylow, hdiv hyhigh⟩

/-- What the area around a point is: two corners on the map and in order, whatever the numbers are,
and between them the cells of the exact square as far as it lies on the map, the cell of the point
itself among them. -/
structure Encloses (a : Area) (x y radius : Single) : Prop where
  valid : a.low.IsValid ∧ a.high.IsValid
  ordered : a.low.x ≤ a.high.x ∧ a.low.y ≤ a.high.y
  square : ∀ x' y', OnMap x' → OnMap y' → Reaches x radius x' → Reaches y radius y' →
    a.Contains (cellCoordAt x' y')
  middle : OnMap x → OnMap y → a.Contains (cellCoordAt x y)

theorem encloses_around (x y radius : Single) : (around x y radius).Encloses x y radius where
  valid := around_isValid x y radius
  ordered := around_ordered x y radius
  square x' y' hx' hy' hx hy := by
    have hplane : (Position.flat x' y').OnPlane := ⟨hx', hy'⟩
    have hsquare : (Position.flat x' y').InSquare (.flat x y) radius := ⟨hx, hy⟩
    have hcontains := contains_around hplane hsquare
    exact hcontains
  middle hx hy := contains_self (p := .flat x y) ⟨hx, hy⟩ radius

end Area
end Realm
