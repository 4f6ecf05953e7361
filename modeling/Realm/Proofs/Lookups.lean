import Realm.Area
import Realm.Proofs.Strips

/-! # Lookups of a grid

The grid of a position is found in three ways: straight, as the grid of the position's cell, and by
counting from the high edge of the map. The second way differs from the first for a few numbers next
below the origin, where it is one grid lower. The third one differs next above every border, where
single precision does not tell a coordinate from the border; there it is one grid lower, too. -/

namespace Realm.Geometry

open Binary
open Ruler (sound_cells sound_grids)

variable {x y c : Single} {v : Rat}

/-! ## Strips of grids and cells -/

/-- The exact size of a grid. -/
def gridSide : Rat := Ruler.grids.side

theorem value_gridSize : gridSize.value? = some gridSide := sound_grids.exact

theorem gridSide_pos : 0 < gridSide := sound_grids.side_pos

theorem gridSide_eq : gridSide = 8738133 / 2 ^ 14 := by
  norm_num [gridSide, Ruler.side, Ruler.grids]

theorem side_cells : Ruler.cells.side = gridSide / (8 : Nat) := by
  norm_num [gridSide_eq, Ruler.side, Ruler.cells]

/-- A number given as a fraction has the value of the fraction, if that is held. -/
theorem value_fraction {n : Int} {i : Nat} (hn : n.natAbs < 2 ^ 24) (hi : i ≤ 149) :
    (Binary.ofRat .single (mkRat n (twoPow i))).value? = some ((n : Rat) / 2 ^ i) := by
  rw [ofRat, Rat.mkRat_eq_div, twoPow_eq, Nat.cast_pow, Nat.cast_ofNat,
    value_round (holds_single hn hi)]

theorem value_edge_grids : Ruler.grids.edge.value? = some (-35 / 2 ^ 45) := by
  exact_mod_cast value_fraction (n := -35) (i := 45) (by decide) (by decide)

theorem value_edge_cells : Ruler.cells.edge.value? = some (-267 / 2 ^ 48) := by
  exact_mod_cast value_fraction (n := -267) (i := 48) (by decide) (by decide)

theorem OnMap.gridAxis_eq (h : OnMap c) (hv : c.value? = some v) : ((gridAxis c).toNat : Int) =
    32 + if -35 / 2 ^ 45 < v ∧ v < 0 then 0 else ⌊v / gridSide⌋ := by
  have hstrip := sound_grids.strip_eq_floor h hv
  simp only [lt_iff_value value_edge_grids hv, lt_iff_value hv value_zero] at hstrip
  exact (sound_grids.toNat_axis h).trans hstrip

theorem OnMap.cellAxis_eq (h : OnMap c) (hv : c.value? = some v) : ((cellAxis c).toNat : Int) =
    256 + if -267 / 2 ^ 48 < v ∧ v < 0 then 0 else ⌊v / (gridSide / (8 : Nat))⌋ := by
  have hstrip := sound_cells.strip_eq_floor h hv
  simp only [lt_iff_value value_edge_cells hv, lt_iff_value hv value_zero, side_cells] at hstrip
  exact (sound_cells.toNat_axis h).trans hstrip

/-! ## The grid of the cell -/

/-- Among the numbers next below the origin, some are found there by their cell and not by their
grid. -/
def Torn (c : Single) : Prop := ∃ v, c.value? = some v ∧ -35 / 2 ^ 45 < v ∧ v ≤ -267 / 2 ^ 48

theorem floor_eq_of_torn (hlow : -35 / 2 ^ 45 < v) (hneg : v < 0) :
    ⌊v / (gridSide / (8 : Nat))⌋ = -1 := by
  rw [gridSide_eq, Int.floor_eq_iff, le_div_iff₀ (by norm_num), div_lt_iff₀ (by norm_num)]
  norm_num at hlow ⊢
  constructor <;> linarith

theorem OnMap.axes_of_torn (h : OnMap c) (ht : Torn c) :
    (cellAxis c).toNat = 255 ∧ (gridAxis c).toNat = 32 := by
  obtain ⟨v, hv, hlow, hhigh⟩ := ht
  have hneg : v < 0 := hhigh.trans_lt (by norm_num)
  have hgrid := h.gridAxis_eq hv
  have hcell := h.cellAxis_eq hv
  rw [if_pos ⟨hlow, hneg⟩] at hgrid
  rw [if_neg fun hin => not_lt.2 hhigh hin.1, floor_eq_of_torn hlow hneg] at hcell
  omega

theorem OnMap.cellAxis_div (h : OnMap c) (ht : ¬Torn c) :
    (cellAxis c).toNat / 8 = (gridAxis c).toNat := by
  obtain ⟨v, hv⟩ := value_of_finite h.1
  have hgrid := h.gridAxis_eq hv
  have hcell := h.cellAxis_eq hv
  by_cases hnear : -35 / 2 ^ 45 < v ∧ v < 0
  · have habove : -267 / 2 ^ 48 < v := lt_of_not_ge fun hle => ht ⟨v, hv, hnear.1, hle⟩
    rw [if_pos hnear] at hgrid
    rw [if_pos ⟨habove, hnear.2⟩] at hcell
    omega
  · have hfar : ¬(-267 / 2 ^ 48 < v ∧ v < 0) := fun hin =>
      hnear ⟨lt_trans (by norm_num) hin.1, hin.2⟩
    have hfloor : ⌊v / gridSide⌋ = ⌊v / (gridSide / (8 : Nat))⌋ / (8 : Nat) := by
      rw [← Int.floor_div_natCast, div_div, div_mul_cancel₀ _ (by norm_num)]
    rw [if_neg hnear, hfloor] at hgrid
    rw [if_neg hfar] at hcell
    omega

/-- A cell, compared with the grid of the same position. -/
structure Nested (cell : CellCoord) (grid : GridCoord) (x y : Single) : Prop where
  inside : CellCoord.gridCoord cell = grid ↔ ¬Torn x ∧ ¬Torn y
  tornX : Torn x → cell.x = 255 ∧ grid.x = 32
  tornY : Torn y → cell.y = 255 ∧ grid.y = 32

/-- The cell of a position lies in its grid, unless a coordinate is torn. -/
theorem nested_at (hx : OnMap x) (hy : OnMap y) :
    Nested (cellCoordAt x y) (gridCoordAt x y) x y := by
  have htorn {c : Single} (h : OnMap c) (ht : Torn c) : cellAxis c = 255 ∧ gridAxis c = 32 := by
    obtain ⟨hcell, hgrid⟩ := h.axes_of_torn ht
    exact ⟨UInt32.toNat_inj.1 hcell, UInt32.toNat_inj.1 hgrid⟩
  have haxis {c : Single} (h : OnMap c) : cellAxis c / cellsPerGrid = gridAxis c ↔ ¬Torn c := by
    constructor
    · intro he ht
      obtain ⟨hcell, hgrid⟩ := htorn h ht
      rw [hcell, hgrid] at he
      exact absurd he (by decide)
    · intro ht
      rw [← UInt32.toNat_inj, UInt32.toNat_div, toNat_cellsPerGrid]
      exact h.cellAxis_div ht
  refine ⟨?_, htorn hx, htorn hy⟩
  rw [← haxis hx, ← haxis hy, CellCoord.gridCoord, gridCoordAt, Coord.mk.injEq, cellCoordAt]

/-- A number among the torn ones. -/
def sliver : Single := .ofRat .single (mkRat (-17) (twoPow 44))

theorem nested_sliver : (OnMap sliver ∧ OnMap 100) ∧ Torn sliver ∧
    Nested (cellCoordAt sliver 100) (gridCoordAt sliver 100) sliver 100 :=
  ⟨by decide +kernel, ⟨-17 / 2 ^ 44, by decide +kernel, by norm_num, by norm_num⟩,
    nested_at (by decide +kernel) (by decide +kernel)⟩

/-- The cell of this position lies in the grid before its own. -/
theorem gridCoord_sliver : (OnMap sliver ∧ OnMap 100) ∧
    CellCoord.gridCoord (cellCoordAt sliver 100) = ⟨31, 32⟩ ∧ gridCoordAt sliver 100 = ⟨32, 32⟩ := by
  decide +kernel

/-! ## The grid counted from the high edge -/

/-- The quotient counted from the high edge, before its fraction is cut off. -/
def mirrored (c : Single) : Single := .ofInt .single centreGrid.toNat - c / gridSize

/-- The place counted from the high edge is rounded to the low border of the grid. -/
def Slips (c : Single) : Prop :=
  (mirrored c).value? = some ((64 - (gridAxis c).toNat : Int) : Rat)

instance (c : Single) : Decidable (Slips c) := inferInstanceAs (Decidable (_ = _))

theorem value_centreGrid : (Binary.ofInt .single centreGrid.toNat).value? = some 32 :=
  value_ofNat (by decide) (by decide)

/-- Bounds of the quotient give bounds of the place counted from the high edge. -/
theorem lies_mirrored (hv : c.value? = some v) {i : Nat} (hi : i ≤ 149) {n n' : Int}
    (hn : n.natAbs < 2 ^ 24 ∧ (32 * 2 ^ i - n).natAbs < 2 ^ 24)
    (hn' : n'.natAbs < 2 ^ 24 ∧ (32 * 2 ^ i - n').natAbs < 2 ^ 24)
    (h : (n : Rat) / 2 ^ i ≤ v / gridSide) (h' : v / gridSide ≤ (n' : Rat) / 2 ^ i) :
    (mirrored c).Lies (32 - n' / 2 ^ i) (32 - n / 2 ^ i) := by
  have hheld {n : Int} (hn : (32 * 2 ^ i - n).natAbs < 2 ^ 24) :
      Holds .single (32 - n / 2 ^ i) := by
    have hsub := holds_single hn hi
    rwa [Int.cast_sub, sub_div, Int.cast_mul, Int.cast_pow, Int.cast_ofNat, Int.cast_ofNat,
      mul_div_cancel_right₀ _ (by positivity)] at hsub
  exact ((lies_self hv).div value_gridSize gridSide_pos (holds_single hn.1 hi)
    (holds_single hn'.1 hi) h h').const_sub value_centreGrid (hheld hn'.2) (hheld hn.2) le_rfl le_rfl

/-- Next below the origin nothing is left of the quotient. -/
theorem mirrored_of_near (hv : c.value? = some v) (hlow : -35 / 2 ^ 45 < v) (hneg : v < 0) :
    (mirrored c).value? = some 32 := by
  obtain ⟨w, hw, hwlow, hwhigh⟩ : (c / gridSize).Lies ((-1 : Int) / 2 ^ 45) ((0 : Int) / 2 ^ 45) := by
    refine (lies_self hv).div value_gridSize gridSide_pos (holds_single (by decide) (by decide))
      (holds_single (by decide) (by decide)) ?_ ?_
    · rw [le_div_iff₀ gridSide_pos, gridSide_eq]
      norm_num at hlow ⊢
      linarith
    · rw [div_le_iff₀ gridSide_pos]
      push_cast
      linarith
  rw [Int.cast_zero, zero_div] at hwhigh
  have hround : (round .single false (32 + 1 / 2 ^ 45)).value? = some 32 := by decide +kernel
  obtain ⟨s, hs⟩ := sub_eq_round value_centreGrid hw
  rw [mirrored, hs]
  refine value_of_between value_centreGrid hround (le_round value_centreGrid (by linarith) s)
    (round_mono ?_ s false)
  push_cast at hwlow
  linarith

theorem OnMap.gridAxis_le (h : OnMap c) : (gridAxis c).toNat ≤ 63 :=
  Nat.le_of_lt_succ (sound_grids.toNat_axis_lt h)

/-- A coordinate lies next below the origin, or in the strip of its grid. -/
theorem OnMap.gridAxis_cases (h : OnMap c) (hv : c.value? = some v) :
    ((gridAxis c).toNat = 32 ∧ -35 / 2 ^ 45 < v ∧ v < 0) ∨
      ∃ k : Int, (gridAxis c).toNat = 32 + k ∧ k ≤ v / gridSide ∧ v / gridSide < k + 1 := by
  have hgrid := h.gridAxis_eq hv
  split at hgrid
  · rename_i hnear
    exact .inl ⟨by omega, hnear⟩
  · exact .inr ⟨⌊v / gridSide⌋, hgrid, Int.floor_le _, Int.lt_floor_add_one _⟩

/-- The place counted from the high edge lies in the strip of the grid or on its low border. -/
theorem OnMap.mirrored_lies (h : OnMap c) : (mirrored c).Lies
    ((63 - (gridAxis c).toNat : Int) : Rat) ((64 - (gridAxis c).toNat : Int) : Rat) := by
  obtain ⟨v, hv⟩ := value_of_finite h.1
  have hlast := h.gridAxis_le
  obtain ⟨hgrid, hlow, hneg⟩ | ⟨k, hgrid, hlow, hhigh⟩ := h.gridAxis_cases hv
  · rw [hgrid]
    exact ⟨32, mirrored_of_near hv hlow hneg, by norm_num, by norm_num⟩
  · have hquot : (k : Rat) / 2 ^ 0 ≤ v / gridSide := by simpa using hlow
    have hquot' : v / gridSide ≤ (k + 1 : Int) / 2 ^ 0 := by simpa using hhigh.le
    have hlies := lies_mirrored hv (by decide) (by omega) (by omega) hquot hquot'
    have hleft : (63 - (gridAxis c).toNat : Int) = 32 - (k + 1) := by omega
    have hright : (64 - (gridAxis c).toNat : Int) = 32 - k := by omega
    rw [hleft, hright, Int.cast_sub, Int.cast_sub]
    simpa using hlies

/-- Of every grid, the place next above the low border is rounded to the border. -/
theorem value_nextAbove : ∀ n : Fin 64,
    (Binary.ofInt .single centreGrid.toNat -
      round .single false (((n.val - 32 : Int) : Rat) + 1 / 2 ^ 21)).value? =
    some ((64 - n.val : Int) : Rat) := by
  decide +kernel

/-- Right above the low border of its grid a coordinate slips. -/
theorem OnMap.slips_of_lt (h : OnMap c) (hv : c.value? = some v)
    (hlt : v < (((gridAxis c).toNat - 32 : Int) + 1 / 2 ^ 21) * gridSide) : Slips c := by
  have hlast := h.gridAxis_le
  obtain ⟨hgrid, hlow, hneg⟩ | ⟨k, hgrid, hlow, -⟩ := h.gridAxis_cases hv
  · rw [Slips, hgrid, mirrored_of_near hv hlow hneg]
    norm_num
  · have hk : ((gridAxis c).toNat - 32 : Int) = k := by omega
    have hnext := value_nextAbove ⟨(gridAxis c).toNat, by omega⟩
    dsimp only at hnext
    rw [hk] at hlt hnext
    have hquot : v / gridSide ≤ k + 1 / 2 ^ 21 := ((div_lt_iff₀ gridSide_pos).2 hlt).le
    have hheld : Holds .single k := by
      simpa using holds_single (n := k) (i := 0) (by omega) (by decide)
    have hheld' : Holds .single (k + 1 : Int) := by
      simpa using holds_single (n := k + 1) (i := 0) (by omega) (by decide)
    obtain ⟨z, hz, -⟩ := lies_round (q := k + 1 / 2 ^ 21) hheld hheld' (by norm_num)
      (by push_cast; norm_num) false
    obtain ⟨s, hs⟩ := div_eq_round hv value_gridSize gridSide_pos.ne'
    obtain ⟨q, hq, -⟩ := lies_round hheld hheld' hlow (by push_cast; linarith) s
    rw [← hs] at hq
    have hle : c / gridSize ≤ round .single false (k + 1 / 2 ^ 21) := by
      rw [hs]
      exact round_mono hquot s false
    obtain ⟨w, hw, -, hhigh⟩ := h.mirrored_lies
    have hback := value_le hnext hw (const_sub_le hq hz value_centreGrid hle)
    rw [Slips, hw, le_antisymm hhigh hback]

/-- On a border no grid is left out of the count. -/
theorem OnMap.slips_of_border (h : OnMap c) {k : Int} (hv : c.value? = some (k * gridSide)) :
    Slips c := by
  have hpos := gridSide_pos
  refine h.slips_of_lt hv ?_
  obtain ⟨hgrid, -, hneg⟩ | ⟨j, hgrid, hlow, hhigh⟩ := h.gridAxis_cases hv
  · rw [hgrid]
    refine hneg.trans ?_
    push_cast
    positivity
  · rw [mul_div_cancel_right₀ _ hpos.ne'] at hlow hhigh
    have hjk : ((gridAxis c).toNat - 32 : Int) = k := by
      have hle : j ≤ k := by exact_mod_cast hlow
      have hlt : k < j + 1 := by exact_mod_cast hhigh
      omega
    rw [hjk]
    exact mul_lt_mul_of_pos_right (lt_add_of_pos_right _ (by positivity)) hpos

/-- The grid of a coordinate begins before it, or next after it. -/
theorem OnMap.border_lt (h : OnMap c) (hv : c.value? = some v) :
    ((gridAxis c).toNat - 32 : Int) * gridSide - 35 / 2 ^ 45 < v := by
  obtain ⟨hgrid, hlow, -⟩ | ⟨k, hgrid, hlow, -⟩ := h.gridAxis_cases hv
  · have hborder : ((gridAxis c).toNat - 32 : Int) = 0 := by omega
    rw [hborder, Int.cast_zero, zero_mul, zero_sub, ← neg_div]
    exact hlow
  · rw [le_div_iff₀ gridSide_pos] at hlow
    have hgap : (0 : Rat) < 35 / 2 ^ 45 := by norm_num
    rw [hgrid, add_sub_cancel_left]
    linarith

/-- Away from the low border of its grid a coordinate does not slip. -/
theorem OnMap.lt_of_slips (h : OnMap c) (hv : c.value? = some v) (hs : Slips c) :
    v < (((gridAxis c).toNat - 32 : Int) + 1 / 2 ^ 18) * gridSide := by
  have hpos := gridSide_pos
  have hlast := h.gridAxis_le
  obtain ⟨hgrid, -, hneg⟩ | ⟨k, hgrid, -, hhigh⟩ := h.gridAxis_cases hv
  · rw [hgrid]
    refine hneg.trans ?_
    push_cast
    positivity
  · rw [hgrid, add_sub_cancel_left, ← div_lt_iff₀ hpos]
    by_contra hge
    have hleft : ((k * 2 ^ 18 + 1 : Int) : Rat) / 2 ^ 18 = k + 1 / 2 ^ 18 := by
      rw [add_comm (k : Rat), div_add' _ _ _ (by norm_num)]
      push_cast
      ring
    have hright : (((k + 1) * 2 ^ 18 : Int) : Rat) / 2 ^ 18 = k + 1 := by
      push_cast
      exact mul_div_cancel_right₀ _ (by norm_num)
    obtain ⟨w, hw, -, hwhigh⟩ := lies_mirrored hv (i := 18) (by decide) (by omega)
      (by omega) (hleft.trans_le (not_lt.1 hge)) (hhigh.le.trans_eq hright.symm)
    rw [Slips, hw, Option.some.injEq] at hs
    have hw' : (64 - (gridAxis c).toNat : Int) = 32 - k := by omega
    rw [hs, hw', hleft] at hwhigh
    push_cast at hwhigh
    linarith

theorem OnMap.gridAxis_pos_of_slips (h : OnMap c) (hs : Slips c) : 0 < (gridAxis c).toNat := by
  obtain ⟨v, hv⟩ := value_of_finite h.1
  have hlt := h.lt_of_slips hv hs
  have hedge := (abs_le.1 (h.abs_value_le hv)).1
  rw [Nat.pos_iff_ne_zero]
  intro hzero
  have hgap : ((0 - 32 : Int) + 1 / 2 ^ 18) * gridSide < -boundValue := by
    norm_num [gridSide_eq, boundValue]
  rw [hzero] at hlt
  exact absurd (hlt.trans hgap) (not_lt.2 hedge)

theorem OnMap.fromEdge_of_slips (h : OnMap c) (hs : Slips c) :
    (gridAxisFromEdge c).toNat + 1 = (gridAxis c).toNat := by
  have hpos := h.gridAxis_pos_of_slips hs
  have hlast := h.gridAxis_le
  have hcut : (mirrored c).toInt32 = 64 - (gridAxis c).toNat :=
    (lies_self hs).toInt32 le_rfl (by linarith) (by omega)
      (by change _ ≤ 0x7fffffff; omega)
  have hback := toNat_component (n := 63 - (mirrored c).toInt32) (by omega) (by omega)
  change ((gridAxisFromEdge c).toNat : Int) = _ at hback
  omega

theorem OnMap.fromEdge_of_not_slips (h : OnMap c) (hs : ¬Slips c) :
    gridAxisFromEdge c = gridAxis c := by
  have hlast := h.gridAxis_le
  obtain ⟨w, hw, hlow, hhigh⟩ := h.mirrored_lies
  have hlt : w < ((64 - (gridAxis c).toNat : Int) : Rat) :=
    lt_of_le_of_ne hhigh fun he => hs (hw.trans (congrArg some he))
  have hcut : (mirrored c).toInt32 = 63 - (gridAxis c).toNat := by
    refine (lies_self hw).toInt32 hlow ?_ (by omega) (by change _ ≤ 0x7fffffff; omega)
    push_cast at hlt ⊢
    linarith
  have hback := toNat_component (n := 63 - (mirrored c).toInt32) (by omega) (by omega)
  change ((gridAxisFromEdge c).toNat : Int) = _ at hback
  rw [← UInt32.toNat_inj]
  omega

/-- A component counted from the high edge, compared with the one found straight. What slips is told
from what does not by the distance to the low border of the grid. -/
structure Counted (c : Single) (fromEdge straight : UInt32) : Prop where
  equal : ¬Slips c → fromEdge = straight
  lower : Slips c → fromEdge.toNat + 1 = straight.toNat
  border : ∀ k : Int, c.value? = some (k * gridSide) → Slips c
  close : ∀ v, c.value? = some v →
    v < ((straight.toNat - 32 : Int) + 1 / 2 ^ 21) * gridSide → Slips c
  near : Slips c → ∃ v, c.value? = some v ∧
    (straight.toNat - 32 : Int) * gridSide - 35 / 2 ^ 45 < v ∧
    v < ((straight.toNat - 32 : Int) + 1 / 2 ^ 18) * gridSide

/-- Counting from the high edge finds the grid of a position, but one grid lower where a coordinate
slips: that is on every border and right above it. -/
theorem counted_fromEdge (hx : OnMap x) (hy : OnMap y) :
    Counted x (gridCoordFromEdge x y).x (gridCoordAt x y).x ∧
      Counted y (gridCoordFromEdge x y).y (gridCoordAt x y).y := by
  have hcounted {c : Single} (h : OnMap c) : Counted c (gridAxisFromEdge c) (gridAxis c) := by
    refine ⟨h.fromEdge_of_not_slips, h.fromEdge_of_slips, fun k => h.slips_of_border,
      fun v => h.slips_of_lt, fun hs => ?_⟩
    obtain ⟨v, hv⟩ := value_of_finite h.1
    exact ⟨v, hv, h.border_lt hv, h.lt_of_slips hv hs⟩
  exact ⟨hcounted hx, hcounted hy⟩

/-- The first number above the border of grid 33. -/
def pastBorder : Single := .ofRat .single (mkRat 8738134 (twoPow 14))

theorem counted_pastBorder : (OnMap pastBorder ∧ OnMap 100) ∧ Slips pastBorder ∧ ¬Slips 100 ∧
    Counted pastBorder (gridCoordFromEdge pastBorder 100).x (gridCoordAt pastBorder 100).x ∧
    Counted 100 (gridCoordFromEdge pastBorder 100).y (gridCoordAt pastBorder 100).y :=
  ⟨by decide +kernel, by decide +kernel, by decide +kernel,
    counted_fromEdge (by decide +kernel) (by decide +kernel)⟩

/-- A coordinate that is not on a border is found one grid lower, too. -/
theorem fromEdge_pastBorder : (OnMap pastBorder ∧ OnMap 100) ∧
    (∀ k : Int, pastBorder.value? ≠ some (k * gridSide)) ∧
    (gridCoordFromEdge pastBorder 100).x = 32 ∧ (gridCoordAt pastBorder 100).x = 33 := by
  refine ⟨by decide +kernel, fun k hk => ?_, by decide +kernel, by decide +kernel⟩
  have hvalue := value_fraction (n := 8738134) (i := 14) (by decide) (by decide)
  rw [pastBorder, hvalue, gridSide_eq, Option.some.injEq, mul_div_assoc',
    div_left_inj' (by norm_num)] at hk
  have hwhole : (8738134 : Int) = k * 8738133 := by exact_mod_cast hk
  omega

end Realm.Geometry
