import Realm.Proofs.Binary.Error
import Realm.Proofs.Lookups

/-! # Offsets in a cell

The cell of a point is found in double precision, and its offset from the middle of the cell in
single precision. No step of the way leads the offset past the borders of the cell, because they are
numbers that both formats hold; and the errors of all steps sum up to less than a hundredth. -/

namespace Realm.Geometry

open Binary
open Ruler (sound_cells)

variable {x y c : Single} {v : Rat}

/-! ## One axis -/

/-- Where `c` lies in its cell, measured from the cell's middle. -/
def cellOffset (c : Single) : Single :=
  ((stripOffset cellHalf cellSize c).narrow
      - .ofInt .single (strip cellHalf cellSize centreCell c)
      + .ofInt .single centreCell.toNat) * cellSize

/-- The lookup that yields the offset as well finds the cell that the other one finds. -/
theorem cellCoordAndOffset_eq (x y : Single) :
    cellCoordAndOffset x y = (cellCoordAt x y, cellOffset x, cellOffset y) := rfl

/-! ## Sizes -/

/-- The exact size of a cell. -/
def cellSide : Rat := Ruler.cells.side

theorem cellSide_pos : 0 < cellSide := sound_cells.side_pos

theorem cellSide_eq : cellSide = 8738133 / 2 ^ 17 := by
  norm_num [cellSide, Ruler.side, Ruler.cells]

theorem value_cellSize : cellSize.value? = some cellSide := sound_cells.exact

theorem value_widen_cellSize : cellSize.widen.value? = some cellSide := sound_cells.size

theorem value_cellHalf : cellHalf.value? = some (cellSide / 2) := by decide +kernel

theorem value_widen_cellHalf : cellHalf.widen.value? = some (cellSide / 2) := by decide +kernel

theorem value_centreCell {f : Format} (hf : f.Wide) (hn : 256 < 2 * f.binade) :
    (Binary.ofInt f centreCell.toNat).value? = some 256 :=
  value_ofNat hf hn

/-! ## The bounds -/

theorem OnMap.cellAxis_le (h : OnMap c) : (cellAxis c).toNat ≤ 511 :=
  Nat.le_of_lt_succ (sound_cells.toNat_axis_lt h)

/-- A coordinate lies next below the origin, or in the strip of its cell. -/
theorem OnMap.cellAxis_cases (h : OnMap c) (hv : c.value? = some v) :
    ((cellAxis c).toNat = 256 ∧ -267 / 2 ^ 48 < v ∧ v < 0) ∨
      ∃ k : Int, (cellAxis c).toNat = 256 + k ∧ k * cellSide ≤ v ∧ v < (k + 1) * cellSide := by
  have hcell := h.cellAxis_eq hv
  rw [← side_cells] at hcell
  split at hcell
  · rename_i hnear
    exact .inl ⟨by omega, hnear⟩
  · exact .inr ⟨_, hcell, (le_div_iff₀ cellSide_pos).1 (Int.floor_le _),
      (div_lt_iff₀ cellSide_pos).1 (Int.lt_floor_add_one _)⟩

/-- Next below the origin nothing is left of the coordinate in single precision. -/
theorem value_narrow_of_near (hv : c.value? = some v) (hlow : -267 / 2 ^ 48 < v) (hneg : v < 0) :
    (stripOffset cellHalf cellSize c).narrow.value? = some (-1 / 2) := by
  have hwide : c.widen.Lies ((-1 : Int) / 2 ^ 39) ((0 : Int) / 2 ^ 0) := by
    refine (lies_self hv).convert (holds_double (by decide) (by decide))
      (holds_double (by decide) (by decide)) ?_ ?_
    · norm_num at hlow ⊢
      linarith
    · simpa using hneg.le
  have hsub : (c.widen - cellHalf.widen).Lies ((-8738133 * 2 ^ 21 - 1 : Int) / 2 ^ 39)
      ((-8738133 : Int) / 2 ^ 18) :=
    hwide.sub value_widen_cellHalf (holds_double (by decide) (by decide))
      (holds_double (by decide) (by decide)) (by norm_num [cellSide_eq]) (by norm_num [cellSide_eq])
  obtain ⟨w, hw, hwlow, hwhigh⟩ : (stripOffset cellHalf cellSize c).Lies
      ((-2 ^ 44 - 1 : Int) / 2 ^ 45) ((-1 : Int) / 2 ^ 1) :=
    hsub.div value_widen_cellSize cellSide_pos (holds_double (by decide) (by decide))
      (holds_double (by decide) (by decide)) (by norm_num [cellSide_eq]) (by norm_num [cellSide_eq])
  have hround : (round .single true ((-2 ^ 44 - 1 : Int) / 2 ^ 45)).value? = some (-1 / 2) := by
    decide +kernel
  have hheld : (round .single true (-1 / 2)).value? = some (-1 / 2) := by decide +kernel
  obtain ⟨s, hs⟩ := convert_eq_round (g := .single) hw
  rw [narrow, hs]
  refine value_of_between hround hheld (round_mono hwlow true s) (round_mono ?_ s true)
  push_cast at hwhigh
  linarith

/-- In single precision, too, the quotient of a coordinate lies in the strip of its cell. -/
theorem OnMap.lies_narrow (h : OnMap c) {n : Int} (hn : (cellAxis c).toNat = n) :
    (stripOffset cellHalf cellSize c).narrow.Lies ((2 * (n - 256) - 1 : Int) / 2 ^ 1)
      ((2 * (n - 256) + 1 : Int) / 2 ^ 1) := by
  obtain ⟨v, hv⟩ := value_of_finite h.1
  have hlast := h.cellAxis_le
  obtain ⟨hcell, hlow, hneg⟩ | ⟨k, hcell, hlow, hhigh⟩ := h.cellAxis_cases hv
  · obtain rfl : n = 256 := by omega
    exact ⟨-1 / 2, value_narrow_of_near hv hlow hneg, by norm_num, by norm_num⟩
  · obtain rfl : k = n - 256 := by omega
    exact (sound_cells.lies_stripOffset hv hlow hhigh.le (by omega)).convert
      (holds_single (by omega) (by decide)) (holds_single (by omega) (by decide)) le_rfl le_rfl

theorem OnMap.strip_cell (h : OnMap c) :
    strip cellHalf cellSize centreCell c = (cellAxis c).toNat :=
  (sound_cells.toNat_axis h).symm

/-- The offset of a coordinate is at most half a cell on either side. -/
theorem OnMap.lies_cellOffset (h : OnMap c) :
    (cellOffset c).Lies (-(cellSide / 2)) (cellSide / 2) := by
  have hlast := h.cellAxis_le
  have hnumber : (Binary.ofInt .single (cellAxis c).toNat).value? =
      some ((cellAxis c).toNat : Rat) :=
    value_ofNat (by decide) (show _ < 2 ^ 24 by omega)
  have hnarrow := h.lies_narrow rfl
  have hless : ((stripOffset cellHalf cellSize c).narrow -
      .ofInt .single (cellAxis c).toNat : Single).Lies ((-513 : Int) / 2 ^ 1)
      ((-511 : Int) / 2 ^ 1) :=
    hnarrow.sub hnumber (holds_single (by decide) (by decide))
      (holds_single (by decide) (by decide)) (by push_cast; linarith) (by push_cast; linarith)
  have hback : ((stripOffset cellHalf cellSize c).narrow - .ofInt .single (cellAxis c).toNat +
      .ofInt .single centreCell.toNat : Single).Lies ((-1 : Int) / 2 ^ 1) ((1 : Int) / 2 ^ 1) :=
    hless.add (value_centreCell (by decide) (by decide)) (holds_single (by decide) (by decide))
      (holds_single (by decide) (by decide)) (by norm_num) (by norm_num)
  have hheld : Holds .single (cellSide / 2) := ⟨_, value_cellHalf⟩
  rw [cellOffset, h.strip_cell]
  exact hback.mul value_cellSize cellSide_pos.le hheld.neg hheld (by push_cast; linarith)
    (by push_cast; linarith)

/-! ## The errors -/

theorem resolves_coordinate : Format.double.Resolves 20000 38 :=
  resolves_double (by decide) (by norm_num)

theorem resolves_quotient : Format.double.Resolves 300 44 :=
  resolves_double (by decide) (by norm_num)

theorem resolves_narrow_quotient : Format.single.Resolves 300 15 :=
  resolves_single (by decide) (by norm_num)

theorem abs_mul_cellSide_le {a b : Rat} (h : |a| ≤ b) : |a * cellSide| ≤ b * cellSide := by
  rw [abs_mul, abs_of_pos cellSide_pos]
  exact mul_le_mul_of_nonneg_right h cellSide_pos.le

/-- The exact place of a coordinate in its cell, in cells. -/
theorem OnMap.abs_place_le (h : OnMap c) (hv : c.value? = some v) :
    |(v - cellSide / 2) / cellSide - (cellAxis c).toNat + 256| ≤ 1 := by
  have hpos := cellSide_pos
  have hquot : (v - cellSide / 2) / cellSide = v / cellSide - 1 / 2 := by field_simp
  rw [hquot, abs_le]
  obtain ⟨hcell, hlow, hneg⟩ | ⟨k, hcell, hlow, hhigh⟩ := h.cellAxis_cases hv
  · have hleft : -1 / 2 ≤ v / cellSide := by
      rw [le_div_iff₀ hpos, cellSide_eq]
      norm_num at hlow ⊢
      linarith
    have hright : v / cellSide ≤ 0 := div_nonpos_of_nonpos_of_nonneg hneg.le hpos.le
    rw [hcell]
    constructor <;> push_cast <;> linarith
  · have hleft : (k : Rat) ≤ v / cellSide := (le_div_iff₀ hpos).2 hlow
    have hright : v / cellSide < k + 1 := (div_lt_iff₀ hpos).2 hhigh
    have hnumber : ((cellAxis c).toNat : Rat) = 256 + k := by exact_mod_cast hcell
    rw [hnumber]
    constructor <;> linarith

theorem OnMap.near_narrow (h : OnMap c) (hv : c.value? = some v) :
    (stripOffset cellHalf cellSize c).narrow.Near ((v - cellSide / 2) / cellSide) (1 / 2 ^ 14) := by
  have hsize := h.abs_value_le hv
  have hplace := h.abs_place_le hv
  have hlast : ((cellAxis c).toNat : Rat) ≤ 511 := by exact_mod_cast h.cellAxis_le
  have hfirst : (0 : Rat) ≤ (cellAxis c).toNat := Nat.cast_nonneg _
  rw [boundValue] at hsize
  have hdistance : |v - cellSide / 2| ≤ 18000 := by
    rw [abs_le] at hsize ⊢
    rw [cellSide_eq]
    constructor <;> linarith
  have hquot : |(v - cellSide / 2) / cellSide| ≤ 257 := by
    rw [abs_le] at hplace ⊢
    constructor <;> linarith
  have hwide := (near_self hv).convert resolves_coordinate (by linarith)
  have hsub := hwide.sub value_widen_cellHalf resolves_coordinate (by linarith)
  have hdiv := hsub.div value_widen_cellSize cellSide_pos resolves_quotient
    ((add_le_add_left hquot _).trans (by norm_num [cellSide_eq]))
  exact (hdiv.convert resolves_narrow_quotient
    ((add_le_add_left hquot _).trans (by norm_num [cellSide_eq]))).mono (by norm_num [cellSide_eq])

/-- What the offset is off by comes from the quotient, which is many cells large until the number of
the cell is taken off. -/
theorem OnMap.near_cellOffset (h : OnMap c) (hv : c.value? = some v) :
    (cellOffset c).Near (v - cellSide / 2 - ((cellAxis c).toNat - 256) * cellSide)
      (7 / 1000) := by
  have hlast := h.cellAxis_le
  have hplace := h.abs_place_le hv
  have hnarrow := h.near_narrow hv
  have hexact : v - cellSide / 2 - ((cellAxis c).toNat - 256) * cellSide =
      ((v - cellSide / 2) / cellSide - (cellAxis c).toNat + 256) * cellSide := by
    have hpos := cellSide_pos
    field_simp
    ring
  have hnumber : (Binary.ofInt .single (cellAxis c).toNat).value? =
      some ((cellAxis c).toNat : Rat) :=
    value_ofNat (by decide) (show _ < 2 ^ 24 by omega)
  rw [hexact, cellOffset, h.strip_cell]
  generalize (v - cellSide / 2) / cellSide = q at hplace hnarrow ⊢
  have hshifted : |q - (cellAxis c).toNat| ≤ 257 := by
    rw [abs_le] at hplace ⊢
    constructor <;> linarith
  have hless := hnarrow.sub hnumber resolves_narrow_quotient (by linarith)
  have hback := hless.add (value_centreCell (by decide) (by decide))
    (resolves_single (b := 2) (i := 22) (by decide) (by norm_num)) (by linarith)
  exact (hback.mul value_cellSize cellSide_pos.le
    (resolves_single (b := 100) (i := 17) (by decide) (by norm_num))
    ((add_le_add_left (abs_mul_cellSide_le hplace) _).trans (by norm_num [cellSide_eq]))).mono
    (by norm_num [cellSide_eq])

theorem near_cellMiddle {n : UInt32} (hn : n.toNat ≤ 511) :
    (cellMiddle n).Near ((n.toNat - 256) * cellSide + cellSide / 2) (1 / 400) := by
  have hlast : (n.toNat : Rat) ≤ 511 := by exact_mod_cast hn
  have hfirst : (0 : Rat) ≤ n.toNat := Nat.cast_nonneg _
  have hnumber : (Binary.ofInt .double n.toNat).value? = some (n.toNat : Rat) :=
    value_ofNat (by decide) (show _ < 2 ^ 53 by omega)
  have hcells : |(n.toNat - 256 : Rat)| ≤ 256 := by
    rw [abs_le]
    constructor <;> linarith
  have hborder := abs_mul_cellSide_le hcells
  have hmiddle : |(n.toNat - 256) * cellSide + cellSide / 2| ≤ 257 * cellSide := by
    have hpos := cellSide_pos
    rw [abs_le] at hborder ⊢
    constructor <;> linarith
  have hsub := (near_self hnumber).sub (value_centreCell (by decide) (by decide)) resolves_quotient
    (by linarith)
  have hmul := hsub.mul value_widen_cellSize cellSide_pos.le resolves_coordinate
    ((add_le_add_left hborder _).trans (by norm_num [cellSide_eq]))
  have hadd := hmul.add value_widen_cellHalf resolves_coordinate
    ((add_le_add_left hmiddle _).trans (by norm_num [cellSide_eq]))
  refine (hadd.convert (resolves_single (b := 20000) (i := 9) (by decide) (by norm_num))
    ((add_le_add_left hmiddle _).trans (by norm_num [cellSide_eq]))).mono ?_
  norm_num [cellSide_eq]

/-- An offset is at most half a cell on either side, and leads from the middle of a cell back to a
coordinate. -/
structure Restores (c middle offset : Single) : Prop where
  low : -cellHalf ≤ offset
  high : offset ≤ cellHalf
  sum : ∃ v m o, c.value? = some v ∧ middle.value? = some m ∧ offset.value? = some o ∧
    |m + o - v| < 1 / 100

theorem OnMap.restores (h : OnMap c) : Restores c (cellMiddle (cellAxis c)) (cellOffset c) := by
  obtain ⟨v, hv⟩ := value_of_finite h.1
  obtain ⟨o, ho, hlow, hhigh⟩ := h.lies_cellOffset
  obtain ⟨m, hm, hmiddle⟩ := near_cellMiddle h.cellAxis_le
  obtain ⟨o', ho', hoffset⟩ := h.near_cellOffset hv
  obtain rfl : o = o' := Option.some.inj (ho.symm.trans ho')
  refine ⟨(le_iff_value (value?_neg value_cellHalf) ho).2 hlow,
    (le_iff_value ho value_cellHalf).2 hhigh, v, m, o, hv, hm, ho, ?_⟩
  rw [abs_le] at hmiddle hoffset
  rw [abs_lt]
  constructor <;> linarith

/-- A point on the map is found in its cell, together with the offset from its middle. -/
theorem restores_offset (hx : OnMap x) (hy : OnMap y) :
    ∃ cell offsetX offsetY, cellCoordAndOffset x y = (cell, offsetX, offsetY) ∧
      cell = cellCoordAt x y ∧ Restores x (cellCentre cell).1 offsetX ∧
      Restores y (cellCentre cell).2 offsetY :=
  ⟨_, _, _, cellCoordAndOffset_eq x y, rfl, hx.restores, hy.restores⟩

theorem restores_sliver : (OnMap sliver ∧ OnMap 100) ∧
    ∃ cell offsetX offsetY, cellCoordAndOffset sliver 100 = (cell, offsetX, offsetY) ∧
      cell = cellCoordAt sliver 100 ∧ Restores sliver (cellCentre cell).1 offsetX ∧
      Restores 100 (cellCentre cell).2 offsetY :=
  ⟨by decide +kernel, restores_offset (by decide +kernel) (by decide +kernel)⟩

end Realm.Geometry
