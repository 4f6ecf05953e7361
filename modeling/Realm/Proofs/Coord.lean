import Mathlib.Tactic.Linarith
import Realm.Area

/-! # Numbers of coordinates, and cells inside their grids -/

namespace Realm

namespace Coord

variable {limit : UInt32} {c d : Coord limit}

/-- While the numbers fit into a word, they are computed without loss. -/
theorem toNat_id (h : c.IsValid) (hl : limit.toNat ≤ 65536) :
    c.id.toNat = c.y.toNat * limit.toNat + c.x.toNat := by
  obtain ⟨hx, hy⟩ := h
  rw [UInt32.lt_iff_toNat_lt] at hx hy
  have hlt : c.y.toNat * limit.toNat + c.x.toNat < 2 ^ 32 := by nlinarith
  have hmul : c.y.toNat * limit.toNat < 2 ^ 32 := by omega
  rw [id, UInt32.toNat_add, UInt32.toNat_mul, Nat.mod_eq_of_lt hmul, Nat.mod_eq_of_lt hlt]

theorem ofId_id (h : c.IsValid) (hl : limit.toNat ≤ 65536) : ofId limit c.id = c := by
  have hid := toNat_id h hl
  obtain ⟨hx, hy⟩ := h
  rw [UInt32.lt_iff_toNat_lt] at hx hy
  cases c with | mk x y =>
  simp only at hx hy
  simp only [ofId, mk.injEq, ← UInt32.toNat_inj, UInt32.toNat_mod, UInt32.toNat_div, hid]
  constructor
  · rw [Nat.mul_add_mod_self_right, Nat.mod_eq_of_lt hx]
  · rw [Nat.add_comm, Nat.add_mul_div_right _ _ (by omega), Nat.div_eq_of_lt hx, Nat.zero_add]

theorem id_inj (hc : c.IsValid) (hd : d.IsValid) (hl : limit.toNat ≤ 65536)
    (h : c.id.toNat = d.id.toNat) : c = d := by
  rw [← ofId_id hc hl, ← ofId_id hd hl, UInt32.toNat_inj.1 h]

theorem pred_lt (h : 0 < limit) : limit - 1 < limit := by
  rw [UInt32.lt_iff_toNat_lt] at h ⊢
  have hpred : (limit - 1).toNat = limit.toNat - 1 :=
    UInt32.toNat_sub_of_le _ _ (UInt32.le_iff_toNat_le.2 h)
  rw [hpred]
  exact Nat.sub_lt h Nat.one_pos

theorem min_pred_lt (h : 0 < limit) (n : UInt32) : min n (limit - 1) < limit := by
  change (if n ≤ limit - 1 then n else limit - 1) < limit
  split
  · rename_i hn
    exact UInt32.lt_of_le_of_lt hn (pred_lt h)
  · exact pred_lt h

/-- Cutting off keeps the order. -/
theorem min_mono {a b : UInt32} (h : a ≤ b) (n : UInt32) : min a n ≤ min b n := by
  change (if a ≤ n then a else n) ≤ if b ≤ n then b else n
  rw [UInt32.le_iff_toNat_le] at h
  simp only [UInt32.le_iff_toNat_le]
  split <;> split <;> omega

theorem normalize_isValid (h : 0 < limit) (c : Coord limit) : c.normalize.IsValid :=
  ⟨min_pred_lt h c.x, min_pred_lt h c.y⟩

end Coord

/-! ## Cells inside their grids -/

@[simp] theorem toNat_gridsPerMap : gridsPerMap.toNat = 64 := rfl

@[simp] theorem toNat_cellsPerGrid : cellsPerGrid.toNat = 8 := rfl

@[simp] theorem toNat_cellsPerMap : cellsPerMap.toNat = 512 := rfl

namespace GridCoord

variable {c d : GridCoord}

theorem isValid_iff : c.IsValid ↔ c.x.toNat < 64 ∧ c.y.toNat < 64 := by
  simp only [Coord.IsValid, UInt32.lt_iff_toNat_lt, toNat_gridsPerMap]

theorem id_inj (hc : c.IsValid) (hd : d.IsValid) (h : c.id.toNat = d.id.toNat) : c = d :=
  Coord.id_inj hc hd (by simp) h

end GridCoord

namespace CellCoord

variable {c d : CellCoord}

theorem isValid_iff : c.IsValid ↔ c.x.toNat < 512 ∧ c.y.toNat < 512 := by
  simp only [Coord.IsValid, UInt32.lt_iff_toNat_lt, toNat_cellsPerMap]

theorem gridCoord_isValid : (gridCoord c).IsValid ↔ c.IsValid := by
  rw [isValid_iff, GridCoord.isValid_iff]
  simp only [gridCoord, UInt32.toNat_div, toNat_cellsPerGrid]
  omega

/-- A cell is known from its grid and its place there. -/
theorem eq_of_gridCoord_of_localIndex (hg : gridCoord c = gridCoord d)
    (hi : localIndex c = localIndex d) : c = d := by
  cases c with | mk cx cy =>
  cases d with | mk dx dy =>
  simp only [gridCoord, Coord.mk.injEq, ← UInt32.toNat_inj, UInt32.toNat_div, toNat_cellsPerGrid,
    localIndex, Fin.mk.injEq] at hg hi ⊢
  omega

/-- The cell at a place of a grid. -/
def within (c : GridCoord) (i : Fin 64) : CellCoord :=
  ⟨c.x * 8 + .ofNat (i.val % 8), c.y * 8 + .ofNat (i.val / 8)⟩

theorem toNat_axis {n : UInt32} (hn : n.toNat < 64) {i : Nat} (hi : i < 8) :
    (n * 8 + UInt32.ofNat i).toNat = n.toNat * 8 + i := by
  rw [UInt32.toNat_add, UInt32.toNat_mul, UInt32.toNat_ofNat', show UInt32.toNat 8 = 8 from rfl]
  omega

theorem toNat_within {c : GridCoord} (h : c.IsValid) (i : Fin 64) :
    (within c i).x.toNat = c.x.toNat * 8 + i.val % 8 ∧
      (within c i).y.toNat = c.y.toNat * 8 + i.val / 8 := by
  obtain ⟨hx, hy⟩ := GridCoord.isValid_iff.1 h
  exact ⟨toNat_axis hx (by omega), toNat_axis hy (by omega)⟩

theorem gridCoord_within {c : GridCoord} (h : c.IsValid) (i : Fin 64) :
    gridCoord (within c i) = c := by
  obtain ⟨hx, hy⟩ := toNat_within h i
  cases c with | mk x y =>
  simp only [gridCoord, Coord.mk.injEq, ← UInt32.toNat_inj, UInt32.toNat_div, toNat_cellsPerGrid,
    hx, hy]
  omega

theorem localIndex_within {c : GridCoord} (h : c.IsValid) (i : Fin 64) :
    localIndex (within c i) = i := by
  obtain ⟨hx, hy⟩ := toNat_within h i
  apply Fin.ext
  simp only [localIndex, hx, hy]
  omega

end CellCoord
end Realm
