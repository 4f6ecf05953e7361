import Realm.Position
import Realm.Proofs.Strips

/-! # Cells and grids of valid positions

A valid position has its cell and its grid on the map. What is clamped lies in the range of the
valid coordinates. -/

namespace Realm

open Binary

namespace Geometry

open Ruler (sound_cells sound_grids)

variable {lo c hi : Single}

/-! ## Components -/

theorem toNat_cellAxis_lt (h : Between (-bound) c bound) : (cellAxis c).toNat < 512 :=
  sound_cells.toNat_axis_lt (.of_between h)

theorem OnMap.cellAxis_lt (h : OnMap c) : cellAxis c < cellsPerMap := by
  rw [UInt32.lt_iff_toNat_lt, toNat_cellsPerMap]
  exact sound_cells.toNat_axis_lt h

theorem OnMap.gridAxis_lt (h : OnMap c) : gridAxis c < gridsPerMap := by
  rw [UInt32.lt_iff_toNat_lt, toNat_gridsPerMap]
  exact sound_grids.toNat_axis_lt h

/-- The cells of a map grow with the coordinate. -/
theorem cellAxis_mono (hlo : Between (-bound) lo bound) (hhi : Between (-bound) hi bound)
    (h : lo ≤ hi) : cellAxis lo ≤ cellAxis hi :=
  sound_cells.axis_mono (.of_between hlo) (.of_between hhi) h

/-! ## Clamping -/

theorem clamp_between {a : Int} (ha : c.place? = some a) : Between (-bound) (clamp c) bound := by
  have hbound : (-bound : Single) ≤ bound := by decide +kernel
  have hlow : (-bound : Single) ≤ -bound := by decide +kernel
  have hhigh : bound ≤ bound := by decide +kernel
  obtain ⟨l, h, hl, hh, -⟩ := le_iff_place.1 hbound
  refine ⟨?_, ?_, by decide +kernel, by decide +kernel⟩
  · rw [clamp]
    split
    · exact hbound
    · split
      · exact hlow
      · rename_i hc
        exact le_of_not_lt ha hl hc
  · rw [clamp]
    split
    · exact hhigh
    · rename_i hc
      split
      · exact hbound
      · exact le_of_not_lt hh ha hc

/-- A step from the map ends on the map. -/
theorem OnMap.clamp_add {dc : Single} (h : OnMap c) (hd : dc.isFinite = true) :
    OnMap (clamp (c + dc)) := by
  obtain ⟨v, hv⟩ := value_of_finite h.1
  obtain ⟨v', hv'⟩ := value_of_finite hd
  obtain ⟨s, hs⟩ := add_eq_round hv hv'
  have hplace : (c + dc).place? = _ := hs ▸ place?_round .single s (v + v')
  exact .of_between (clamp_between hplace)

theorem le_clamp (h : lo ≤ c) (hlo : lo ≤ bound) : lo ≤ clamp c := by
  rw [clamp]
  split
  · exact hlo
  · split
    · rename_i hc
      exact le_trans h (le_of_lt hc)
    · exact h

theorem clamp_le (h : c ≤ hi) (hhi : -bound ≤ hi) : clamp c ≤ hi := by
  rw [clamp]
  split
  · rename_i hc
    exact le_trans (le_of_lt hc) h
  · split
    · exact hhi
    · exact h

theorem clamp_mono (h : lo ≤ hi) : clamp lo ≤ clamp hi := by
  obtain ⟨a, b, ha, hb, -⟩ := le_iff_place.1 h
  obtain ⟨k, hk, -⟩ := value?_eq value_bound
  have hself : bound ≤ bound := le_iff_place.2 ⟨k, k, hk, hk, le_rfl⟩
  rw [clamp]
  split
  · rename_i hhigh
    exact le_clamp (le_trans (le_of_lt hhigh) h) hself
  · rename_i hhigh
    split
    · exact (clamp_between hb).low
    · exact le_clamp h (le_of_not_lt hk ha hhigh)

theorem cellAxis_clamp_mono (h : lo ≤ hi) : cellAxis (clamp lo) ≤ cellAxis (clamp hi) := by
  obtain ⟨a, b, ha, hb, -⟩ := le_iff_place.1 h
  exact cellAxis_mono (clamp_between ha) (clamp_between hb) (clamp_mono h)

end Geometry

/-- A valid position has a cell on the map. -/
theorem Position.IsValid.cellCoord {p : Position} (h : p.IsValid) : p.cellCoord.IsValid :=
  ⟨h.1.1.1.cellAxis_lt, h.1.1.2.cellAxis_lt⟩

end Realm
