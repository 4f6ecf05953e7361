import Realm.Proofs.Lookups

/-! # Off the map

The strips go on past both ends of a map, and a lookup does not ask whether a point lies on it. From
the high edge on its components are too high. Below the low edge a strip has a negative number, and
that wraps around to a component that is too high as well. Only in the first strip there the number
is cut off to zero, so that it counts as the first strip of the map. -/

namespace Realm

/-! ## Numbers and words -/

namespace Binary

variable {f : Format} {x : Binary f} {v : Rat}

theorem toInt32_bounds (x : Binary f) : toInt32.low ≤ x.toInt32 ∧ x.toInt32 ≤ toInt32.high := by
  have hlow : toInt32.low ≤ 0 := by decide
  have hhigh : 0 ≤ toInt32.high := by decide
  have hends : toInt32.low ≤ toInt32.high := hlow.trans hhigh
  cases x with
  | nan => exact ⟨hlow, hhigh⟩
  | infinite negative =>
    cases negative with
    | false => exact ⟨hends, le_rfl⟩
    | true => exact ⟨le_rfl, hends⟩
  | finite negative rank => exact ⟨le_max_left _ _, max_le hends (min_le_left _ _)⟩

theorem value?_abs (hx : x.value? = some v) : x.abs.value? = some |v| := by
  cases x with
  | nan | infinite => exact nomatch hx
  | finite negative rank =>
    cases hx
    have hnonneg : 0 ≤ signedValue false rank := by
      rw [signedValue, Rat.mkRat_eq_div]
      simp only [Bool.false_eq_true, if_false]
      positivity
    have habs : |signedValue negative rank| = signedValue false rank := by
      cases negative with
      | false => exact abs_of_nonneg hnonneg
      | true =>
        have hneg : signedValue true rank = -signedValue false rank := by
          simp [signedValue, Rat.mkRat_eq_div, neg_div]
        rw [hneg, abs_neg, abs_of_nonneg hnonneg]
    rw [habs]
    rfl

end Binary

namespace Geometry

open Binary
open Ruler (sound_cells sound_grids)

variable {x y c d : Single} {v w q : Rat}

theorem component_lt_iff {n : Int} (hlow : toInt32.low ≤ n) (hhigh : n ≤ toInt32.high)
    {limit : UInt32} (hl : limit.toNat ≤ 2 ^ 31) :
    component n < limit ↔ 0 ≤ n ∧ n < limit.toNat := by
  change -0x80000000 ≤ n at hlow
  change n ≤ 0x7fffffff at hhigh
  rw [UInt32.lt_iff_toNat_lt, component, UInt32.ofInt, UInt32.toNat_ofNat']
  omega

/-! ## All finite coordinates -/

/-- The largest finite coordinate. -/
def highest : Single := .finite false ⟨Format.single.magnitudes - 1, by decide⟩

theorem between_highest (hv : c.value? = some v) : Between (-highest) c highest := by
  cases c with
  | nan | infinite => exact nomatch hv
  | finite negative rank =>
    have hrank := rank.isLt
    have hhigh : highest.place? = some (Format.single.magnitudes - 1 : Int) := rfl
    have hlow : (-highest : Single).place? = some (-(Format.single.magnitudes - 1 : Int)) := by
      rw [place?_neg, hhigh, Option.map_some]
    have hplace : (Binary.finite negative rank).place? =
        some (if negative then -(rank : Int) else rank) := rfl
    refine ⟨le_iff_place.2 ⟨_, _, hlow, hplace, ?_⟩, le_iff_place.2 ⟨_, _, hplace, hhigh, ?_⟩,
      rfl, rfl⟩
    all_goals split <;> omega

/-- Past the ends of a map the numbers are multiples of 1/512. -/
def mark (a : Int) : Single := .ofRat .single (mkRat a (twoPow 9))

namespace Ruler

variable {r : Ruler} {a b n : Int}

/-- No finite coordinate overflows. -/
def Roomy (r : Ruler) : Prop :=
  Tame r.half r.size r.centre (-highest) ∧ Tame r.half r.size r.centre highest

instance (r : Ruler) : Decidable r.Roomy := inferInstanceAs (Decidable (_ ∧ _))

/-- The strips grow with the coordinate off the map, too. -/
theorem Sound.strip_mono (h : r.Sound) (hr : r.Roomy) (hv : c.value? = some v)
    (hw : d.value? = some w) (hle : v ≤ w) : r.strip c ≤ r.strip d := by
  have htame {c : Single} {v : Rat} (hv : c.value? = some v) : Tame r.half r.size r.centre c :=
    (h.tame_and_between hr.1 hr.2 (between_highest hv)).1
  have hbetween : Between c d d := ⟨(le_iff_value hv hw).2 hle, (le_iff_value hw hw).2 le_rfl,
    isFinite_of_value hv, isFinite_of_value hw⟩
  exact (h.tame_and_between (htame hv) (htame hw) hbetween).2.1

/-- The strips up to `n` end at the exact border `q`, which lies between two neighbours. -/
structure Border (r : Ruler) (a n : Int) (q : Rat) : Prop where
  digits : a.natAbs + 1 < 2 ^ 24
  adjacent : (mark (a + 1)).place? = (mark a).place?.map (· + 1)
  before : r.strip (mark a) = n
  after : r.strip (mark (a + 1)) = n + 1
  low : a / 2 ^ 9 < q
  high : q ≤ (a + 1 : Int) / 2 ^ 9

theorem Border.strip_le_iff (hb : r.Border a n q) (h : r.Sound) (hr : r.Roomy)
    (hv : c.value? = some v) : r.strip c ≤ n ↔ v < q := by
  have hdigits := hb.digits
  have hmark : (mark a).value? = some (a / 2 ^ 9 : Rat) := value_fraction (by omega) (by decide)
  have hnext : (mark (a + 1)).value? = some ((a + 1 : Int) / 2 ^ 9 : Rat) :=
    value_fraction (by omega) (by decide)
  constructor
  · intro hstrip
    by_contra hge
    -- what is past the border is past the mark, so it is not before the next one
    have hlt : mark a < c := (lt_iff_value hmark hv).2 (hb.low.trans_le (not_lt.1 hge))
    obtain ⟨i, j, hi, hj, hij⟩ := lt_iff_place.1 hlt
    have hle : mark (a + 1) ≤ c :=
      le_iff_place.2 ⟨i + 1, j, by rw [hb.adjacent, hi, Option.map_some], hj, hij⟩
    have hmono := h.strip_mono hr hnext hv (value_le hnext hv hle)
    rw [hb.after] at hmono
    omega
  · intro hlt
    obtain ⟨i, j, hi, hj, hij⟩ := lt_iff_place.1 ((lt_iff_value hv hnext).2 (hlt.trans_le hb.high))
    obtain ⟨k, hk, -⟩ := value?_eq hmark
    rw [hb.adjacent, hk, Option.map_some, Option.some.injEq] at hj
    have hle : c ≤ mark a := le_iff_place.2 ⟨i, k, hi, hk, by omega⟩
    have hmono := h.strip_mono hr hv hmark (value_le hv hmark hle)
    rwa [hb.before] at hmono

end Ruler

/-! ## The ends of a map -/

/-- The exact distance from the middle of a map to its edges. -/
def mapEdge : Rat := 8738133 / 2 ^ 9

theorem value_mapHalf : mapHalf.value? = some mapEdge := by decide +kernel

/-- A coordinate lies beyond an edge of the map. -/
def Off (c : Single) : Prop := c.isFinite ∧ mapHalf < c.abs

instance (c : Single) : Decidable (Off c) := inferInstanceAs (Decidable (_ ∧ _))

theorem off_iff (hv : c.value? = some v) : Off c ↔ mapEdge < |v| := by
  rw [Off, lt_iff_value value_mapHalf (value?_abs hv), and_iff_right (isFinite_of_value hv)]

/-- A coordinate lies below the low edge, but not by more than the size of a strip. -/
def Skirts (side : Rat) (c : Single) : Prop :=
  ∃ v, c.value? = some v ∧ -(mapEdge + side) ≤ v ∧ v < -mapEdge

/-- A coordinate lies below the high edge, and not below the low one by more than the size of a
strip. -/
def Passes (side : Rat) (c : Single) : Prop :=
  ∃ v, c.value? = some v ∧ -(mapEdge + side) ≤ v ∧ v < mapEdge

namespace Ruler

variable {r : Ruler} {a b : Int}

/-- A ruler leads no coordinate across the ends of what it takes for the map. -/
structure Fenced (r : Ruler) (a b : Int) : Prop where
  roomy : r.Roomy
  low : r.Border a (-1) (-(mapEdge + r.side))
  high : r.Border b (2 * r.centre.toNat - 1) mapEdge

theorem fenced_grids : grids.Fenced (-9011200) 8738132 :=
  ⟨by decide +kernel, by constructor <;> decide +kernel, by constructor <;> decide +kernel⟩

theorem fenced_cells : cells.Fenced (-8772267) 8738132 :=
  ⟨by decide +kernel, by constructor <;> decide +kernel, by constructor <;> decide +kernel⟩

theorem Fenced.axis_lt_iff (hf : r.Fenced a b) (h : r.Sound) (hc : c.isFinite) {limit : UInt32}
    (hl : limit.toNat = 2 * r.centre.toNat) : r.axis c < limit ↔ Passes r.side c := by
  obtain ⟨v, hv⟩ := value_of_finite hc
  have hfew := h.few
  have hbounds : toInt32.low ≤ r.strip c ∧ r.strip c ≤ toInt32.high := toInt32_bounds _
  have hlow := hf.low.strip_le_iff h hf.roomy hv
  have hhigh := hf.high.strip_le_iff h hf.roomy hv
  rw [axis, component_lt_iff hbounds.1 hbounds.2 (by omega), hl]
  constructor
  · rintro ⟨hnonneg, hlt⟩
    refine ⟨v, hv, not_lt.1 fun hout => ?_, hhigh.1 (by omega)⟩
    have hneg := hlow.2 hout
    omega
  · rintro ⟨w, hw, hleft, hright⟩
    obtain rfl : v = w := Option.some.inj (hv.symm.trans hw)
    have hnonneg : ¬r.strip c ≤ -1 := fun hstrip => not_lt.2 hleft (hlow.1 hstrip)
    have hlt := hhigh.2 hright
    omega

/-- The strip below the map is counted as the first one. -/
theorem Fenced.axis_eq_zero (hf : r.Fenced a b) (h : r.Sound) (hs : Skirts r.side c) :
    r.axis c = 0 := by
  obtain ⟨v, hv, hleft, hright⟩ := hs
  have hnonneg : ¬r.strip c ≤ -1 := fun hstrip =>
    not_lt.2 hleft ((hf.low.strip_le_iff h hf.roomy hv).1 hstrip)
  have hedge : -mapEdge ≤ -boundValue := by norm_num [mapEdge, boundValue]
  have hmono := h.strip_mono hf.roomy hv value_neg_bound (hright.le.trans hedge)
  rw [h.first] at hmono
  have hzero : r.strip c = 0 := by omega
  rw [axis, hzero]
  rfl

end Ruler

/-! ## Lookups -/

/-- What a lookup with strips of a size makes of a point that may be off the map. -/
structure Screened {limit : UInt32} (found : Coord limit) (side : Rat) (x y : Single) : Prop where
  valid_iff : found.IsValid ↔ Passes side x ∧ Passes side y
  rejected : Off x ∧ ¬Skirts side x ∨ Off y ∧ ¬Skirts side y → ¬found.IsValid
  firstX : Skirts side x → found.x = 0
  firstY : Skirts side y → found.y = 0

theorem not_passes {side : Rat} (ho : Off c) (hs : ¬Skirts side c) : ¬Passes side c := by
  rintro ⟨v, hv, hleft, hright⟩
  rcases lt_abs.1 ((off_iff hv).1 ho) with hhigh | hlow
  · exact lt_asymm hright hhigh
  · exact hs ⟨v, hv, hleft, by linarith⟩

theorem screened_of_axis {limit : UInt32} {axis : Single → UInt32} {side : Rat}
    (hlt : ∀ {c}, c.isFinite → (axis c < limit ↔ Passes side c))
    (hzero : ∀ {c}, Skirts side c → axis c = 0) (hx : x.isFinite) (hy : y.isFinite) :
    Screened (⟨axis x, axis y⟩ : Coord limit) side x y := by
  have hvalid : (⟨axis x, axis y⟩ : Coord limit).IsValid ↔ Passes side x ∧ Passes side y :=
    and_congr (hlt hx) (hlt hy)
  refine ⟨hvalid, fun hoff hin => ?_, hzero, hzero⟩
  obtain ⟨hpx, hpy⟩ := hvalid.1 hin
  rcases hoff with ⟨ho, hs⟩ | ⟨ho, hs⟩
  · exact not_passes ho hs hpx
  · exact not_passes ho hs hpy

/-- A point off the map is told by its coordinate, unless it lies less than a strip below the low
edge. There it is taken for a point of the first strip. -/
theorem screened_lookups (hx : x.isFinite) (hy : y.isFinite) :
    Screened (gridCoordAt x y) gridSide x y ∧
      Screened (cellCoordAt x y) (gridSide / (8 : Nat)) x y := by
  refine ⟨screened_of_axis (fun hc => Ruler.fenced_grids.axis_lt_iff sound_grids hc rfl)
    (Ruler.fenced_grids.axis_eq_zero sound_grids) hx hy, ?_⟩
  rw [← side_cells]
  exact screened_of_axis (fun hc => Ruler.fenced_cells.axis_lt_iff sound_cells hc rfl)
    (Ruler.fenced_cells.axis_eq_zero sound_cells) hx hy

/-- The first number below the map. -/
def doorstep : Single := mark (-8738134)

theorem screened_doorstep : (doorstep.isFinite ∧ (0 : Single).isFinite) ∧
    Skirts gridSide doorstep ∧ Screened (gridCoordAt doorstep 0) gridSide doorstep 0 ∧
    Screened (cellCoordAt doorstep 0) (gridSide / (8 : Nat)) doorstep 0 := by
  have hvalue : doorstep.value? = some (-8738134 / 2 ^ 9) := by
    exact_mod_cast value_fraction (n := -8738134) (i := 9) (by decide) (by decide)
  exact ⟨by decide +kernel, ⟨_, hvalue, by norm_num [mapEdge, gridSide_eq], by norm_num [mapEdge]⟩,
    screened_lookups (by decide +kernel) (by decide +kernel)⟩

/-- This point is off the map, and both of its coordinates are valid. -/
theorem isValid_doorstep : Off doorstep ∧
    (gridCoordAt doorstep 0).IsValid ∧ gridCoordAt doorstep 0 = ⟨0, 32⟩ ∧
    (cellCoordAt doorstep 0).IsValid ∧ cellCoordAt doorstep 0 = ⟨0, 256⟩ := by
  decide +kernel

end Geometry
end Realm
