import Realm.Geometry
import Realm.Proofs.Binary.Holding
import Realm.Proofs.Coord

/-! # Strips

A map is cut into strips twice, into grids and into cells, and both cuts count the strips in the same
way. The number of a strip grows with the coordinate, and it is the whole part of the exact quotient:
rounding leads no coordinate across a border but the ones next below the origin. -/

namespace Realm.Geometry

open Binary

variable {half size lo c hi : Single} {centre : UInt32} {v : Rat} {k : Int}

/-! ## Order -/

/-- The number of a strip before its fraction is cut off. -/
def stripPlace (half size : Single) (centre : UInt32) (c : Single) : Double :=
  stripOffset half size c + .ofInt .double centre.toNat + .ofRat .double (mkRat 1 2)

/-- Nothing overflows on the way from a coordinate to its strip. -/
def Tame (half size : Single) (centre : UInt32) (c : Single) : Prop :=
  c.widen.isFinite ∧ (c.widen - half.widen).isFinite ∧ (stripOffset half size c).isFinite ∧
    (stripOffset half size c + .ofInt .double centre.toNat).isFinite ∧
    (stripPlace half size centre c).isFinite

instance : Decidable (Tame half size centre c) := inferInstanceAs (Decidable (_ ∧ _))

theorem value_oneHalf : (Binary.ofRat .double (mkRat 1 2)).value? = some (1 / 2) := by
  have hhalf : mkRat 1 2 = ((1 : Int) : Rat) / 2 ^ 1 := by simp [Rat.mkRat_eq_div]
  rw [ofRat, hhalf, value_round (holds_double (by decide) (by decide)), Int.cast_one, pow_one]

/-- Between two tame coordinates every coordinate is tame, and its strip lies between theirs. -/
theorem strip_between {h s n : Rat} (hh : half.widen.value? = some h)
    (hs : size.widen.value? = some s) (hpos : 0 < s)
    (hn : (Binary.ofInt .double centre.toNat).value? = some n) (hlo : Tame half size centre lo)
    (hhi : Tame half size centre hi) (hc : Between lo c hi) :
    Tame half size centre c ∧ strip half size centre lo ≤ strip half size centre c ∧
      strip half size centre c ≤ strip half size centre hi := by
  obtain ⟨hlo₁, hlo₂, hlo₃, hlo₄, hlo₅⟩ := hlo
  obtain ⟨hhi₁, hhi₂, hhi₃, hhi₄, hhi₅⟩ := hhi
  have hwide := hc.convert (g := .double) hlo₁ hhi₁
  have hsub := hwide.sub hh hlo₂ hhi₂
  have hoff := hsub.div hs hpos hlo₃ hhi₃
  have hshift := hoff.add hn hlo₄ hhi₄
  have hplace := hshift.add value_oneHalf hlo₅ hhi₅
  exact ⟨⟨hwide.isFinite, hsub.isFinite, hoff.isFinite, hshift.isFinite, hplace.isFinite⟩,
    hplace.toInt32⟩

/-- Half a unit less than 32 grids. -/
def boundValue : Rat := 8737877 / 512

theorem value_bound : bound.value? = some boundValue := by decide +kernel

theorem value_neg_bound : (-bound : Single).value? = some (-boundValue) := value?_neg value_bound

/-- A coordinate on the map lies between the bounds. -/
theorem OnMap.between (h : OnMap c) : Between (-bound) c bound where
  low := (le_of_abs_le h.2).1
  high := (le_of_abs_le h.2).2
  finiteLow := isFinite_of_value value_neg_bound
  finiteHigh := isFinite_of_value value_bound

theorem OnMap.of_between (h : Between (-bound) c bound) : OnMap c :=
  ⟨h.isFinite, abs_le_of_le h.low h.high⟩

theorem OnMap.abs_value_le (h : OnMap c) (hv : c.value? = some v) : |v| ≤ boundValue := by
  have hb := h.between
  exact abs_le.2 ⟨value_le value_neg_bound hv hb.low, value_le hv value_bound hb.high⟩

theorem OnMap.of_value (hv : c.value? = some v) (h : |v| ≤ boundValue) : OnMap c := by
  obtain ⟨hlow, hhigh⟩ := abs_le.1 h
  exact .of_between ⟨(le_iff_value value_neg_bound hv).2 hlow, (le_iff_value hv value_bound).2 hhigh,
    isFinite_of_value value_neg_bound, isFinite_of_value value_bound⟩

theorem toNat_component {n : Int} (h : 0 ≤ n) (h' : n < 2 ^ 32) :
    ((component n).toNat : Int) = n := by
  rw [component, UInt32.ofInt, UInt32.toNat_ofNat']
  omega

theorem value_zero : (0 : Single).value? = some 0 := by
  have hheld := value_round (holds_single (n := 0) (i := 0) (by decide) (by decide)) false
  rwa [Int.cast_zero, zero_div] at hheld

theorem onMap_zero : OnMap 0 := .of_value value_zero (by norm_num [boundValue])

/-! ## Rulers -/

/-- One of the two cuts. The size is the whole number `digits`, over a power of two. -/
structure Ruler where
  half : Single
  size : Single
  centre : UInt32
  digits : Nat
  scale : Nat
  /-- The last number that is found below the origin. -/
  edge : Single
  /-- The number after `edge`. -/
  next : Single

namespace Ruler

def grids : Ruler where
  half := gridHalf
  size := gridSize
  centre := centreGrid
  digits := 8738133
  scale := 14
  edge := .ofRat .single (mkRat (-35) (twoPow 45))
  next := .ofRat .single (mkRat (-9175039) (twoPow 63))

def cells : Ruler where
  half := cellHalf
  size := cellSize
  centre := centreCell
  digits := 8738133
  scale := 17
  edge := .ofRat .single (mkRat (-267) (twoPow 48))
  next := .ofRat .single (mkRat (-8749055) (twoPow 63))

variable (r : Ruler)

def strip (c : Single) : Int := Geometry.strip r.half r.size r.centre c

def axis (c : Single) : UInt32 := component (r.strip c)

/-- The exact size of a strip. -/
def side : Rat := r.digits / 2 ^ r.scale

/-- Coordinates of the size of a strip or more are multiples of the unit. -/
def unit : Rat := 1 / 2 ^ (r.scale + 1)

/-- What is used of a ruler. -/
structure Sound : Prop where
  half : r.half.widen.value? = some (r.digits * r.unit)
  exact : r.size.value? = some r.side
  size : r.size.widen.value? = some r.side
  centre : (Binary.ofInt .double r.centre.toNat).value? = some (r.centre.toNat : Rat)
  digits : 2 ^ 23 ≤ r.digits ∧ r.digits ≤ 2 ^ 24
  scale : r.scale < 149
  few : r.centre.toNat ≤ 256
  reach : boundValue < r.centre.toNat * r.side
  tame : Tame r.half r.size r.centre (-bound) ∧ Tame r.half r.size r.centre bound
  first : r.strip (-bound) = 0
  last : r.strip bound + 1 = 2 * r.centre.toNat
  near : OnMap r.edge ∧ OnMap r.next
  adjacent : r.next.place? = r.edge.place?.map (· + 1)
  below : r.strip r.edge + 1 = r.centre.toNat
  above : r.strip r.next = r.centre.toNat

theorem sound_grids : grids.Sound := by constructor <;> decide +kernel

theorem sound_cells : cells.Sound := by constructor <;> decide +kernel

variable {r : Ruler}

theorem unit_pos (r : Ruler) : 0 < r.unit := by
  rw [unit]
  positivity

theorem side_eq (r : Ruler) : r.side = 2 * r.digits * r.unit := by
  rw [side, unit, pow_succ]
  field_simp

theorem Sound.side_pos (h : r.Sound) : 0 < r.side := by
  have hdigits : 0 < r.digits := lt_of_lt_of_le (by decide) h.digits.1
  rw [side]
  positivity

theorem Sound.holds_mul_unit (h : r.Sound) {n : Int} (hn : n.natAbs < 2 ^ 53) :
    Holds .double (n * r.unit) := by
  have hscale := h.scale
  have hheld := holds_double (i := r.scale + 1) hn (by omega)
  rwa [div_eq_mul_one_div] at hheld

/-! ### The ends of a map -/

theorem Sound.tame_and_between (h : r.Sound) (hlo : Tame r.half r.size r.centre lo)
    (hhi : Tame r.half r.size r.centre hi) (hc : Between lo c hi) :
    Tame r.half r.size r.centre c ∧ r.strip lo ≤ r.strip c ∧ r.strip c ≤ r.strip hi :=
  strip_between h.half h.size h.side_pos h.centre hlo hhi hc

/-- The strips grow with the coordinate. -/
theorem Sound.between (h : r.Sound) (hlo : OnMap lo) (hhi : OnMap hi) (hc : Between lo c hi) :
    r.strip lo ≤ r.strip c ∧ r.strip c ≤ r.strip hi :=
  (h.tame_and_between (h.tame_and_between h.tame.1 h.tame.2 hlo.between).1
    (h.tame_and_between h.tame.1 h.tame.2 hhi.between).1 hc).2

theorem Sound.bounds (h : r.Sound) (hc : OnMap c) :
    0 ≤ r.strip c ∧ r.strip c < 2 * r.centre.toNat := by
  have hends := (h.tame_and_between h.tame.1 h.tame.2 hc.between).2
  have hfirst := h.first
  have hlast := h.last
  omega

theorem Sound.toNat_axis (h : r.Sound) (hc : OnMap c) : ((r.axis c).toNat : Int) = r.strip c := by
  have hbounds := h.bounds hc
  have hfew := h.few
  exact toNat_component hbounds.1 (by omega)

theorem Sound.toNat_axis_lt (h : r.Sound) (hc : OnMap c) :
    (r.axis c).toNat < 2 * r.centre.toNat := by
  have haxis := h.toNat_axis hc
  have hbounds := h.bounds hc
  omega

theorem Sound.axis_mono (h : r.Sound) (hlo : OnMap lo) (hhi : OnMap hi) (hle : lo ≤ hi) :
    r.axis lo ≤ r.axis hi := by
  have hself : hi ≤ hi := by
    obtain ⟨-, b, -, hb, -⟩ := le_iff_place.1 hle
    exact le_iff_place.2 ⟨b, b, hb, hb, le_rfl⟩
  have hstrip := (h.between hlo hhi ⟨hle, hself, hlo.1, hhi.1⟩).1
  rw [← h.toNat_axis hlo, ← h.toNat_axis hhi] at hstrip
  rw [UInt32.le_iff_toNat_le]
  exact_mod_cast hstrip

/-! ### Whole parts

Every step of the way from a coordinate to its strip is held in place by two numbers that the double
format holds: on the low side by the low border of the strip, and on the high side by what stays of
the distance to the high border. -/

/-- Bounds in units are kept on the way from the middle of the centre strip. -/
theorem Sound.lies_sub_half (h : r.Sound) (hv : c.value? = some v) {a b : Int}
    (ha : a.natAbs < 2 ^ 52) (hb : b.natAbs < 2 ^ 52) (hlow : a * r.unit ≤ v)
    (hhigh : v ≤ b * r.unit) :
    (c.widen - r.half.widen).Lies ((a - r.digits : Int) * r.unit)
      ((b - r.digits : Int) * r.unit) := by
  obtain ⟨-, hd⟩ := h.digits
  have hwide : c.widen.Lies (a * r.unit) (b * r.unit) :=
    (lies_self hv).convert (h.holds_mul_unit (by omega)) (h.holds_mul_unit (by omega)) hlow hhigh
  refine hwide.sub h.half (h.holds_mul_unit (by omega)) (h.holds_mul_unit (by omega)) ?_ ?_
  · push_cast
    linarith
  · push_cast
    linarith

/-- From the low border of a strip on the offset is at least minus half a strip. A bound of the
coordinate, in units, becomes a bound of the offset, if the format holds it. -/
theorem Sound.lies_stripOffset_of_le (h : r.Sound) (hv : c.value? = some v) {a n : Int} {i : Nat}
    (hlow : k * r.side ≤ v) (hhigh : v ≤ (2 * (r.digits * k) + a : Int) * r.unit)
    (hk : -256 ≤ k ∧ k ≤ 256) (ha : a.natAbs ≤ 2 ^ 25) (hn : n.natAbs < 2 ^ 53) (hi : i ≤ 1074)
    (hle : (2 * (r.digits * k) + a - r.digits : Int) ≤ (n : Rat) / 2 ^ i * (2 * r.digits)) :
    (stripOffset r.half r.size c).Lies ((2 * k - 1 : Int) / 2 ^ 1) (n / 2 ^ i) := by
  obtain ⟨-, hd⟩ := h.digits
  have hrange : -2 ^ 32 ≤ r.digits * k ∧ r.digits * k ≤ 2 ^ 32 := by
    constructor <;> nlinarith
  have hside : k * r.side = (2 * (r.digits * k) : Int) * r.unit := by
    rw [r.side_eq]
    push_cast
    ring
  have hsub := h.lies_sub_half hv (by omega) (by omega) (hside.symm.trans_le hlow) hhigh
  refine hsub.div h.size h.side_pos (holds_double (by omega) (by omega)) (holds_double hn hi) ?_ ?_
  · rw [le_div_iff₀ h.side_pos, r.side_eq]
    push_cast
    linarith
  · rw [div_le_iff₀ h.side_pos, r.side_eq]
    have hscaled := mul_le_mul_of_nonneg_right hle r.unit_pos.le
    rwa [mul_assoc] at hscaled

/-- A coordinate in a strip has an offset of at most half a strip from the middle. -/
theorem Sound.lies_stripOffset (h : r.Sound) (hv : c.value? = some v) (hlow : k * r.side ≤ v)
    (hhigh : v ≤ (k + 1) * r.side) (hk : -256 ≤ k ∧ k ≤ 256) :
    (stripOffset r.half r.size c).Lies ((2 * k - 1 : Int) / 2 ^ 1) ((2 * k + 1 : Int) / 2 ^ 1) := by
  obtain ⟨-, hd⟩ := h.digits
  rw [r.side_eq] at hhigh
  refine h.lies_stripOffset_of_le hv (a := 2 * r.digits) hlow ?_ hk (by omega) (by omega)
    (by omega) ?_
  · push_cast
    linarith
  · push_cast
    linarith

/-- At least one unit below the high border the offset is less. -/
theorem Sound.lies_stripOffset_of_gap (h : r.Sound) (hv : c.value? = some v)
    (hlow : k * r.side ≤ v) (hhigh : v + r.unit ≤ (k + 1) * r.side) (hk : -256 ≤ k ∧ k ≤ 256) :
    (stripOffset r.half r.size c).Lies ((2 * k - 1 : Int) / 2 ^ 1)
      (((2 * k + 1) * 2 ^ 24 - 1 : Int) / 2 ^ 25) := by
  obtain ⟨hpos, hd⟩ := h.digits
  have hsmall : (r.digits : Rat) ≤ 2 ^ 24 := by exact_mod_cast hd
  rw [r.side_eq] at hhigh
  refine h.lies_stripOffset_of_le hv (a := 2 * r.digits - 1) hlow ?_ hk (by omega) (by omega)
    (by omega) ?_
  · push_cast
    linarith
  · push_cast
    linarith

/-- Such a coordinate is not led across the border. -/
theorem Sound.strip_eq (h : r.Sound) (hv : c.value? = some v) (hlow : k * r.side ≤ v)
    (hhigh : v + r.unit ≤ (k + 1) * r.side) (hk : -256 ≤ k ∧ k ≤ 256)
    (hnonneg : 0 ≤ r.centre.toNat + k) : r.strip c = r.centre.toNat + k := by
  have hfew := h.few
  have hoff := h.lies_stripOffset_of_gap hv hlow hhigh hk
  have hshift : (stripOffset r.half r.size c + .ofInt .double r.centre.toNat).Lies
      ((2 * (r.centre.toNat + k) - 1 : Int) / 2 ^ 1)
      (((2 * (r.centre.toNat + k) + 1) * 2 ^ 24 - 1 : Int) / 2 ^ 25) := by
    refine hoff.add h.centre (holds_double (by omega) (by omega))
      (holds_double (by omega) (by omega)) ?_ ?_
    · push_cast
      linarith
    · push_cast
      linarith
  have hplace : (stripPlace r.half r.size r.centre c).Lies ((r.centre.toNat + k : Int) / 2 ^ 0)
      (((r.centre.toNat + k + 1) * 2 ^ 25 - 1 : Int) / 2 ^ 25) := by
    refine hshift.add value_oneHalf (holds_double (by omega) (by omega))
      (holds_double (by omega) (by omega)) ?_ ?_
    · push_cast
      linarith
    · push_cast
      linarith
  refine hplace.toInt32 ?_ ?_ hnonneg ?_
  · push_cast
    linarith
  · push_cast
    linarith
  · change _ ≤ 0x7fffffff
    omega

/-- Apart from the origin, no number comes closer to a border than one unit. -/
theorem Sound.gap (h : r.Sound) (hv : c.value? = some v) (hlt : v < k * r.side) (hk : k ≠ 0) :
    v + r.unit ≤ k * r.side := by
  obtain ⟨hd, -⟩ := h.digits
  have hunit := r.unit_pos
  rw [r.side_eq] at hlt ⊢
  have hsize : 2 ^ 23 * r.unit ≤ r.digits * r.unit :=
    mul_le_mul_of_nonneg_right (by exact_mod_cast hd) hunit.le
  rcases lt_or_ge |v| (2 ^ 23 * r.unit) with hsmall | hlarge
  · -- `v` is nearer to the origin than any other border
    obtain ⟨hleft, hright⟩ := abs_lt.1 hsmall
    have hside : 0 < 2 * r.digits * r.unit := by linarith
    rcases Int.lt_or_gt_of_ne hk with hneg | hpos
    · have hborder : (k : Rat) * (2 * r.digits * r.unit) ≤ -1 * (2 * r.digits * r.unit) :=
        mul_le_mul_of_nonneg_right (by exact_mod_cast Int.le_sub_one_of_lt hneg) hside.le
      linarith
    · have hborder : 1 * (2 * r.digits * r.unit) ≤ k * (2 * r.digits * r.unit) :=
        mul_le_mul_of_nonneg_right (by exact_mod_cast hpos) hside.le
      linarith
  · -- `v` and the border are whole multiples of the unit
    have hbinade : Format.single.binade = 2 ^ 23 := by decide
    have hsize' : (Format.single.binade : Rat) / 2 ^ (r.scale + 1) ≤ |v| := by
      rw [hbinade, div_eq_mul_one_div]
      exact (by exact_mod_cast hlarge : ((2 ^ 23 : Nat) : Rat) * r.unit ≤ |v|)
    obtain ⟨n, hn⟩ := exists_eq_div hv h.scale hsize'
    rw [div_eq_mul_one_div] at hn
    change v = n * r.unit at hn
    have hint : n < 2 * r.digits * k := by
      have hmul : (n : Rat) * r.unit < (2 * r.digits * k : Int) * r.unit := by
        rw [← hn]
        push_cast
        linarith
      exact_mod_cast lt_of_mul_lt_mul_right hmul hunit.le
    have hsucc : ((n + 1 : Int) : Rat) * r.unit ≤ (2 * r.digits * k : Int) * r.unit :=
      mul_le_mul_of_nonneg_right (by exact_mod_cast hint) hunit.le
    rw [hn]
    push_cast at hsucc
    linarith

/-! ### Strips of a map -/

theorem Sound.floor_bounds (h : r.Sound) (hc : OnMap c) (hv : c.value? = some v) :
    -(r.centre.toNat : Int) ≤ ⌊v / r.side⌋ ∧ ⌊v / r.side⌋ < r.centre.toNat := by
  have hpos := h.side_pos
  have hreach := h.reach
  obtain ⟨hleft, hright⟩ := abs_le.1 (hc.abs_value_le hv)
  constructor
  · rw [Int.le_floor, le_div_iff₀ hpos]
    push_cast
    linarith
  · rw [Int.floor_lt, div_lt_iff₀ hpos]
    push_cast
    linarith

theorem Sound.strip_eq_floor_of_gap (h : r.Sound) (hc : OnMap c) (hv : c.value? = some v)
    (hgap : v + r.unit ≤ (⌊v / r.side⌋ + 1) * r.side) :
    r.strip c = r.centre.toNat + ⌊v / r.side⌋ := by
  have hfew := h.few
  obtain ⟨hlow, hhigh⟩ := h.floor_bounds hc hv
  refine h.strip_eq hv ?_ hgap (by omega) (by omega)
  rw [← le_div_iff₀ h.side_pos]
  exact Int.floor_le _

/-! ### The strip below the origin

There the numbers are so dense that some come closer to the border than one unit. Of these the strip
grows with the coordinate, so it is enough to look at the last one that is found below the origin,
and at the one after it. -/

theorem Sound.unit_le_side (h : r.Sound) : r.unit ≤ r.side := by
  have hd : (1 : Rat) ≤ r.digits := by
    exact_mod_cast (by decide : 1 ≤ 2 ^ 23).trans h.digits.1
  have hmul := mul_le_mul_of_nonneg_right hd r.unit_pos.le
  rw [r.side_eq]
  linarith [r.unit_pos]

theorem Sound.strip_zero (h : r.Sound) : r.strip 0 = r.centre.toNat := by
  have hstrip := h.strip_eq_floor_of_gap onMap_zero value_zero (by simpa using h.unit_le_side)
  simpa using hstrip

theorem Sound.strip_neg_unit (h : r.Sound) :
    ∃ x : Single, x.value? = some (-r.unit) ∧ OnMap x ∧ r.strip x = r.centre.toNat + -1 := by
  have hunit := r.unit_pos
  have hle := h.unit_le_side
  have hone : r.unit ≤ 1 := div_le_one_of_le₀ (one_le_pow₀ (by norm_num)) (by positivity)
  obtain ⟨x, hx⟩ := (holds_single (n := 1) (by decide) h.scale).neg
  rw [Int.cast_one] at hx
  have hmap : OnMap x := by
    refine .of_value hx ?_
    rw [abs_neg, abs_of_pos (by positivity)]
    exact hone.trans (by norm_num [boundValue])
  have hfloor : ⌊-r.unit / r.side⌋ = -1 := by
    rw [Int.floor_eq_iff, le_div_iff₀ h.side_pos, div_lt_iff₀ h.side_pos]
    push_cast
    constructor <;> linarith
  have hstrip := h.strip_eq_floor_of_gap hmap hx (by
    change -r.unit + r.unit ≤ (⌊-r.unit / r.side⌋ + 1) * r.side
    rw [hfloor]
    simp)
  exact ⟨x, hx, hmap, hstrip.trans (congrArg _ hfloor)⟩

theorem Sound.strip_above_edge (h : r.Sound) (hedge : r.edge < c) (hneg : c < 0) :
    r.strip c = r.centre.toNat := by
  have hnext : r.next ≤ c := by
    obtain ⟨a, b, ha, hb, hab⟩ := lt_iff_place.1 hedge
    exact le_iff_place.2 ⟨a + 1, b, by rw [h.adjacent, ha]; rfl, hb, hab⟩
  have hends := h.between h.near.2 onMap_zero ⟨hnext, le_of_lt hneg, h.near.2.1, onMap_zero.1⟩
  rw [h.above, h.strip_zero] at hends
  omega

theorem Sound.strip_below_edge (h : r.Sound) (hc : OnMap c) (hv : c.value? = some v)
    (hedge : ¬r.edge < c) (hfloor : ⌊v / r.side⌋ = -1) : r.strip c = r.centre.toNat + -1 := by
  rcases le_or_gt (v + r.unit) 0 with hgap | hnear
  · have hstrip := h.strip_eq_floor_of_gap hc hv (by rw [hfloor]; simpa using hgap)
    rwa [hfloor] at hstrip
  · obtain ⟨x, hx, hmap, hstrip⟩ := h.strip_neg_unit
    obtain ⟨e, he⟩ := value_of_finite h.near.1.1
    have hlow : x ≤ c := (le_iff_value hx hv).2 (by linarith)
    have hhigh : c ≤ r.edge := by
      rw [lt_iff_value he hv, not_lt] at hedge
      exact (le_iff_value hv he).2 hedge
    have hends := h.between hmap h.near.1 ⟨hlow, hhigh, hmap.1, h.near.1.1⟩
    have hbelow := h.below
    omega

/-- On a map the number of a strip is the whole part of the exact quotient, except that the numbers
between `edge` and the origin count as the origin. -/
theorem Sound.strip_eq_floor (h : r.Sound) (hc : OnMap c) (hv : c.value? = some v) :
    r.strip c = r.centre.toNat + if r.edge < c ∧ c < 0 then 0 else ⌊v / r.side⌋ := by
  split
  · rename_i hnear
    rw [h.strip_above_edge hnear.1 hnear.2, add_zero]
  · rename_i hfar
    by_cases hfloor : ⌊v / r.side⌋ = -1
    · have hneg : v < 0 := by
        have hdiv := Int.lt_floor_add_one (v / r.side)
        rwa [hfloor, div_lt_iff₀ h.side_pos, Int.cast_neg, Int.cast_one, neg_add_cancel,
          zero_mul] at hdiv
      have hedge : ¬r.edge < c := fun hedge => hfar ⟨hedge, (lt_iff_value hv value_zero).2 hneg⟩
      rw [h.strip_below_edge hc hv hedge hfloor, hfloor]
    · refine h.strip_eq_floor_of_gap hc hv ?_
      have hgap := h.gap (k := ⌊v / r.side⌋ + 1) hv ?_ (by omega)
      · exact_mod_cast hgap
      · rw [← div_lt_iff₀ h.side_pos, Int.cast_add, Int.cast_one]
        exact Int.lt_floor_add_one _

end Ruler
end Realm.Geometry
