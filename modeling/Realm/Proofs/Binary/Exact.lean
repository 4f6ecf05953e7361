import Realm.Proofs.Binary.Order

/-! # Rounding keeps what is exact

A value of the format is rounded to itself, so a number at most as large as an exact result is at
most as large as the rounded one. -/

namespace Realm

/-! ## Ranks -/

namespace Format

variable (f : Format)

theorem units_pos {k : Nat} (hk : 0 < k) : 0 < f.units k := by
  rw [units]
  split
  · exact hk
  · exact Nat.mul_pos (Nat.add_pos_left f.binade_pos _) (twoPow_pos _)

theorem nearestRank_units_of_lt {k : Nat} (hk : k < f.binade) :
    f.nearestRank (f.units k) 1 = k := by
  have hshift : Nat.log2 k - (f.precision - 1) = 0 := by
    rcases Nat.eq_zero_or_pos k with rfl | hpos
    · rw [Nat.log2_zero, Nat.zero_sub]
    · have hlog := (Nat.log2_lt hpos.ne').2 hk
      omega
  have hround : divRoundHalfEven k 1 = k := by
    simpa using divRoundHalfEven_mul Nat.one_pos k
  rw [nearestRank, units, if_pos hk, Nat.div_one, hshift]
  simp [twoPow_eq, hround]

/-- From the first binade on, a rank is its exponent and its significand. -/
theorem nearestRank_units_of_le {k : Nat} (hk : f.binade ≤ k) :
    f.nearestRank (f.units k) 1 = k := by
  have hpos := f.binade_pos
  have hsplit := Nat.div_add_mod' k f.binade
  have hrest := Nat.mod_lt k hpos
  have hone : 1 ≤ k / f.binade := (Nat.one_le_div_iff hpos).2 hk
  rw [units, if_neg (Nat.not_lt.2 hk)]
  generalize he : k / f.binade - 1 = e
  generalize k % f.binade = r at hsplit hrest ⊢
  have hlog : Nat.log2 ((f.binade + r) * twoPow e) = f.precision - 1 + e := by
    have hne : (f.binade + r) * twoPow e ≠ 0 :=
      (Nat.mul_pos (Nat.add_pos_left hpos r) (twoPow_pos e)).ne'
    rw [Nat.log2_eq_iff hne, Nat.pow_succ, Nat.pow_add]
    constructor
    · exact Nat.mul_le_mul_right _ (Nat.le_add_right ..)
    · calc (f.binade + r) * twoPow e < (f.binade + f.binade) * twoPow e :=
            Nat.mul_lt_mul_of_pos_right (by omega) (twoPow_pos e)
        _ = 2 ^ (f.precision - 1) * 2 ^ e * 2 := by rw [binade, twoPow_eq, twoPow_eq]; ring
  rw [nearestRank, Nat.div_one, hlog, Nat.add_sub_cancel_left]
  rw [Nat.one_mul, divRoundHalfEven_mul (twoPow_pos e)]
  have hexp : k / f.binade = e + 1 := by omega
  rw [hexp, Nat.succ_mul] at hsplit
  omega

theorem nearestRank_units (k : Nat) : f.nearestRank (f.units k) 1 = k := by
  rcases Nat.lt_or_ge k f.binade with hk | hk
  · exact f.nearestRank_units_of_lt hk
  · exact f.nearestRank_units_of_le hk

/-- The rank of a quotient does not depend on how it is written. -/
theorem nearestRank_eq {num den k : Nat} (hd : 0 < den) (h : num = f.units k * den) :
    f.nearestRank num den = k := by
  have hcross : num * 1 = f.units k * den := by rw [h, Nat.mul_one]
  rw [← f.nearestRank_units k]
  exact Nat.le_antisymm (f.nearestRank_mono hd Nat.one_pos hcross.le)
    (f.nearestRank_mono Nat.one_pos hd hcross.ge)

end Format

namespace Binary

variable {f : Format} {x y z : Binary f} {v q : Rat}

/-! ## Rounding a value -/

theorem reach_of_units {k : Nat} (hk : k ≤ f.magnitudes) (hq : 0 ≤ q)
    (h : q * twoPow f.scale = f.units k) : reach f q = k := by
  have hnum : q.num.natAbs * twoPow f.scale = f.units k * q.den := by
    have hnat : (q.num.natAbs : Rat) = q.num := by
      rw [Nat.cast_natAbs, abs_of_nonneg (Rat.num_nonneg.2 hq)]
    have hden : (q.den : Rat) ≠ 0 := by exact_mod_cast q.den_ne_zero
    have hcross : (q.num.natAbs * twoPow f.scale : Rat) = f.units k * q.den := by
      rw [← h, hnat]
      calc (q.num : Rat) * twoPow f.scale
          = q.num / q.den * q.den * twoPow f.scale := by rw [div_mul_cancel₀ _ hden]
        _ = q * twoPow f.scale * q.den := by rw [Rat.num_div_den]; ring
    exact_mod_cast hcross
  rw [reach, f.nearestRank_eq q.den_pos hnum, Nat.min_eq_left hk]

theorem natAbs_place_lt (hx : x.isFinite = true) {a : Int} (ha : x.place? = some a) :
    a.natAbs < f.magnitudes := by
  cases x with
  | nan | infinite => exact nomatch hx
  | finite n r =>
    cases ha
    cases n <;> simp

theorem isFinite_of_value (hx : x.value? = some v) : x.isFinite = true := by
  cases x with
  | nan | infinite => exact nomatch hx
  | finite => rfl

/-- A value is rounded to the place that it comes from. -/
theorem place?_round_value (hx : x.value? = some v) (s : Bool) :
    (round f s v).place? = x.place? := by
  obtain ⟨a, ha, rfl⟩ := value?_eq hx
  have hk := (natAbs_place_lt (isFinite_of_value hx) ha).le
  have hscale : (twoPow f.scale : Rat) ≠ 0 := by exact_mod_cast (twoPow_pos f.scale).ne'
  rw [ha]
  rcases lt_or_ge a 0 with hneg | hpos
  · have hval : valueAt f a = -((f.units a.natAbs : Rat) / twoPow f.scale) := by
      rw [valueAt, if_pos hneg, neg_div]
    have hlt : valueAt f a < 0 := by
      have hunits : (0 : Rat) < f.units a.natAbs := by exact_mod_cast f.units_pos (by omega)
      rw [hval, neg_lt_zero]
      positivity
    have hreach : reach f (valueAt f a) = a.natAbs := by
      rw [hval, reach_neg]
      exact reach_of_units hk (by positivity) (div_mul_cancel₀ _ hscale)
    rw [place?_round_of_neg hlt, hreach]
    congr 1
    omega
  · have hval : valueAt f a = (f.units a.natAbs : Rat) / twoPow f.scale := by
      rw [valueAt, if_neg (not_lt.2 hpos)]
    have hreach : reach f (valueAt f a) = a.natAbs := by
      rw [hval]
      exact reach_of_units hk (by positivity) (div_mul_cancel₀ _ hscale)
    rw [place?_round_of_nonneg (by rw [hval]; positivity), hreach]
    congr 1
    omega

/-! ## Numbers and exact results -/

theorem le_congr_left (h : x.place? = y.place?) : x ≤ z ↔ y ≤ z := by
  rw [le_iff_place, le_iff_place, h]

theorem le_congr_right (h : y.place? = z.place?) : x ≤ y ↔ x ≤ z := by
  rw [le_iff_place, le_iff_place, h]

theorem le_round (hx : x.value? = some v) (h : v ≤ q) (s : Bool) : x ≤ round f s q :=
  (le_congr_left (place?_round_value hx s)).1 (round_mono h s s)

theorem round_le (hx : x.value? = some v) (h : q ≤ v) (s : Bool) : round f s q ≤ x :=
  (le_congr_right (place?_round_value hx s)).1 (round_mono h s s)

/-! ## The order -/

theorem le_trans (h : x ≤ y) (h' : y ≤ z) : x ≤ z := by
  obtain ⟨a, b, ha, hb, hab⟩ := le_iff_place.1 h
  obtain ⟨b', c, hb', hc, hbc⟩ := le_iff_place.1 h'
  rw [hb] at hb'
  cases hb'
  exact le_iff_place.2 ⟨a, c, ha, hc, hab.trans hbc⟩

theorem lt_iff_place : x < y ↔ ∃ a b, x.place? = some a ∧ y.place? = some b ∧ a < b := by
  change compareBy _ x y = true ↔ _
  rw [compareBy]
  cases x.place? <;> cases y.place? <;> simp

theorem le_of_lt (h : x < y) : x ≤ y := by
  obtain ⟨a, b, ha, hb, hab⟩ := lt_iff_place.1 h
  exact le_iff_place.2 ⟨a, b, ha, hb, hab.le⟩

/-- Numbers can be compared. -/
theorem le_of_not_lt {a b : Int} (hx : x.place? = some a) (hy : y.place? = some b) (h : ¬x < y) :
    y ≤ x :=
  le_iff_place.2 ⟨b, a, hy, hx, not_lt.1 fun hab => h (lt_iff_place.2 ⟨a, b, hx, hy, hab⟩)⟩

theorem not_lt_of_le (h : y ≤ x) : ¬x < y := by
  intro hlt
  obtain ⟨b, a, hb, ha, hba⟩ := le_iff_place.1 h
  obtain ⟨a', b', ha', hb', hab⟩ := lt_iff_place.1 hlt
  rw [ha] at ha'
  rw [hb] at hb'
  cases ha'
  cases hb'
  omega

theorem le_iff_value {v' : Rat} (hx : x.value? = some v) (hy : y.value? = some v') :
    x ≤ y ↔ v ≤ v' :=
  ⟨value_le hx hy, fun h =>
    (le_congr_right (place?_round_value hy false)).1 (le_round hx h false)⟩

theorem lt_iff_value {v' : Rat} (hx : x.value? = some v) (hy : y.value? = some v') :
    x < y ↔ v < v' := by
  obtain ⟨a, ha, -⟩ := value?_eq hx
  obtain ⟨b, hb, -⟩ := value?_eq hy
  rw [← not_le, ← le_iff_value hy hx]
  exact ⟨fun h hle => not_lt_of_le hle h, fun h => not_not.1 fun hlt => h (le_of_not_lt ha hb hlt)⟩

end Binary
end Realm
