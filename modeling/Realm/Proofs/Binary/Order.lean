import Mathlib.Algebra.Order.Field.Rat
import Mathlib.Data.Rat.Floor
import Mathlib.Tactic.Linarith
import Mathlib.Tactic.Ring
import Realm.Binary.Basic

/-! # Rounding keeps the order

The exact result of an operation grows with its operands, and a larger number is never rounded to a
smaller one. -/

namespace Realm

/-! ## Rounded quotients -/

/-- A rounded quotient is off by half at most, and by half only if it is even. -/
theorem divRoundHalfEven_spec (num : Nat) {den : Nat} (hd : 0 < den) :
    2 * (divRoundHalfEven num den * den) ≤ 2 * num + den ∧
      2 * num ≤ 2 * (divRoundHalfEven num den * den) + den ∧
      (2 * (divRoundHalfEven num den * den) = 2 * num + den ∨
        2 * num = 2 * (divRoundHalfEven num den * den) + den →
          divRoundHalfEven num den % 2 = 0) := by
  have hnum := Nat.div_add_mod' num den
  have hrest := Nat.mod_lt num hd
  have hsucc : (num / den + 1) * den = num / den * den + den := Nat.succ_mul _ _
  unfold divRoundHalfEven
  dsimp only
  split
  · exact ⟨by omega, by omega, by omega⟩
  · split
    · rw [hsucc]
      exact ⟨by omega, by omega, by omega⟩
    · split
      · exact ⟨by omega, by omega, by omega⟩
      · rw [hsucc]
        exact ⟨by omega, by omega, by omega⟩

theorem divRoundHalfEven_mono {num den num' den' : Nat} (hd : 0 < den) (hd' : 0 < den')
    (h : num * den' ≤ num' * den) : divRoundHalfEven num den ≤ divRoundHalfEven num' den' := by
  obtain ⟨hlow, -, heven⟩ := divRoundHalfEven_spec num hd
  obtain ⟨-, hhigh, heven'⟩ := divRoundHalfEven_spec num' hd'
  generalize divRoundHalfEven num den = r at *
  generalize divRoundHalfEven num' den' = r' at *
  by_contra hlt
  have hr : r' + 1 ≤ r := by omega
  have hpos := Nat.mul_pos hd hd'
  -- both quotients would lie half way between the two results
  have hchain : 2 * (r * den) * den' ≤ 2 * (r' * den') * den + 2 * (den * den') := by nlinarith
  have hr' : r = r' + 1 := by nlinarith
  subst hr'
  have htie : 2 * ((r' + 1) * den) = 2 * num + den := by
    refine Nat.le_antisymm hlow (Nat.le_of_mul_le_mul_right ?_ hd')
    nlinarith
  have htie' : 2 * num' = 2 * (r' * den') + den' := by
    refine Nat.le_antisymm hhigh (Nat.le_of_mul_le_mul_right ?_ hd)
    nlinarith
  have := heven (.inl htie)
  have := heven' (.inr htie')
  omega

theorem divRoundHalfEven_mul {den : Nat} (hd : 0 < den) (r : Nat) :
    divRoundHalfEven (r * den) den = r := by
  rw [divRoundHalfEven]
  simp [hd]

theorem divRoundHalfEven_le {num den r : Nat} (hd : 0 < den) (h : num ≤ r * den) :
    divRoundHalfEven num den ≤ r := by
  rw [← divRoundHalfEven_mul hd r]
  exact divRoundHalfEven_mono hd hd (Nat.mul_le_mul_right den h)

theorem le_divRoundHalfEven {num den r : Nat} (hd : 0 < den) (h : r * den ≤ num) :
    r ≤ divRoundHalfEven num den := by
  rw [← divRoundHalfEven_mul hd r]
  exact divRoundHalfEven_mono hd hd (Nat.mul_le_mul_right den h)

/-! ## Ranks -/

theorem twoPow_eq (n : Nat) : twoPow n = 2 ^ n := rfl

theorem twoPow_pos (n : Nat) : 0 < twoPow n := Nat.two_pow_pos n

namespace Format

variable (f : Format)

theorem binade_pos : 0 < f.binade := twoPow_pos _

theorem nearestRank_mono {num den num' den' : Nat} (hd : 0 < den) (hd' : 0 < den')
    (h : num * den' ≤ num' * den) : f.nearestRank num den ≤ f.nearestRank num' den' := by
  have hquot : num / den ≤ num' / den' := by
    rw [Nat.le_div_iff_mul_le hd']
    refine Nat.le_of_mul_le_mul_right ?_ hd
    calc num / den * den' * den = num / den * den * den' := by ring
      _ ≤ num * den' := Nat.mul_le_mul_right _ (Nat.div_mul_le_self ..)
      _ ≤ num' * den := h
  unfold nearestRank
  dsimp only
  have hlog : Nat.log2 (num / den) ≤ Nat.log2 (num' / den') := by
    by_cases hz : num / den = 0
    · rw [hz]
      exact Nat.zero_le _
    · rw [Nat.le_log2 ((Nat.pos_of_ne_zero hz).trans_le hquot).ne']
      exact (Nat.log2_self_le hz).trans hquot
  rcases Nat.eq_or_lt_of_le (Nat.sub_le_sub_right hlog (f.precision - 1)) with heq | hlt
  · -- the same exponent
    rw [heq]
    refine Nat.add_le_add_left (divRoundHalfEven_mono ?_ ?_ ?_) _
    · exact Nat.mul_pos hd (twoPow_pos _)
    · exact Nat.mul_pos hd' (twoPow_pos _)
    · calc num * (den' * _) = num * den' * _ := (Nat.mul_assoc ..).symm
        _ ≤ num' * den * _ := Nat.mul_le_mul_right _ h
        _ = num' * (den * _) := Nat.mul_assoc ..
  · -- the largest rank of the smaller exponent is the least rank of the next one
    generalize hs : Nat.log2 (num / den) - (f.precision - 1) = s at hlt ⊢
    generalize hs' : Nat.log2 (num' / den') - (f.precision - 1) = s' at hlt ⊢
    have hupper : divRoundHalfEven num (den * twoPow s) ≤ 2 * f.binade := by
      refine divRoundHalfEven_le (Nat.mul_pos hd (twoPow_pos s)) ?_
      have hlt : num / den < 2 * f.binade * twoPow s := by
        refine Nat.lt_log2_self.trans_le ?_
        rw [binade, twoPow_eq, twoPow_eq, ← Nat.pow_succ', ← Nat.pow_add]
        exact Nat.pow_le_pow_right (by decide) (by omega)
      rw [Nat.div_lt_iff_lt_mul hd] at hlt
      calc num ≤ 2 * f.binade * twoPow s * den := hlt.le
        _ = 2 * f.binade * (den * twoPow s) := by ring
    have hlower : f.binade ≤ divRoundHalfEven num' (den' * twoPow s') := by
      refine le_divRoundHalfEven (Nat.mul_pos hd' (twoPow_pos s')) ?_
      have hne : num' / den' ≠ 0 := by
        intro he
        rw [he, Nat.log2_zero] at hs'
        omega
      have hle : f.binade * twoPow s' ≤ num' / den' := by
        refine le_trans ?_ (Nat.log2_self_le hne)
        rw [binade, twoPow_eq, twoPow_eq, ← Nat.pow_add]
        exact Nat.pow_le_pow_right (by decide) (by omega)
      rw [Nat.le_div_iff_mul_le hd'] at hle
      calc f.binade * (den' * twoPow s') = f.binade * twoPow s' * den' := by ring
        _ ≤ num' := hle
    have hstep : (s + 1) * f.binade ≤ s' * f.binade := Nat.mul_le_mul_right _ hlt
    rw [Nat.succ_mul] at hstep
    omega

theorem nearestRank_zero (den : Nat) : f.nearestRank 0 den = 0 := by
  simp [nearestRank, divRoundHalfEven]

theorem units_mono {k k' : Nat} (h : k ≤ k') : f.units k ≤ f.units k' := by
  have hpos := f.binade_pos
  have hdiv := Nat.div_le_div_right (c := f.binade) h
  unfold units
  split
  · rename_i hk
    split
    · exact h
    · calc k ≤ f.binade * 1 := by omega
        _ ≤ (f.binade + k' % f.binade) * twoPow (k' / f.binade - 1) :=
          Nat.mul_le_mul (Nat.le_add_right ..) (twoPow_pos _)
  · rename_i hk
    have hone : 1 ≤ k / f.binade := (Nat.one_le_div_iff hpos).2 (by omega)
    rw [if_neg (by omega)]
    rcases Nat.eq_or_lt_of_le hdiv with heq | hlt
    · rw [heq]
      refine Nat.mul_le_mul_right _ (Nat.add_le_add_left ?_ _)
      have hk' := Nat.div_add_mod k f.binade
      have hk'' := Nat.div_add_mod k' f.binade
      rw [heq] at hk'
      omega
    · calc (f.binade + k % f.binade) * twoPow (k / f.binade - 1)
          ≤ 2 * f.binade * twoPow (k / f.binade - 1) :=
            Nat.mul_le_mul_right _ (by have := Nat.mod_lt k hpos; omega)
        _ = f.binade * twoPow (k / f.binade - 1 + 1) := by
            rw [twoPow_eq, twoPow_eq, Nat.pow_succ]; ring
        _ ≤ (f.binade + k' % f.binade) * twoPow (k' / f.binade - 1) :=
            Nat.mul_le_mul (Nat.le_add_right ..)
              (Nat.pow_le_pow_right (by decide) (by omega))

end Format

namespace Binary

variable {f g : Format} {x y lo hi : Binary f} {v v' : Rat} {a b : Int}

/-! ## Places -/

theorem le_iff_place : x ≤ y ↔ ∃ a b, x.place? = some a ∧ y.place? = some b ∧ a ≤ b := by
  change compareBy _ x y = true ↔ _
  rw [compareBy]
  cases x.place? <;> cases y.place? <;> simp

theorem place?_neg (x : Binary f) : (-x).place? = x.place?.map fun a => -a := by
  change x.neg.place? = _
  cases x with
  | nan => rfl
  | infinite n => cases n <;> simp [neg, place?]
  | finite n r => cases n <;> simp [neg, place?]

theorem le_of_abs_le (h : x.abs ≤ y) : -y ≤ x ∧ x ≤ y := by
  obtain ⟨a, b, ha, hb, hab⟩ := le_iff_place.1 h
  have hx : ∃ a', x.place? = some a' ∧ |a'| = a := by
    cases x with
    | nan => exact nomatch ha
    | infinite n => cases ha; cases n <;> exact ⟨_, rfl, by simp⟩
    | finite n r => cases ha; cases n <;> exact ⟨_, rfl, by simp⟩
  obtain ⟨a', ha', rfl⟩ := hx
  obtain ⟨hneg, hpos⟩ := abs_le.1 hab
  exact ⟨le_iff_place.2 ⟨_, _, by rw [place?_neg, hb]; rfl, ha', hneg⟩,
    le_iff_place.2 ⟨_, _, ha', hb, hpos⟩⟩

theorem abs_le_of_le (hlow : -y ≤ x) (hhigh : x ≤ y) : x.abs ≤ y := by
  obtain ⟨b, a, hb, ha, hba⟩ := le_iff_place.1 hlow
  obtain ⟨a', b', ha', hb', hab⟩ := le_iff_place.1 hhigh
  rw [ha] at ha'
  cases ha'
  rw [place?_neg, hb'] at hb
  cases hb
  have habs : x.abs.place? = some |a| := by
    cases x with
    | nan => exact nomatch ha
    | infinite n => cases ha; cases n <;> simp [abs, place?]
    | finite n r => cases ha; cases n <;> simp [abs, place?]
  exact le_iff_place.2 ⟨_, _, habs, hb', abs_le.2 ⟨hba, hab⟩⟩

theorem value_of_finite (h : x.isFinite = true) : ∃ v, x.value? = some v := by
  cases x with
  | nan => exact nomatch h
  | infinite n => exact nomatch h
  | finite n r => exact ⟨_, rfl⟩

/-- The value at a place, also beyond the last finite number. -/
def valueAt (f : Format) (a : Int) : Rat :=
  (if a < 0 then -(f.units a.natAbs : Rat) else f.units a.natAbs) / twoPow f.scale

theorem valueAt_mono (h : a ≤ b) : valueAt f a ≤ valueAt f b := by
  rw [valueAt]
  refine div_le_div_of_nonneg_right ?_ (by positivity)
  split
  · split
    · refine neg_le_neg ?_
      exact_mod_cast f.units_mono (by omega)
    · refine (neg_nonpos.2 (by positivity)).trans (by positivity)
  · rw [if_neg (by omega)]
    exact_mod_cast f.units_mono (by omega)

theorem units_zero : f.units 0 = 0 := if_pos f.binade_pos

theorem value?_eq (hx : x.value? = some v) : ∃ a, x.place? = some a ∧ v = valueAt f a := by
  cases x with
  | nan => exact nomatch hx
  | infinite n => exact nomatch hx
  | finite n r =>
    refine ⟨_, rfl, ?_⟩
    cases hx
    rw [signedValue, Rat.mkRat_eq_div, valueAt]
    cases n with
    | false =>
      have hr : ¬(r.val : Int) < 0 := by omega
      simp [hr]
    | true =>
      rcases Nat.eq_zero_or_pos r.val with hr | hr
      · simp [hr, units_zero]
      · simp [hr]

/-- The order of finite numbers is that of their values. -/
theorem value_le (hx : x.value? = some v) (hy : y.value? = some v') (h : x ≤ y) : v ≤ v' := by
  obtain ⟨a, b, ha, hb, hab⟩ := le_iff_place.1 h
  obtain ⟨a', ha', rfl⟩ := value?_eq hx
  obtain ⟨b', hb', rfl⟩ := value?_eq hy
  rw [ha] at ha'
  rw [hb] at hb'
  cases ha'
  cases hb'
  exact valueAt_mono hab

/-- What lies between finite numbers is finite. -/
theorem isFinite_of_between (hlo : lo ≤ x) (hhi : x ≤ hi) (hl : lo.isFinite = true)
    (hh : hi.isFinite = true) : x.isFinite = true := by
  obtain ⟨a, b, ha, hb, hab⟩ := le_iff_place.1 hlo
  obtain ⟨b', c, hb', hc, hbc⟩ := le_iff_place.1 hhi
  rw [hb] at hb'
  cases hb'
  cases x with
  | nan => exact nomatch hb
  | finite n r => rfl
  | infinite n =>
    cases lo with
    | nan => exact nomatch hl
    | infinite m => exact nomatch hl
    | finite m r =>
      cases hi with
      | nan => exact nomatch hh
      | infinite m => exact nomatch hh
      | finite m' r' =>
        simp only [place?, Option.some.injEq] at ha hb hc
        have hr := r.isLt
        have hr' := r'.isLt
        cases n <;> cases m <;> cases m' <;> simp at ha hb hc <;> omega

/-! ## Rounding -/

/-- How far from zero rounding leads, cut off at infinity. -/
def reach (f : Format) (q : Rat) : Nat :=
  min (f.nearestRank (q.num.natAbs * twoPow f.scale) q.den) f.magnitudes

theorem place?_round (f : Format) (s : Bool) (q : Rat) :
    (round f s q).place? =
      some (if (if q.num = 0 then s else decide (q.num < 0)) then -(reach f q : Int)
        else reach f q) := by
  unfold round reach
  dsimp only
  split
  · rename_i h
    rw [Nat.min_eq_left h.le]
    rfl
  · rename_i h
    rw [Nat.min_eq_right (by omega)]
    rfl

theorem reach_zero (f : Format) : reach f 0 = 0 := by
  simp [reach, Format.nearestRank_zero]

theorem reach_neg (q : Rat) : reach f (-q) = reach f q := by
  simp [reach]

theorem reach_mono {q q' : Rat} (hq : 0 ≤ q) (h : q ≤ q') : reach f q ≤ reach f q' := by
  refine min_le_min_right _ (f.nearestRank_mono q.den_pos q'.den_pos ?_)
  have hcross := (Rat.le_iff q q').1 h
  have hnum := Rat.num_nonneg.2 hq
  have hnum' := Rat.num_nonneg.2 (hq.trans h)
  have hle : q.num.natAbs * q'.den ≤ q'.num.natAbs * q.den := by
    zify
    rwa [abs_of_nonneg hnum, abs_of_nonneg hnum']
  calc q.num.natAbs * twoPow f.scale * q'.den = q.num.natAbs * q'.den * twoPow f.scale := by ring
    _ ≤ q'.num.natAbs * q.den * twoPow f.scale := Nat.mul_le_mul_right _ hle
    _ = q'.num.natAbs * twoPow f.scale * q.den := by ring

theorem place?_round_of_nonneg {q : Rat} (hq : 0 ≤ q) (s : Bool) :
    (round f s q).place? = some (reach f q : Int) := by
  rw [place?_round]
  by_cases hz : q.num = 0
  · rw [Rat.num_eq_zero.1 hz, reach_zero]
    simp
  · have hn : ¬q.num < 0 := fun h => not_lt.2 hq (Rat.num_neg.1 h)
    simp [hz, hn]

theorem place?_round_of_neg {q : Rat} (hq : q < 0) (s : Bool) :
    (round f s q).place? = some (-reach f q : Int) := by
  have hn := Rat.num_neg.2 hq
  rw [place?_round, if_neg hn.ne, decide_eq_true hn, if_pos rfl]

/-- A larger number is not rounded to a smaller one. -/
theorem round_mono {q q' : Rat} (h : q ≤ q') (s s' : Bool) : round f s q ≤ round f s' q' := by
  rw [le_iff_place]
  rcases lt_or_ge q 0 with hneg | hpos
  · rcases lt_or_ge q' 0 with hneg' | hpos'
    · have hm := reach_mono (f := f) (neg_nonneg.2 hneg'.le) (neg_le_neg h)
      rw [reach_neg, reach_neg] at hm
      exact ⟨_, _, place?_round_of_neg hneg s, place?_round_of_neg hneg' s', by omega⟩
    · exact ⟨_, _, place?_round_of_neg hneg s, place?_round_of_nonneg hpos' s', by omega⟩
  · have hm := reach_mono (f := f) hpos h
    exact ⟨_, _, place?_round_of_nonneg hpos s, place?_round_of_nonneg (hpos.trans h) s', by omega⟩

/-! ## Operations -/

/-- `x` lies between finite numbers. -/
structure Between (lo x hi : Binary f) : Prop where
  low : lo ≤ x
  high : x ≤ hi
  finiteLow : lo.isFinite = true
  finiteHigh : hi.isFinite = true

instance (lo x hi : Binary f) : Decidable (Between lo x hi) :=
  decidable_of_iff (lo ≤ x ∧ x ≤ hi ∧ lo.isFinite = true ∧ hi.isFinite = true)
    ⟨fun ⟨hl, hh, hfl, hfh⟩ => ⟨hl, hh, hfl, hfh⟩, fun ⟨hl, hh, hfl, hfh⟩ => ⟨hl, hh, hfl, hfh⟩⟩

theorem Between.isFinite (h : Between lo x hi) : x.isFinite = true :=
  isFinite_of_between h.low h.high h.finiteLow h.finiteHigh

/-- An operation on one number that rounds an exact value which grows with the number. -/
theorem Between.map (op : Binary f → Binary g) (exact : Rat → Rat)
    (hop : ∀ {x v}, x.value? = some v → ∃ s, op x = round g s (exact v))
    (hmono : ∀ {v v'}, v ≤ v' → exact v ≤ exact v') (h : Between lo x hi)
    (hl : (op lo).isFinite = true) (hh : (op hi).isFinite = true) :
    Between (op lo) (op x) (op hi) := by
  obtain ⟨vl, hvl⟩ := value_of_finite h.finiteLow
  obtain ⟨vx, hvx⟩ := value_of_finite h.isFinite
  obtain ⟨vh, hvh⟩ := value_of_finite h.finiteHigh
  obtain ⟨sl, hsl⟩ := hop hvl
  obtain ⟨sx, hsx⟩ := hop hvx
  obtain ⟨sh, hsh⟩ := hop hvh
  refine ⟨?_, ?_, hl, hh⟩
  · rw [hsl, hsx]
    exact round_mono (hmono (value_le hvl hvx h.low)) sl sx
  · rw [hsx, hsh]
    exact round_mono (hmono (value_le hvx hvh h.high)) sx sh

theorem convert_eq_round (hx : x.value? = some v) : ∃ s, x.convert g = round g s v := by
  cases x with
  | nan => exact nomatch hx
  | infinite n => exact nomatch hx
  | finite n r => cases hx; exact ⟨n, rfl⟩

theorem add_eq_round (hx : x.value? = some v) (hy : y.value? = some v') :
    ∃ s, x + y = round f s (v + v') := by
  cases x with
  | nan => exact nomatch hx
  | infinite n => exact nomatch hx
  | finite n r =>
    cases y with
    | nan => exact nomatch hy
    | infinite m => exact nomatch hy
    | finite m r' => cases hx; cases hy; exact ⟨n && m, rfl⟩

theorem value?_neg (hy : y.value? = some v') : y.neg.value? = some (-v') := by
  cases y with
  | nan => exact nomatch hy
  | infinite m => exact nomatch hy
  | finite m r =>
    cases hy
    simp only [neg, value?, signedValue, Rat.mkRat_eq_div]
    cases m <;> simp [neg_div]

theorem sub_eq_round (hx : x.value? = some v) (hy : y.value? = some v') :
    ∃ s, x - y = round f s (v - v') := by
  rw [sub_eq_add_neg]
  exact add_eq_round (y := y.neg) hx (value?_neg hy)

theorem div_eq_round (hx : x.value? = some v) (hy : y.value? = some v') (hv : v' ≠ 0) :
    ∃ s, x / y = round f s (v / v') := by
  cases x with
  | nan => exact nomatch hx
  | infinite n => exact nomatch hx
  | finite n r =>
    cases y with
    | nan => exact nomatch hy
    | infinite m => exact nomatch hy
    | finite m r' =>
      cases hx
      cases hy
      have hr : r'.val ≠ 0 := fun h0 => hv (by simp [signedValue, h0, units_zero])
      exact ⟨n ^^ m, if_neg hr⟩

theorem mul_eq_round (hx : x.value? = some v) (hy : y.value? = some v') :
    ∃ s, x * y = round f s (v * v') := by
  cases x with
  | nan => exact nomatch hx
  | infinite n => exact nomatch hx
  | finite n r =>
    cases y with
    | nan => exact nomatch hy
    | infinite m => exact nomatch hy
    | finite m r' => cases hx; cases hy; exact ⟨n ^^ m, rfl⟩

theorem Between.convert (h : Between lo x hi) (hl : (lo.convert g).isFinite = true)
    (hh : (hi.convert g).isFinite = true) : Between (lo.convert g) (x.convert g) (hi.convert g) :=
  h.map _ (fun v => v) convert_eq_round (fun h => h) hl hh

theorem Between.add (h : Between lo x hi) (hy : y.value? = some v')
    (hl : (lo + y).isFinite = true) (hh : (hi + y).isFinite = true) :
    Between (lo + y) (x + y) (hi + y) :=
  h.map (· + y) _ (fun hx => add_eq_round hx hy) (fun h => add_le_add_left h v') hl hh

theorem Between.sub (h : Between lo x hi) (hy : y.value? = some v')
    (hl : (lo - y).isFinite = true) (hh : (hi - y).isFinite = true) :
    Between (lo - y) (x - y) (hi - y) :=
  h.map (· - y) _ (fun hx => sub_eq_round hx hy) (fun h => sub_le_sub_right h v') hl hh

theorem Between.div (h : Between lo x hi) (hy : y.value? = some v') (hv : 0 < v')
    (hl : (lo / y).isFinite = true) (hh : (hi / y).isFinite = true) :
    Between (lo / y) (x / y) (hi / y) :=
  h.map (· / y) _ (fun hx => div_eq_round hx hy hv.ne')
    (fun h => div_le_div_of_nonneg_right h hv.le) hl hh

theorem Between.mul (h : Between lo x hi) (hy : y.value? = some v') (hv : 0 ≤ v')
    (hl : (lo * y).isFinite = true) (hh : (hi * y).isFinite = true) :
    Between (lo * y) (x * y) (hi * y) :=
  h.map (· * y) _ (fun hx => mul_eq_round hx hy) (fun h => mul_le_mul_of_nonneg_right h hv) hl hh

/-! ## Integer parts -/

theorem tdiv_mono {q q' : Rat} (h : q ≤ q') : q.num.tdiv q.den ≤ q'.num.tdiv q'.den := by
  have hnonneg {q : Rat} (hq : 0 ≤ q) : q.num.tdiv q.den = ⌊q⌋ := by
    rw [Int.tdiv_eq_ediv_of_nonneg (Rat.num_nonneg.2 hq), Rat.floor_def']
  have hneg {q : Rat} (hq : q < 0) : q.num.tdiv q.den = -⌊-q⌋ := by
    rw [← hnonneg (neg_nonneg.2 hq.le), Rat.num_neg_eq_neg_num, Rat.den_neg_eq_den, Int.neg_tdiv,
      neg_neg]
  rcases lt_or_ge q 0 with hq | hq
  · rcases lt_or_ge q' 0 with hq' | hq'
    · rw [hneg hq, hneg hq']
      exact neg_le_neg (Int.floor_le_floor (neg_le_neg h))
    · rw [hneg hq, hnonneg hq']
      have hleft : 0 ≤ ⌊-q⌋ := Int.floor_nonneg.2 (neg_nonneg.2 hq.le)
      have hright : 0 ≤ ⌊q'⌋ := Int.floor_nonneg.2 hq'
      omega
  · rw [hnonneg hq, hnonneg (hq.trans h)]
    exact Int.floor_le_floor h

theorem toInt32_eq (hx : x.value? = some v) :
    x.toInt32 = max toInt32.low (min toInt32.high (v.num.tdiv v.den)) := by
  cases x with
  | nan => exact nomatch hx
  | infinite n => exact nomatch hx
  | finite n r => cases hx; rfl

theorem Between.toInt32 (h : Between lo x hi) :
    lo.toInt32 ≤ x.toInt32 ∧ x.toInt32 ≤ hi.toInt32 := by
  obtain ⟨vl, hvl⟩ := value_of_finite h.finiteLow
  obtain ⟨vx, hvx⟩ := value_of_finite h.isFinite
  obtain ⟨vh, hvh⟩ := value_of_finite h.finiteHigh
  rw [toInt32_eq hvl, toInt32_eq hvx, toInt32_eq hvh]
  exact ⟨max_le_max_left _ (min_le_min_left _ (tdiv_mono (value_le hvl hvx h.low))),
    max_le_max_left _ (min_le_min_left _ (tdiv_mono (value_le hvx hvh h.high)))⟩

end Binary
end Realm
