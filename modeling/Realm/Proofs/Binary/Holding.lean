import Realm.Proofs.Binary.Exact

/-! # Numbers that a format holds

A format holds the whole numbers of few digits, and their halves, quarters and so on down to its
scale. Rounding does not pass a number that is held: an exact result between two of them becomes a
number between them. -/

namespace Realm

/-! ## Ranks of given numbers of units -/

namespace Format

variable (f : Format)

/-- The exponents reach far enough for every number of the scale. -/
def Wide (f : Format) : Prop := f.scale + 3 ≤ twoPow f.exponentBits

instance : Decidable f.Wide := inferInstanceAs (Decidable (_ ≤ _))

theorem cast_twoPow_scale {j : Nat} (hj : j ≤ f.scale) :
    (twoPow f.scale : Rat) = twoPow (f.scale - j) * 2 ^ j := by
  rw [twoPow_eq, twoPow_eq, Nat.cast_pow, Nat.cast_pow, Nat.cast_ofNat, ← pow_add,
    Nat.sub_add_cancel hj]

/-- A number of at most `precision` digits, shifted to the left, is that of a rank. -/
theorem exists_units (e : Nat) {n : Nat} (hn : n < 2 * f.binade) :
    ∃ k < (e + 2) * f.binade, f.units k = n * twoPow e := by
  have hpos := f.binade_pos
  induction e generalizing n with
  | zero =>
    refine ⟨n, by omega, ?_⟩
    rw [units]
    split
    · exact (Nat.mul_one n).symm
    · rename_i hle
      have hdiv : n / f.binade = 1 := by
        rw [Nat.div_eq_iff hpos]
        omega
      have hmod := Nat.div_add_mod n f.binade
      rw [hdiv] at hmod ⊢
      change (f.binade + n % f.binade) * 1 = n * 1
      omega
  | succ e ih =>
    rcases Nat.lt_or_ge n f.binade with hlt | hge
    · -- one digit is left to shift
      obtain ⟨k, hk, hunits⟩ := ih (n := 2 * n) (by omega)
      refine ⟨k, hk.trans_le (Nat.mul_le_mul_right _ (by omega)), ?_⟩
      rw [hunits, twoPow_eq, twoPow_eq, Nat.pow_succ]
      ring
    · have hrank : (e + 2) * f.binade + (n - f.binade) = f.binade * (e + 2) + (n - f.binade) := by
        rw [Nat.mul_comm]
      have hdiv : (f.binade * (e + 2) + (n - f.binade)) / f.binade = e + 2 := by
        rw [Nat.mul_add_div hpos, Nat.div_eq_of_lt (by omega), Nat.add_zero]
      have hmod : (f.binade * (e + 2) + (n - f.binade)) % f.binade = n - f.binade := by
        rw [Nat.mul_add_mod, Nat.mod_eq_of_lt (by omega)]
      have hge' : f.binade ≤ f.binade * (e + 2) := Nat.le_mul_of_pos_right _ (by omega)
      refine ⟨f.binade * (e + 2) + (n - f.binade), ?_, ?_⟩
      · have hsucc : (e + 1 + 2) * f.binade = f.binade * (e + 2) + f.binade := by ring
        omega
      · rw [units, if_neg (by omega), hdiv, hmod, Nat.add_sub_cancel' hge]
        rfl

/-- Numbers of more digits than a significand has end in zeros. -/
theorem twoPow_dvd_units {k e : Nat} (h : f.binade * twoPow e ≤ f.units k) :
    twoPow e ∣ f.units k := by
  have hpos := f.binade_pos
  rw [units] at h ⊢
  split
  · rename_i hlt
    rw [if_pos hlt] at h
    rcases Nat.eq_zero_or_pos e with rfl | he
    · exact one_dvd _
    · have hle : f.binade * 1 ≤ f.binade * twoPow e := Nat.mul_le_mul_left _ (twoPow_pos e)
      omega
  · rename_i hge
    rw [if_neg hge] at h
    refine Dvd.dvd.mul_left (pow_dvd_pow 2 ?_) _
    have hrest := Nat.mod_lt k hpos
    have hlt : f.binade * twoPow e < f.binade * (2 * twoPow (k / f.binade - 1)) := by
      calc f.binade * twoPow e ≤ (f.binade + k % f.binade) * twoPow (k / f.binade - 1) := h
        _ < 2 * f.binade * twoPow (k / f.binade - 1) :=
          Nat.mul_lt_mul_of_pos_right (by omega) (twoPow_pos _)
        _ = f.binade * (2 * twoPow (k / f.binade - 1)) := by ring
    have hpow : 2 ^ e < 2 ^ (k / f.binade - 1 + 1) := by
      rw [Nat.pow_succ']
      exact Nat.lt_of_mul_lt_mul_left hlt
    have hexp := (Nat.pow_lt_pow_iff_right (by decide)).1 hpow
    omega

end Format

namespace Binary

variable {f g : Format} {x y z : Binary f} {v v' a b lo hi q : Rat}

/-! ## Numbers that are held -/

def Holds (f : Format) (q : Rat) : Prop := ∃ x : Binary f, x.value? = some q

theorem Holds.neg (h : Holds f q) : Holds f (-q) := by
  obtain ⟨x, hx⟩ := h
  exact ⟨x.neg, value?_neg hx⟩

/-- A whole number of few digits over a power of two is held. -/
theorem holds_div (hf : f.Wide) {n : Int} {j : Nat} (hn : n.natAbs < 2 * f.binade)
    (hj : j ≤ f.scale) : Holds f (n / 2 ^ j) := by
  have hnat {n : Nat} (hn : n < 2 * f.binade) : Holds f (n / 2 ^ j) := by
    obtain ⟨k, hk, hunits⟩ := f.exists_units (f.scale - j) hn
    have hwide : f.scale + 3 ≤ twoPow f.exponentBits := hf
    have hfin : k < f.magnitudes := hk.trans_le (Nat.mul_le_mul_right _ (by omega))
    have hpow : (twoPow (f.scale - j) : Rat) ≠ 0 := by exact_mod_cast (twoPow_pos _).ne'
    refine ⟨.finite false ⟨k, hfin⟩, ?_⟩
    rw [value?, signedValue, Rat.mkRat_eq_div]
    simp only [hunits, Bool.false_eq_true, if_false]
    rw [f.cast_twoPow_scale hj, Int.cast_natCast, Nat.cast_mul, mul_comm (n : Rat),
      mul_div_mul_left _ _ hpow]
  rcases Int.eq_nat_or_neg n with ⟨n, rfl | rfl⟩
  · exact hnat hn
  · rw [Int.cast_neg, neg_div]
    exact (hnat (by simpa using hn)).neg

theorem holds_single {n : Int} {i : Nat} (hn : n.natAbs < 2 ^ 24) (hi : i ≤ 149) :
    Holds .single (n / 2 ^ i) :=
  holds_div (by decide) hn hi

theorem holds_double {n : Int} {i : Nat} (hn : n.natAbs < 2 ^ 53) (hi : i ≤ 1074) :
    Holds .double (n / 2 ^ i) :=
  holds_div (by decide) hn hi

/-- A number of large size is a multiple of a large power of two. -/
theorem exists_eq_div (hx : x.value? = some v) {j : Nat} (hj : j ≤ f.scale)
    (h : f.binade / 2 ^ j ≤ |v|) : ∃ n : Int, v = n / 2 ^ j := by
  cases x with
  | nan | infinite => exact nomatch hx
  | finite s r =>
    cases hx
    have hscale := f.cast_twoPow_scale hj
    have hpow : (0 : Rat) < twoPow (f.scale - j) := by exact_mod_cast twoPow_pos _
    have hvalue : signedValue s r = (if s then -1 else 1) * (f.units r / twoPow f.scale) := by
      rw [signedValue, Rat.mkRat_eq_div]
      cases s <;> simp [neg_div]
    have habs : |signedValue s r| = f.units r / twoPow f.scale := by
      have hnonneg : (0 : Rat) ≤ f.units r / twoPow f.scale := by positivity
      rw [hvalue]
      cases s <;> simp [abs_of_nonneg hnonneg]
    have hunits : f.binade * twoPow (f.scale - j) ≤ f.units r := by
      rw [habs, hscale, div_le_div_iff₀ (by positivity) (by positivity), ← mul_assoc] at h
      exact_mod_cast le_of_mul_le_mul_right h (by positivity)
    obtain ⟨n, hn⟩ := f.twoPow_dvd_units hunits
    refine ⟨(if s then -1 else 1) * n, ?_⟩
    rw [hvalue, hscale, hn, Nat.cast_mul, mul_div_mul_left _ _ hpow.ne', ← mul_div_assoc]
    cases s <;> simp

/-! ## Rounding between numbers that are held -/

/-- The value of `x` lies between two exact numbers. -/
def Lies (x : Binary f) (lo hi : Rat) : Prop := ∃ v, x.value? = some v ∧ lo ≤ v ∧ v ≤ hi

theorem lies_self (hx : x.value? = some v) : x.Lies v v := ⟨v, hx, le_rfl, le_rfl⟩

theorem lies_round (hlo : Holds f lo) (hhi : Holds f hi) (h : lo ≤ q) (h' : q ≤ hi) (s : Bool) :
    (round f s q).Lies lo hi := by
  obtain ⟨l, hl⟩ := hlo
  obtain ⟨u, hu⟩ := hhi
  have hlow := le_round hl h s
  have hhigh := round_le hu h' s
  have hfin := isFinite_of_between hlow hhigh (isFinite_of_value hl) (isFinite_of_value hu)
  obtain ⟨w, hw⟩ := value_of_finite hfin
  exact ⟨w, hw, value_le hl hw hlow, value_le hw hu hhigh⟩

/-- What is held is not rounded. -/
theorem value_round (h : Holds f q) (s : Bool) : (round f s q).value? = some q := by
  obtain ⟨w, hw, hlow, hhigh⟩ := lies_round h h le_rfl le_rfl s
  rw [hw, le_antisymm hhigh hlow]

theorem value_ofInt (hf : f.Wide) {n : Int} (hn : n.natAbs < 2 * f.binade) :
    (ofInt f n).value? = some (n : Rat) := by
  have hheld := holds_div hf hn (Nat.zero_le _)
  rw [pow_zero, div_one] at hheld
  exact value_round hheld false

theorem value_ofNat (hf : f.Wide) {n : Nat} (hn : n < 2 * f.binade) :
    (ofInt f n).value? = some (n : Rat) := by
  exact_mod_cast value_ofInt hf (n := n) hn

theorem value_of_between (hx : x.value? = some v) (hz : z.value? = some v) (hxy : x ≤ y)
    (hyz : y ≤ z) : y.value? = some v := by
  have hfin := isFinite_of_between hxy hyz (isFinite_of_value hx) (isFinite_of_value hz)
  obtain ⟨w, hw⟩ := value_of_finite hfin
  rw [hw, le_antisymm (value_le hw hz hyz) (value_le hx hw hxy)]

/-- A constant less a number becomes smaller as the number grows. -/
theorem const_sub_le (hx : x.value? = some a) (hy : y.value? = some b) (hz : z.value? = some v)
    (h : x ≤ y) : z - y ≤ z - x := by
  obtain ⟨s, hs⟩ := sub_eq_round hz hx
  obtain ⟨s', hs'⟩ := sub_eq_round hz hy
  rw [hs, hs']
  exact round_mono (sub_le_sub_left (value_le hx hy h) v) s' s

/-- An operation on one number that rounds an exact value which grows with the number. -/
theorem Lies.map (op : Binary f → Binary g) (exact : Rat → Rat)
    (hop : ∀ {x v}, x.value? = some v → ∃ s, op x = round g s (exact v))
    (hmono : ∀ {v v'}, v ≤ v' → exact v ≤ exact v') (hx : x.Lies a b) (hlo : Holds g lo)
    (hhi : Holds g hi) (h : lo ≤ exact a) (h' : exact b ≤ hi) : (op x).Lies lo hi := by
  obtain ⟨v, hv, hav, hvb⟩ := hx
  obtain ⟨s, hs⟩ := hop hv
  rw [hs]
  exact lies_round hlo hhi (h.trans (hmono hav)) ((hmono hvb).trans h') s

theorem Lies.convert (hx : x.Lies a b) (hlo : Holds g lo) (hhi : Holds g hi) (h : lo ≤ a)
    (h' : b ≤ hi) : (x.convert g).Lies lo hi :=
  hx.map _ (fun v => v) convert_eq_round (fun h => h) hlo hhi h h'

theorem Lies.add (hx : x.Lies a b) (hy : y.value? = some v') (hlo : Holds f lo) (hhi : Holds f hi)
    (h : lo ≤ a + v') (h' : b + v' ≤ hi) : (x + y).Lies lo hi :=
  hx.map (· + y) _ (fun hx => add_eq_round hx hy) (fun h => add_le_add_left h v') hlo hhi h h'

theorem Lies.sub (hx : x.Lies a b) (hy : y.value? = some v') (hlo : Holds f lo) (hhi : Holds f hi)
    (h : lo ≤ a - v') (h' : b - v' ≤ hi) : (x - y).Lies lo hi :=
  hx.map (· - y) _ (fun hx => sub_eq_round hx hy) (fun h => sub_le_sub_right h v') hlo hhi h h'

theorem Lies.const_sub (hx : x.Lies a b) (hy : y.value? = some v') (hlo : Holds f lo)
    (hhi : Holds f hi) (h : lo ≤ v' - b) (h' : v' - a ≤ hi) : (y - x).Lies lo hi := by
  obtain ⟨v, hv, hav, hvb⟩ := hx
  obtain ⟨s, hs⟩ := sub_eq_round hy hv
  rw [hs]
  exact lies_round hlo hhi (h.trans (sub_le_sub_left hvb v')) ((sub_le_sub_left hav v').trans h') s

theorem Lies.div (hx : x.Lies a b) (hy : y.value? = some v') (hv : 0 < v') (hlo : Holds f lo)
    (hhi : Holds f hi) (h : lo ≤ a / v') (h' : b / v' ≤ hi) : (x / y).Lies lo hi :=
  hx.map (· / y) _ (fun hx => div_eq_round hx hy hv.ne')
    (fun h => div_le_div_of_nonneg_right h hv.le) hlo hhi h h'

theorem Lies.mul (hx : x.Lies a b) (hy : y.value? = some v') (hv : 0 ≤ v') (hlo : Holds f lo)
    (hhi : Holds f hi) (h : lo ≤ a * v') (h' : b * v' ≤ hi) : (x * y).Lies lo hi :=
  hx.map (· * y) _ (fun hx => mul_eq_round hx hy)
    (fun h => mul_le_mul_of_nonneg_right h hv) hlo hhi h h'

/-- The integer part of a number between two consecutive whole numbers. -/
theorem Lies.toInt32 {n : Int} (hx : x.Lies a b) (h : n ≤ a) (h' : b < n + 1) (hn : 0 ≤ n)
    (hn' : n ≤ toInt32.high) : x.toInt32 = n := by
  obtain ⟨v, hv, hav, hvb⟩ := hx
  have hfloor : ⌊v⌋ = n := Int.floor_eq_iff.2 ⟨h.trans hav, hvb.trans_lt h'⟩
  have hnonneg : 0 ≤ v := (Int.cast_nonneg hn).trans (h.trans hav)
  have htrunc : v.num.tdiv v.den = n := by
    rw [Int.tdiv_eq_ediv_of_nonneg (Rat.num_nonneg.2 hnonneg), ← Rat.floor_def', hfloor]
  have hlow : toInt32.low ≤ n := (by decide : toInt32.low ≤ 0).trans hn
  rw [toInt32_eq hv, htrunc, min_eq_right hn', max_eq_right hlow]

end Binary
end Realm
