import Realm.Proofs.Binary.Holding

/-! # Rounding errors

Up to some size a format holds all multiples of a power of two. There a rounded result is off by at
most that power, and what an operand is off by goes on into the result. -/

namespace Realm

/-- The format holds the multiples of `1 / 2 ^ i` up to the size `b` and one past it. -/
structure Format.Resolves (f : Format) (b : Rat) (i : Nat) : Prop where
  wide : f.Wide
  scale : i ≤ f.scale
  small : b * 2 ^ i + 1 < 2 * f.binade

namespace Binary

variable {f g : Format} {x y : Binary f} {v q b e : Rat} {i : Nat}

theorem resolves_single (hi : i ≤ 149) (hb : b * 2 ^ i + 1 < 2 ^ 24) :
    Format.single.Resolves b i := by
  refine ⟨by decide, hi, hb.trans_eq ?_⟩
  rw [show Format.single.binade = 2 ^ 23 by decide]
  norm_num

theorem resolves_double (hi : i ≤ 1074) (hb : b * 2 ^ i + 1 < 2 ^ 53) :
    Format.double.Resolves b i := by
  refine ⟨by decide, hi, hb.trans_eq ?_⟩
  rw [show Format.double.binade = 2 ^ 52 by decide]
  norm_num

/-- The value of `x` is off from an exact number by at most `e`. -/
def Near (x : Binary f) (q e : Rat) : Prop := ∃ v, x.value? = some v ∧ |v - q| ≤ e

theorem near_self (hx : x.value? = some v) : x.Near v 0 := ⟨v, hx, by rw [sub_self, abs_zero]⟩

theorem Near.mono {e' : Rat} (hx : x.Near q e) (h : e ≤ e') : x.Near q e' :=
  hx.imp fun _ hv => ⟨hv.1, hv.2.trans h⟩

/-- A number up to the size lies between two neighbouring multiples that are held. -/
theorem exists_held_around (h : f.Resolves b i) (hq : |q| ≤ b) :
    ∃ l u, Holds f l ∧ Holds f u ∧ l ≤ q ∧ q ≤ u ∧ u = l + 1 / 2 ^ i := by
  have hpow : (0 : Rat) < 2 ^ i := by positivity
  have hsize : |q * 2 ^ i| < 2 * f.binade - 1 := by
    rw [abs_mul, abs_of_pos hpow, lt_sub_iff_add_lt]
    exact (add_le_add_left (mul_le_mul_of_nonneg_right hq hpow.le) 1).trans_lt h.small
  obtain ⟨hneg, hpos⟩ := abs_lt.1 hsize
  have hlow := Int.floor_le (q * 2 ^ i)
  have hhigh := Int.lt_floor_add_one (q * 2 ^ i)
  generalize ⌊q * 2 ^ i⌋ = n at hlow hhigh
  have hnlow : ((-(2 * f.binade) : Int) : Rat) < n := by
    push_cast
    linarith
  have hnhigh : ((n + 1 : Int) : Rat) < (2 * f.binade : Int) := by
    push_cast
    linarith
  rw [Int.cast_lt] at hnlow hnhigh
  refine ⟨n / 2 ^ i, (n + 1 : Int) / 2 ^ i, holds_div h.wide (by omega) h.scale,
    holds_div h.wide (by omega) h.scale, (div_le_iff₀ hpow).2 hlow, ?_, ?_⟩
  · rw [le_div_iff₀ hpow, Int.cast_add, Int.cast_one]
    exact hhigh.le
  · rw [Int.cast_add, Int.cast_one, add_div]

theorem near_round (h : f.Resolves b i) (hq : |q| ≤ b) (s : Bool) :
    (round f s q).Near q (1 / 2 ^ i) := by
  obtain ⟨l, u, hl, hu, hlow, hhigh, hstep⟩ := exists_held_around h hq
  obtain ⟨w, hw, hlw, hwu⟩ := lies_round hl hu hlow hhigh s
  exact ⟨w, hw, abs_le.2 ⟨by linarith, by linarith⟩⟩

/-- An operation on one number that rounds an exact value which changes at most `k` times as much as
the number. -/
theorem Near.map (op : Binary f → Binary g) (exact : Rat → Rat) {k : Rat}
    (hop : ∀ {x v}, x.value? = some v → ∃ s, op x = round g s (exact v)) (hk : 0 ≤ k)
    (hexact : ∀ v, |exact v - exact q| ≤ k * |v - q|) (hx : x.Near q e) (h : g.Resolves b i)
    (hb : |exact q| + k * e ≤ b) : (op x).Near (exact q) (k * e + 1 / 2 ^ i) := by
  obtain ⟨v, hv, hoff⟩ := hx
  obtain ⟨s, hs⟩ := hop hv
  have hchange : |exact v - exact q| ≤ k * e :=
    (hexact v).trans (mul_le_mul_of_nonneg_left hoff hk)
  have hsize : |exact v| ≤ b := by
    have hsplit := abs_add_le (exact q) (exact v - exact q)
    rw [add_sub_cancel] at hsplit
    linarith
  obtain ⟨w, hw, hround⟩ := near_round h hsize s
  refine ⟨w, by rw [hs, hw], ?_⟩
  have hsplit := abs_sub_le w (exact v) (exact q)
  linarith

theorem Near.convert (hx : x.Near q e) (h : g.Resolves b i) (hb : |q| + e ≤ b) :
    (x.convert g).Near q (e + 1 / 2 ^ i) := by
  have hnear := hx.map (Binary.convert g) (fun v => v) (k := 1) convert_eq_round zero_le_one
    (fun v => (one_mul _).ge) h (by rwa [one_mul])
  rwa [one_mul] at hnear

theorem Near.add (hx : x.Near q e) (hy : y.value? = some v) (h : f.Resolves b i)
    (hb : |q + v| + e ≤ b) : (x + y).Near (q + v) (e + 1 / 2 ^ i) := by
  have hnear := hx.map (· + y) (· + v) (k := 1) (fun hx => add_eq_round hx hy) zero_le_one
    (fun w => by rw [add_sub_add_right_eq_sub, one_mul]) h (by rwa [one_mul])
  rwa [one_mul] at hnear

theorem Near.sub (hx : x.Near q e) (hy : y.value? = some v) (h : f.Resolves b i)
    (hb : |q - v| + e ≤ b) : (x - y).Near (q - v) (e + 1 / 2 ^ i) := by
  have hnear := hx.map (· - y) (· - v) (k := 1) (fun hx => sub_eq_round hx hy) zero_le_one
    (fun w => by rw [sub_sub_sub_cancel_right, one_mul]) h (by rwa [one_mul])
  rwa [one_mul] at hnear

theorem Near.mul (hx : x.Near q e) (hy : y.value? = some v) (hv : 0 ≤ v) (h : f.Resolves b i)
    (hb : |q * v| + v * e ≤ b) : (x * y).Near (q * v) (v * e + 1 / 2 ^ i) :=
  hx.map (· * y) (· * v) (fun hx => mul_eq_round hx hy) hv
    (fun w => by rw [← sub_mul, abs_mul, abs_of_nonneg hv, mul_comm]) h hb

theorem Near.div (hx : x.Near q e) (hy : y.value? = some v) (hv : 0 < v) (h : f.Resolves b i)
    (hb : |q / v| + v⁻¹ * e ≤ b) : (x / y).Near (q / v) (v⁻¹ * e + 1 / 2 ^ i) :=
  hx.map (· / y) (· / v) (fun hx => div_eq_round hx hy hv.ne') (inv_nonneg.2 hv.le)
    (fun w => by rw [← sub_div, abs_div, abs_of_pos hv, div_eq_inv_mul]) h hb

end Binary
end Realm
