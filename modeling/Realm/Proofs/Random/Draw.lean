import Realm.Proofs.Binary.Exact
import Realm.Random.Draw

/-! # Ranges of drawn numbers

A drawn number is a fraction, scaled and shifted. Rounding keeps the order, so the number lies
between what the fractions 0 and 1 are brought to. -/

namespace Realm.KeyStream

open Binary

variable {low high : Single}

/-- Nothing overflows between two ends, and scaling and shifting meets both of them. -/
def Spans (low high : Single) : Prop :=
  (low.isFinite ∧ high.isFinite ∧ (high - low).isFinite ∧ 0 ≤ high - low) ∧
    ((0 * (high - low)).isFinite ∧ (1 * (high - low)).isFinite) ∧
    0 * (high - low) + low = low ∧ 1 * (high - low) + low = high

instance : Decidable (Spans low high) := inferInstanceAs (Decidable (_ ∧ _))

/-- A fraction of random bits lies between 0 and 1. -/
theorem fraction_between (word : UInt32) :
    Between (0 : Single) (.ofRat .single (mkRat (word >>> 9).toNat (twoPow 23))) 1 := by
  have hword : (word >>> 9).toNat ≤ twoPow 23 := by
    have hlt := word.toNat_lt
    have hnine : (9 : UInt32).toNat % 32 = 9 := by decide
    rw [UInt32.toNat_shiftRight, Nat.shiftRight_eq_div_pow, twoPow_eq, hnine]
    omega
  have hpos : (0 : Rat) < twoPow 23 := by exact_mod_cast twoPow_pos 23
  have hle : ((word >>> 9).toNat : Rat) ≤ twoPow 23 := by exact_mod_cast hword
  have hlow : ((0 : Nat) : Int) ≤ mkRat (word >>> 9).toNat (twoPow 23) := by
    rw [Rat.mkRat_eq_div]
    push_cast
    positivity
  have hhigh : mkRat (word >>> 9).toNat (twoPow 23) ≤ ((1 : Nat) : Int) := by
    rw [Rat.mkRat_eq_div]
    push_cast
    exact (div_le_one hpos).2 hle
  exact ⟨round_mono hlow false false, round_mono hhigh false false, by decide +kernel,
    by decide +kernel⟩

theorem Spans.nextSingle (h : Spans low high) (s : KeyStream) :
    Between low (s.nextSingle low high).1 high := by
  obtain ⟨⟨hlow, hhigh, hwidth, hpos⟩, ⟨hzero, hone⟩, hfirst, hlast⟩ := h
  obtain ⟨l, hl⟩ := value_of_finite hlow
  obtain ⟨v, hv⟩ := value_of_finite hwidth
  have hnought : (0 : Single).value? = some 0 := by decide +kernel
  have hscaled := (fraction_between s.next32.1).mul hv (value_le hnought hv hpos) hzero hone
  have hshifted := hscaled.add hl (by rw [hfirst, hlow]) (by rw [hlast, hhigh])
  rw [hfirst, hlast] at hshifted
  exact hshifted

end Realm.KeyStream
