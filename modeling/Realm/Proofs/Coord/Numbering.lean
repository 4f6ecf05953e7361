import Realm.Proofs.Coord

/-! # Numbering coordinates

Steps of any length and normalizations keep a coordinate valid. Every word is the number of the
coordinate that it leads to. The valid coordinates have numbers of their own exactly as long as
there are no more of them than words. -/

namespace Realm.Coord

variable {limit : UInt32} {c : Coord limit}

/-! ## Moves -/

def moveAll (c : Coord limit) (moves : List Move) : Coord limit := moves.foldl move c

theorem stepUp_lt (hl : 0 < limit) (a n : UInt32) : stepUp limit a n < limit := by
  rw [stepUp]
  split
  · rename_i hsum
    have hlimit := limit.toNat_lt
    rwa [UInt32.lt_iff_toNat_lt, UInt32.toNat_add, Nat.mod_eq_of_lt (by omega)]
  · exact pred_lt hl

theorem stepDown_le (a n : UInt32) : stepDown a n ≤ a := by
  rw [stepDown]
  split
  · rename_i hn
    rw [UInt32.le_iff_toNat_le, UInt32.toNat_sub_of_le _ _ hn]
    exact Nat.sub_le ..
  · exact UInt32.le_iff_toNat_le.2 (Nat.zero_le _)

/-- No move leads off the valid coordinates. -/
theorem IsValid.move (hl : 0 < limit) (h : c.IsValid) (mv : Move) : (c.move mv).IsValid := by
  cases mv with
  | incX n => exact ⟨stepUp_lt hl c.x n, h.2⟩
  | incY n => exact ⟨h.1, stepUp_lt hl c.y n⟩
  | decX n => exact ⟨UInt32.lt_of_le_of_lt (stepDown_le c.x n) h.1, h.2⟩
  | decY n => exact ⟨h.1, UInt32.lt_of_le_of_lt (stepDown_le c.y n) h.2⟩
  | normalize => exact normalize_isValid hl c

theorem IsValid.moveAll (hl : 0 < limit) (h : c.IsValid) (moves : List Move) :
    (c.moveAll moves).IsValid := by
  induction moves generalizing c with
  | nil => exact h
  | cons mv moves ih => exact ih (h.move hl mv)

/-! ## Numbers -/

/-- The number of a coordinate is taken modulo the number of words. -/
theorem toNat_id_mod (c : Coord limit) :
    c.id.toNat = (c.y.toNat * limit.toNat + c.x.toNat) % 2 ^ 32 := by
  rw [id, UInt32.toNat_add, UInt32.toNat_mul, Nat.mod_add_mod]

theorem id_ofId (limit n : UInt32) : (ofId limit n).id = n := by
  rw [← UInt32.toNat_inj, toNat_id_mod]
  simp only [ofId, UInt32.toNat_mod, UInt32.toNat_div]
  rw [Nat.mul_comm, Nat.div_add_mod, Nat.mod_eq_of_lt n.toNat_lt]

theorem id_lt (h : c.IsValid) (hl : limit.toNat ≤ 65536) :
    c.id.toNat < limit.toNat * limit.toNat := by
  rw [toNat_id h hl]
  obtain ⟨hx, hy⟩ := h
  rw [UInt32.lt_iff_toNat_lt] at hx hy
  calc c.y.toNat * limit.toNat + c.x.toNat
      < c.y.toNat * limit.toNat + limit.toNat := Nat.add_lt_add_left hx _
    _ = (c.y.toNat + 1) * limit.toNat := (Nat.succ_mul ..).symm
    _ ≤ limit.toNat * limit.toNat := Nat.mul_le_mul_right _ hy

/-- The coordinate `2 ^ 32` numbers after the origin. -/
def afterWords (limit : UInt32) : Coord limit :=
  ⟨.ofNat (2 ^ 32 % limit.toNat), .ofNat (2 ^ 32 / limit.toNat)⟩

/-- If there are more valid coordinates than words, then one of them shares the number of the
origin. -/
theorem afterWords_spec (hl : 65536 < limit.toNat) :
    (afterWords limit).IsValid ∧ (afterWords limit).y ≠ 0 ∧ (afterWords limit).id = 0 := by
  have hlimit := limit.toNat_lt
  have hmod : 2 ^ 32 % limit.toNat < limit.toNat := Nat.mod_lt _ (by omega)
  have hdiv : 2 ^ 32 / limit.toNat < limit.toNat := by
    rw [Nat.div_lt_iff_lt_mul (by omega)]
    nlinarith
  have hx : (afterWords limit).x.toNat = 2 ^ 32 % limit.toNat :=
    UInt32.toNat_ofNat_of_lt' (hmod.trans hlimit)
  have hy : (afterWords limit).y.toNat = 2 ^ 32 / limit.toNat :=
    UInt32.toNat_ofNat_of_lt' (hdiv.trans hlimit)
  refine ⟨⟨?_, ?_⟩, fun h => ?_, ?_⟩
  · rwa [UInt32.lt_iff_toNat_lt, hx]
  · rwa [UInt32.lt_iff_toNat_lt, hy]
  · have hpos : 0 < 2 ^ 32 / limit.toNat := Nat.div_pos hlimit.le (by omega)
    rw [← hy, h] at hpos
    exact Nat.lt_irrefl _ hpos
  · rw [← UInt32.toNat_inj, toNat_id_mod, hx, hy, Nat.mul_comm, Nat.div_add_mod]
    rfl

theorem exists_shared (hl : 65536 < limit.toNat) :
    ∃ c d : Coord limit, c.IsValid ∧ d.IsValid ∧ c ≠ d ∧ c.id = d.id := by
  obtain ⟨hvalid, hne, hid⟩ := afterWords_spec hl
  have hpos : 0 < limit := UInt32.lt_iff_toNat_lt.2 (Nat.lt_of_le_of_lt (Nat.zero_le _) hl)
  refine ⟨afterWords limit, ofId limit 0, hvalid, ⟨?_, ?_⟩, fun he => hne ?_, ?_⟩
  · exact UInt32.mod_lt 0 hpos
  · rwa [ofId, UInt32.zero_div]
  · rw [he, ofId, UInt32.zero_div]
  · rw [hid, id_ofId]

/-- Valid coordinates are told apart by their numbers, and found again from them. -/
structure Distinct (limit : UInt32) : Prop where
  inj : ∀ c d : Coord limit, c.IsValid → d.IsValid → c.id = d.id → c = d
  ofId : ∀ c : Coord limit, c.IsValid → ofId limit c.id = c
  lt : ∀ c : Coord limit, c.IsValid → c.id.toNat < limit.toNat * limit.toNat

theorem distinct_iff : Distinct limit ↔ limit.toNat ≤ 65536 := by
  constructor
  · intro h
    by_contra hl
    obtain ⟨c, d, hc, hd, hne, hid⟩ := exists_shared (Nat.lt_of_not_le hl)
    exact hne (h.inj c d hc hd hid)
  · intro hl
    exact ⟨fun c d hc hd hid => id_inj hc hd hl (congrArg UInt32.toNat hid),
      fun c hc => ofId_id hc hl, fun c hc => id_lt hc hl⟩

/-- What moves and numbers do for the coordinates below `limit`. -/
structure Numbered (limit : UInt32) : Prop where
  moved : ∀ (c : Coord limit) (moves : List Move), c.IsValid → (c.moveAll moves).IsValid
  id : ∀ n, (ofId limit n).id = n
  distinct : Distinct limit ↔ limit.toNat ≤ 65536
  shared : 65536 < limit.toNat →
    ∃ c d : Coord limit, c.IsValid ∧ d.IsValid ∧ c ≠ d ∧ c.id = d.id

/-- Coordinates stay valid below any limit, and their numbers tell them apart below the limits up to
`2 ^ 16` and no others. -/
theorem numbered_of_pos (hl : 0 < limit) : Numbered limit where
  moved _ moves h := h.moveAll hl moves
  id := id_ofId limit
  distinct := distinct_iff
  shared := exists_shared

/-- Below the first limit that is too high, the coordinate `(1, 65535)` has the number of the
origin. -/
theorem numbered_overfull : 0 < (65537 : UInt32) ∧ Numbered 65537 ∧ ¬Distinct 65537 ∧
    (⟨1, 65535⟩ : Coord 65537).id = (⟨0, 0⟩ : Coord 65537).id := by
  have h : Numbered 65537 := numbered_of_pos (by decide)
  exact ⟨by decide, h, fun hd => absurd (h.distinct.1 hd) (by decide), by decide⟩

end Realm.Coord
