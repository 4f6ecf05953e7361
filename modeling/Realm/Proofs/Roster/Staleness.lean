import Realm.Proofs.Roster.Listing

/-! # Stale links

The generation of a slot counts how often the slot was freed, as far as 32 bits can count. So a link
tells its own entry from the later ones in its slot until the slot has gone through all generations.
It does not tell its own roster from another one, whose slots count for themselves. -/

namespace Realm.Roster

variable {r : Roster} {l : Link} {g : Guid} {i : Nat} {op : Op} {ops : List Op}

/-! ## Slots that are freed -/

def runAll (r : Roster) (ops : List Op) : Roster := ops.foldl (fun r op => (op.run r).2) r

/-- Whether an operation frees a slot: it removes or clears the entry there. -/
def Op.frees (r : Roster) (i : Nat) : Op → Bool
  | .insert _ => false
  | .erase l => l.index = i && r.contains l
  | .clear => (r.occupant? i).isSome

/-- How often operations free a slot. -/
def freed (i : Nat) (r : Roster) : List Op → Nat
  | [] => 0
  | op :: ops => (op.frees r i).toNat + freed i (op.run r).2 ops

theorem Sound.runAll (h : r.Sound) (ops : List Op) : (r.runAll ops).Sound := by
  induction ops generalizing r with
  | nil => exact h
  | cons op ops ih => exact ih (h.run op)

/-- An occupied slot keeps its guid until it is freed. -/
theorem Sound.occupant?_run (h : r.Sound) (ho : r.occupant? i = some g) (op : Op) :
    (op.run r).2.occupant? i = if op.frees r i then none else some g := by
  obtain ⟨is, h⟩ := h
  cases op with
  | insert g' =>
    have hne : i ≠ r.nextSlot := by
      intro hi
      rw [hi, h.occupant?_nextSlot] at ho
      exact nomatch ho
    simp only [Op.run, h.occupant?_insert, if_neg hne, ho]
    rfl
  | erase l =>
    cases hl : r.contains l with
    | false => simp [Op.frees, Op.run, hl, erase_of_stale, ho]
    | true => simp [Op.frees, Op.run, hl, erase_of_contains hl, occupant?_detach, ho, eq_comm]
  | clear => simp [Op.frees, Op.run, h.occupant?_clear, ho]

/-- A slot gets the next generation when it is freed. -/
theorem Sound.generationAt_run (h : r.Sound) (op : Op) (i : Nat) :
    (op.run r).2.generationAt i = r.generationAt i + .ofNat (op.frees r i).toNat := by
  obtain ⟨is, h⟩ := h
  cases op with
  | insert g => simp [Op.frees, Op.run, generationAt_insert]
  | erase l =>
    cases hl : r.contains l with
    | false => simp [Op.frees, Op.run, hl, erase_of_stale]
    | true =>
      simp only [Op.frees, Op.run, hl, erase_of_contains hl, Bool.and_true]
      rcases eq_or_ne i l.index with rfl | hi
      · simp [generationAt_detach_self (lt_of_occupied (contains_iff.1 hl).1)]
      · simp [generationAt_detach hi, hi.symm]
  | clear =>
    simp only [Op.frees, Op.run, h.generationAt_clear, h.mem]
    cases (r.occupant? i).isSome <;> rfl

/-- The generation of a slot counts how often it was freed. -/
theorem Sound.generationAt_runAll (h : r.Sound) (ops : List Op) (i : Nat) :
    (r.runAll ops).generationAt i = r.generationAt i + .ofNat (freed i r ops) := by
  induction ops generalizing r with
  | nil => simp [Roster.runAll, freed]
  | cons op ops ih =>
    calc (r.runAll (op :: ops)).generationAt i
        = (op.run r).2.generationAt i + .ofNat (freed i (op.run r).2 ops) := ih (h.run op)
      _ = r.generationAt i + .ofNat (freed i r (op :: ops)) := by
        rw [h.generationAt_run, freed, UInt32.ofNat_add, UInt32.add_assoc]

/-! ## The entry of a link -/

/-- Whether an operation takes away the entry of a link, if it is still there: a removal by this very
link, or a clearance. -/
def Op.Ends (l : Link) (op : Op) : Prop := op = .erase l ∨ op = .clear

/-- The slot of an entry is freed when the entry is taken away. -/
theorem frees_iff (hl : r.contains l = true) : op.frees r l.index = true ↔ op.Ends l := by
  obtain ⟨ho, hg⟩ := contains_iff.1 hl
  cases op with
  | insert g => simp [Op.frees, Op.Ends]
  | erase l' =>
    simp only [Op.frees, Op.Ends, Bool.and_eq_true, decide_eq_true_eq, Op.erase.injEq,
      reduceCtorEq, or_false]
    constructor
    · rintro ⟨hi, hl'⟩
      -- of the links to one slot only one is live
      have hg' := (contains_iff.1 hl').2
      rw [hi, hg] at hg'
      cases l
      cases l'
      exact congrArg₂ Link.mk hi hg'.symm
    · rintro rfl
      exact ⟨rfl, hl⟩
  | clear => simp [Op.frees, Op.Ends, ho]

theorem Sound.get?_run (h : r.Sound) (hl : r.get? l = some g) (hop : op.frees r l.index = false) :
    (op.run r).2.get? l = some g := by
  obtain ⟨ho, hg⟩ := get?_eq_some.1 hl
  refine get?_eq_some.2 ⟨?_, ?_⟩
  · rw [h.occupant?_run ho, hop]
    rfl
  · rw [h.generationAt_run, hop, hg]
    exact UInt32.add_zero _

theorem Sound.get?_runAll (h : r.Sound) (hl : r.get? l = some g) (hops : freed l.index r ops = 0) :
    (r.runAll ops).get? l = some g := by
  induction ops generalizing r with
  | nil => exact hl
  | cons op ops ih =>
    obtain ⟨hop, hrest⟩ := Nat.add_eq_zero_iff.1 hops
    exact ih (h.run op) (h.get?_run hl (Bool.toNat_eq_zero.1 hop)) hrest

/-- As long as the slot of an entry is not freed, nothing has taken the entry away. -/
theorem Sound.freed_eq_zero (h : r.Sound) (hl : r.get? l = some g) (ops : List Op) :
    freed l.index r ops = 0 ↔ ∀ op ∈ ops, ¬op.Ends l := by
  induction ops generalizing r with
  | nil => simp [freed]
  | cons op ops ih =>
    rw [freed, Nat.add_eq_zero_iff, List.forall_mem_cons, Bool.toNat_eq_zero,
      ← frees_iff (contains_of_get? hl), Bool.not_eq_true]
    exact and_congr_right fun hop => ih (h.run op) (h.get?_run hl hop)

/-! ## The lifetime of a link -/

/-- Counting on by `n` leads back to the same generation exactly if `n` goes through all of them a
number of times. -/
theorem add_ofNat_eq_self {a : UInt32} {n : Nat} : a + .ofNat n = a ↔ UInt32.size ∣ n := by
  have ha := a.toNat_lt
  rw [← UInt32.toNat_inj, UInt32.toNat_add, UInt32.toNat_ofNat']
  simp only [UInt32.size]
  omega

/-- What the link `l` of an entry with the guid `g` in `r` is worth after the operations `ops`. -/
structure Lifetime (r : Roster) (l : Link) (g : Guid) (ops : List Op) : Prop where
  live : (r.runAll ops).contains l = true ↔
    ((r.runAll ops).occupant? l.index).isSome ∧ UInt32.size ∣ freed l.index r ops
  /-- Until its slot has gone through all generations, the link is as live as its own entry. -/
  own : freed l.index r ops < UInt32.size →
    ((r.runAll ops).contains l = true ↔ ∀ op ∈ ops, ¬op.Ends l)
  guid : freed l.index r ops < UInt32.size → (r.runAll ops).contains l = true →
    (r.runAll ops).get? l = some g
  /-- Until then it removes no other entry. -/
  others : freed l.index r ops < UInt32.size → (∃ op ∈ ops, op.Ends l) →
    (r.runAll ops).erase? l = none ∧ (r.runAll ops).erase l = r.runAll ops

theorem Sound.lifetime (h : r.Sound) (hl : r.get? l = some g) (ops : List Op) :
    r.Lifetime l g ops := by
  have hlive : (r.runAll ops).contains l = true ↔
      ((r.runAll ops).occupant? l.index).isSome ∧ UInt32.size ∣ freed l.index r ops := by
    rw [contains_iff, h.generationAt_runAll, (get?_eq_some.1 hl).2, add_ofNat_eq_self]
  have hzero (hlt : freed l.index r ops < UInt32.size) :
      (r.runAll ops).contains l = true ↔ freed l.index r ops = 0 := by
    constructor
    · intro hc
      exact Nat.eq_zero_of_dvd_of_lt (hlive.1 hc).2 hlt
    · intro hz
      exact contains_of_get? (h.get?_runAll hl hz)
  have hown (hlt : freed l.index r ops < UInt32.size) :
      (r.runAll ops).contains l = true ↔ ∀ op ∈ ops, ¬op.Ends l :=
    (hzero hlt).trans (h.freed_eq_zero hl ops)
  refine ⟨hlive, hown, fun hlt hc => h.get?_runAll hl ((hzero hlt).1 hc), fun hlt hends => ?_⟩
  obtain ⟨op, hop, hends⟩ := hends
  have hstale : (r.runAll ops).contains l = false :=
    Bool.eq_false_iff.2 fun hc => (hown hlt).1 hc op hop hends
  exact ⟨erase?_of_stale hstale, erase_of_stale hstale⟩

/-- Whatever a roster has gone through when it issues a link, and whatever it goes through after
that, the link is stale exactly when it should be. -/
theorem lifetime_issued (before : List Op) (g : Guid) (after : List Op) :
    Lifetime ((runAll ∅ before).insert g).2 ((runAll ∅ before).insert g).1 g after := by
  have hbefore : (runAll ∅ before).Sound := Sound.empty.runAll before
  exact (hbefore.insert g).lifetime (get?_insert hbefore g) after

/-! ## Links of other rosters -/

/-- How a roster with the history `ops` takes a link issued by one that had the history `before`. -/
structure Takes (before ops : List Op) (l : Link) : Prop where
  /-- It takes the link for one of its own if the slot of this number has been freed as often. -/
  contains : (runAll ∅ ops).contains l = true ↔ ((runAll ∅ ops).occupant? l.index).isSome ∧
    freed l.index ∅ ops % UInt32.size = freed l.index ∅ before % UInt32.size
  refuses : (runAll ∅ ops).contains l = false →
    (runAll ∅ ops).erase? l = none ∧ (runAll ∅ ops).erase l = runAll ∅ ops
  /-- Otherwise it loses an entry of its own. -/
  loses : (runAll ∅ ops).contains l = true →
    ((runAll ∅ ops).erase? l).isSome ∧ ((runAll ∅ ops).erase l).size + 1 = (runAll ∅ ops).size

theorem generationAt_empty (i : Nat) : (∅ : Roster).generationAt i = 0 := rfl

theorem generationAt_history (ops : List Op) (i : Nat) :
    (runAll ∅ ops).generationAt i = .ofNat (freed i ∅ ops) := by
  rw [Sound.empty.generationAt_runAll, generationAt_empty, UInt32.zero_add]

/-- A roster refuses the link of another one unless it could have issued it to the entry that its
own slot of this number holds. -/
theorem takes_issued (before : List Op) (g : Guid) (ops : List Op) :
    Takes before ops ((runAll ∅ before).insert g).1 := by
  have hops : (runAll ∅ ops).Sound := Sound.empty.runAll ops
  refine ⟨?_, fun hc => ⟨erase?_of_stale hc, erase_of_stale hc⟩, fun hc => ?_⟩
  · rw [contains_iff, fst_insert, linkAt, generationAt_history, generationAt_history,
      ← UInt32.toNat_inj, UInt32.toNat_ofNat', UInt32.toNat_ofNat']
  · have herase : (runAll ∅ ops).erase? ((runAll ∅ before).insert g).1 =
        some ((runAll ∅ ops).erase ((runAll ∅ before).insert g).1) := by
      rw [erase_of_contains hc, Roster.erase?, if_pos hc]
    exact ⟨by rw [herase]; rfl, size_erase? hops herase⟩

/-- Two rosters with one entry each: the second gives up its entry for the link of the first. -/
theorem loses_foreign :
    let l := ((∅ : Roster).insert ⟨.creature, 1⟩).1
    let r := ((∅ : Roster).insert ⟨.creature, 2⟩).2
    r.contains l = true ∧ (r.erase? l).isSome = true ∧
      r.toList = [(l, ⟨.creature, 2⟩)] ∧ (r.erase l).toList = [] := by
  decide

end Realm.Roster
