import Mathlib.Data.List.Infix
import Mathlib.Data.List.Induction
import Realm.Grid.Retention

/-! # Holders of a grid

The lock of a grid counts its holders, but no further than 16 bits go. What it loses above it does
not find again: once more holders go than it can count, it takes the grid for free. -/

namespace Realm.Retention

variable {delay : Duration} {unload : Bool} {r r' r'' : Retention} {s : Step}
  {steps steps' : List Step} {k : Int}

/-! ## Locks -/

/-- The same locks, however far the countdown has come. -/
structure SameLocks (r r' : Retention) : Prop where
  pinned : r'.pinned = r.pinned
  holders : r'.holders = r.holders

theorem SameLocks.refl (r : Retention) : r.SameLocks r := ⟨rfl, rfl⟩

theorem SameLocks.trans (h : r.SameLocks r') (h' : r'.SameLocks r'') : r.SameLocks r'' :=
  ⟨h'.pinned.trans h.pinned, h'.holders.trans h.holders⟩

theorem SameLocks.locked (h : r.SameLocks r') : r'.locked = r.locked := by
  rw [Retention.locked, Retention.locked, h.pinned, h.holders]

theorem SameLocks.step (h : r.SameLocks r') (s : Step) : (r.step s).SameLocks (r'.step s) := by
  cases s with
  | restart | advance => exact ⟨h.pinned, h.holders⟩
  | pin on => exact ⟨rfl, h.holders⟩
  | hold | release =>
    refine ⟨h.pinned, ?_⟩
    simp only [Retention.step, hold, release, h.holders]

theorem run_append : r.run (steps ++ steps') = (r.run steps).run steps' := List.foldl_append

theorem SameLocks.run (h : r.SameLocks r') (steps : List Step) :
    (r.run steps).SameLocks (r'.run steps) := by
  induction steps generalizing r r' with
  | nil => exact h
  | cons s steps ih => exact ih (h.step s)

theorem toNat_hold (r : Retention) :
    r.hold.holders.toNat = min 65535 (r.holders.toNat + 1) := by
  have hlt := r.holders.toNat_lt
  rw [hold]
  dsimp only
  split
  · rename_i hfull
    rw [hfull]
    rfl
  · rename_i hfull
    have hne : r.holders.toNat ≠ 65535 := fun h => hfull (UInt16.toNat_inj.1 h)
    rw [UInt16.toNat_add, UInt16.toNat_one]
    omega

theorem toNat_release (r : Retention) : r.release.holders.toNat = r.holders.toNat - 1 := by
  rw [release]
  dsimp only
  split
  · rename_i hnone
    rw [hnone]
    rfl
  · rename_i hnone
    have hne : r.holders.toNat ≠ 0 := fun h => hnone (UInt16.toNat_inj.1 h)
    have hle : (1 : UInt16) ≤ r.holders :=
      UInt16.le_iff_toNat_le.2 (Nat.one_le_iff_ne_zero.2 hne)
    rw [UInt16.toNat_sub_of_le _ _ hle, UInt16.toNat_one]

/-! ## Balance -/

/-- How many more holders have come than gone. -/
def balance (steps : List Step) : Int := steps.count .hold - steps.count .release

theorem balance_nil : balance [] = 0 := rfl

theorem balance_append : balance (steps ++ steps') = balance steps + balance steps' := by
  simp only [balance, List.count_append]
  omega

/-- The count follows the balance as far as it can. -/
theorem holders_step (r : Retention) (s : Step) :
    ((r.step s).holders.toNat : Int) = max 0 (min 65535 (r.holders.toNat + balance [s])) := by
  have hlt := r.holders.toNat_lt
  cases s with
  | restart | advance | pin =>
    change (r.holders.toNat : Int) = max 0 (min 65535 (r.holders.toNat + (0 : Int)))
    omega
  | hold =>
    have hcome : balance [.hold] = 1 := rfl
    rw [step, toNat_hold, hcome]
    omega
  | release =>
    have hgone : balance [.release] = -1 := rfl
    rw [step, toNat_release, hgone]
    omega

/-- After `steps` the count is at least `k`, wherever it started: they add as much to it, and of
what they add no part is lost at the upper end. -/
structure Climbs (k : Int) (steps : List Step) : Prop where
  rises : k ≤ balance steps
  keeps : ∀ post, post <:+ steps → k ≤ balance post + 65535

theorem climbs_nil : Climbs k [] ↔ k ≤ 0 := by
  refine ⟨Climbs.rises, fun hk => ⟨hk, fun post hpost => ?_⟩⟩
  rw [List.suffix_nil.1 hpost, balance_nil]
  omega

theorem climbs_concat :
    Climbs k (steps ++ [s]) ↔ k ≤ 65535 ∧ Climbs (k - balance [s]) steps := by
  constructor
  · rintro ⟨hrises, hkeeps⟩
    have hnil := hkeeps [] (List.nil_suffix)
    rw [balance_append] at hrises
    refine ⟨by rwa [balance_nil, Int.zero_add] at hnil, by omega, fun post hpost => ?_⟩
    have hpost := hkeeps (post ++ [s]) (List.suffix_concat_iff.2 (.inr ⟨post, rfl, hpost⟩))
    rw [balance_append] at hpost
    omega
  · rintro ⟨hk, hrises, hkeeps⟩
    refine ⟨by rw [balance_append]; omega, fun post hpost => ?_⟩
    obtain rfl | ⟨pre, rfl, hpre⟩ := List.suffix_concat_iff.1 hpost
    · rwa [balance_nil, Int.zero_add]
    · have hkept := hkeeps pre hpre
      rw [balance_append]
      omega

/-- The count has come to `k` exactly if steps that lead so far came last. -/
theorem le_holders_run : k ≤ ((start delay unload).run steps).holders.toNat ↔
    ∃ post, post <:+ steps ∧ Climbs k post := by
  induction steps using List.reverseRecOn generalizing k with
  | nil =>
    have hnone : ((start delay unload).run []).holders.toNat = 0 := rfl
    simp only [hnone, List.suffix_nil, exists_eq_left, climbs_nil, Int.ofNat_zero]
  | append_singleton steps s ih =>
    have hstep := holders_step ((start delay unload).run steps) s
    have hconcat : k ≤ ((start delay unload).run (steps ++ [s])).holders.toNat ↔
        k ≤ 0 ∨ k ≤ 65535 ∧ k - balance [s] ≤ ((start delay unload).run steps).holders.toNat := by
      rw [run_append]
      change k ≤ ((((start delay unload).run steps).step s).holders.toNat : Int) ↔ _
      omega
    rw [hconcat, ih]
    constructor
    · rintro (hk | ⟨hk, post, hpost, hclimbs⟩)
      · exact ⟨[], List.nil_suffix, climbs_nil.2 hk⟩
      · exact ⟨post ++ [s], List.suffix_concat_iff.2 (.inr ⟨post, rfl, hpost⟩),
          climbs_concat.2 ⟨hk, hclimbs⟩⟩
    · rintro ⟨post, hpost, hclimbs⟩
      obtain rfl | ⟨pre, rfl, hpre⟩ := List.suffix_concat_iff.1 hpost
      · exact .inl (climbs_nil.1 hclimbs)
      · obtain ⟨hk, hrest⟩ := climbs_concat.1 hclimbs
        exact .inr ⟨hk, pre, hpre, hrest⟩

/-! ## What the locks tell -/

/-- No holder goes that has not come. -/
def Matched (steps : List Step) : Prop := ∀ pre, pre <+: steps → 0 ≤ balance pre

/-- There are never more holders at a time than 16 bits can count. -/
def Fits (steps : List Step) : Prop := ∀ pre, pre <+: steps → balance pre ≤ 65535

theorem Matched.balance_le {post : List Step} (h : Matched steps) (hpost : post <:+ steps) :
    balance post ≤ balance steps := by
  obtain ⟨pre, rfl⟩ := hpost
  have hpre := h pre (List.prefix_append pre post)
  rw [balance_append]
  omega

theorem Fits.climbs (h : Fits steps) (hpos : 0 < balance steps) : Climbs 1 steps := by
  refine ⟨hpos, fun post hpost => ?_⟩
  obtain ⟨pre, rfl⟩ := hpost
  have hpre := h pre (List.prefix_append pre post)
  rw [balance_append] at hpos
  omega

def Step.pinned? : Step → Option Bool
  | .pin on => some on
  | _ => none

theorem pinned_run (r : Retention) (steps : List Step) :
    (r.run steps).pinned = (steps.filterMap Step.pinned?).getLast?.getD r.pinned := by
  induction steps using List.reverseRecOn with
  | nil => rfl
  | append_singleton steps s ih =>
    rw [run_append, List.filterMap_append, List.getLast?_append]
    cases s with
    | pin on => rfl
    | restart | advance | hold | release => exact ih

/-- What the locks of a grid tell after `steps` since the grid was new. -/
structure Tells (r : Retention) (unload : Bool) (steps : List Step) : Prop where
  pinned : r.pinned = (steps.filterMap Step.pinned?).getLast?.getD !unload
  /-- Whatever the steps are, the holders hold the grid if some last steps tell so by themselves. -/
  locked : r.locked = true ↔ r.pinned = true ∨ ∃ post, post <:+ steps ∧ Climbs 1 post
  /-- No holders are made up. -/
  honest : Matched steps → r.locked = true → r.pinned = true ∨ 0 < balance steps
  exact : Matched steps → Fits steps → (r.locked = true ↔ r.pinned = true ∨ 0 < balance steps)

theorem locked_iff : r.locked = true ↔ r.pinned = true ∨ (1 : Int) ≤ r.holders.toNat := by
  rw [Retention.locked, Bool.or_eq_true, decide_eq_true_eq, UInt16.lt_iff_toNat_lt,
    UInt16.toNat_zero]
  refine or_congr_right ?_
  omega

theorem tells_run (delay : Duration) (unload : Bool) (steps : List Step) :
    ((start delay unload).run steps).Tells unload steps := by
  have hlocked : ((start delay unload).run steps).locked = true ↔
      ((start delay unload).run steps).pinned = true ∨ ∃ post, post <:+ steps ∧ Climbs 1 post := by
    rw [locked_iff, le_holders_run]
  have hhonest (hm : Matched steps) (hl : ((start delay unload).run steps).locked = true) :
      ((start delay unload).run steps).pinned = true ∨ 0 < balance steps := by
    refine (hlocked.1 hl).imp_right ?_
    rintro ⟨post, hpost, hclimbs⟩
    exact Int.le_trans hclimbs.rises (hm.balance_le hpost)
  refine ⟨pinned_run .., hlocked, hhonest, fun hm hf => ⟨hhonest hm, fun h => hlocked.2 ?_⟩⟩
  exact h.imp_right fun hpos => ⟨steps, List.suffix_rfl, hf.climbs hpos⟩

theorem SameLocks.tells (h : r.SameLocks r') (ht : r.Tells unload steps) :
    r'.Tells unload steps where
  pinned := h.pinned.trans ht.pinned
  locked := by rw [h.locked, h.pinned]; exact ht.locked
  honest := by rw [h.locked, h.pinned]; exact ht.honest
  exact := by rw [h.locked, h.pinned]; exact ht.exact

/-! ## A rush -/

/-- Holders that all come before they go. -/
def rush (n m : Nat) : List Step := List.replicate n .hold ++ List.replicate m .release

theorem balance_replicate_hold (n : Nat) : balance (List.replicate n .hold) = n := by
  simp [balance, List.count_replicate]

theorem balance_replicate_release (n : Nat) : balance (List.replicate n .release) = -n := by
  simp [balance, List.count_replicate]

theorem balance_rush (n m : Nat) : balance (rush n m) = n - m := by
  rw [rush, balance_append, balance_replicate_hold, balance_replicate_release]
  omega

theorem matched_rush {n m : Nat} (h : m ≤ n) : Matched (rush n m) := by
  intro pre hpre
  rcases List.prefix_or_prefix_of_prefix hpre (List.prefix_append ..) with hpre | ⟨gone, rfl⟩
  · rw [(List.prefix_replicate_iff.1 hpre).2, balance_replicate_hold]
    exact Int.natCast_nonneg _
  · obtain ⟨hle, hgone⟩ := List.prefix_replicate_iff.1 ((List.prefix_append_right_inj _).1 hpre)
    rw [balance_append, balance_replicate_hold, hgone, balance_replicate_release]
    omega

/-- As many releases as 16 bits can count leave the count at nothing, however many holders there
were. -/
theorem holders_rush (delay : Duration) (unload : Bool) (n : Nat) {m : Nat} (hm : 65535 ≤ m) :
    ((start delay unload).run (rush n m)).holders.toNat = 0 := by
  by_contra hne
  have hone : (1 : Int) ≤ ((start delay unload).run (rush n m)).holders.toNat := by omega
  obtain ⟨post, hpost, hclimbs⟩ := le_holders_run.1 hone
  rcases List.suffix_or_suffix_of_suffix hpost (List.suffix_append ..) with hgone | hgone
  · have hrises := hclimbs.rises
    rw [(List.suffix_replicate_iff.1 hgone).2, balance_replicate_release] at hrises
    omega
  · have hkept := hclimbs.keeps _ hgone
    rw [balance_replicate_release] at hkept
    omega

theorem run_eq_of_hold_or_release (h : ∀ s ∈ steps, s = .hold ∨ s = .release) (r : Retention) :
    ∃ holders, r.run steps = { r with holders } := by
  induction steps generalizing r with
  | nil => exact ⟨r.holders, rfl⟩
  | cons s steps ih =>
    obtain ⟨hs, hsteps⟩ := List.forall_mem_cons.1 h
    obtain ⟨holders, hrun⟩ := ih hsteps (r.step s)
    refine ⟨holders, hrun.trans ?_⟩
    rcases hs with rfl | rfl <;> rfl

/-- A crowd may leave a grid as if nobody had come, though not all of it has gone. -/
theorem run_rush (delay : Duration) (unload : Bool) (n : Nat) {m : Nat} (hm : 65535 ≤ m) :
    (start delay unload).run (rush n m) = start delay unload := by
  have hrush : ∀ s ∈ rush n m, s = .hold ∨ s = .release := fun s hs =>
    (List.mem_append.1 hs).imp List.eq_of_mem_replicate List.eq_of_mem_replicate
  obtain ⟨holders, hrun⟩ := run_eq_of_hold_or_release hrush (start delay unload)
  have hcount := holders_rush delay unload n hm
  rw [hrun] at hcount
  have hnone : holders = 0 := UInt16.toNat_inj.1 hcount
  rw [hrun, hnone]
  rfl

end Realm.Retention
