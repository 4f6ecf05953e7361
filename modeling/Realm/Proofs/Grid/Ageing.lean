import Realm.Proofs.Grid.Holders
import Realm.WorldMap.Update

/-! # Ageing

A grid that nothing needs ages with every update. What an update finds there is a sighting, and the
sightings since the grid was last needed tell its state, how far its countdown has come, and when it
is dropped. -/

namespace Realm

/-! ## One update -/

namespace Grid

variable {g g' : Grid} {diff : Duration}

/-- A grid after an update during which nothing needed it, or none if it is to be unloaded. -/
def age (g : Grid) (diff : Duration) : Option Grid :=
  if (g.wait diff).2 then none else some (g.wait diff).1

theorem wait_of_active (h : g.state = .invalid ∨ g.state = .active) :
    g.wait diff = ((g.setRetention .restart).setState .idle, false) := by
  rcases h with h | h <;> rw [wait, h]

theorem wait_of_idle (h : g.state = .idle) :
    g.wait diff = ((g.setRetention .restart).setState .removal, false) := by
  rw [wait, h]

/-- The countdown runs unless the grid is locked, and it has run out when no more is left than the
time that has passed. -/
theorem wait_of_removal (h : g.state = .removal) : g.wait diff =
    if g.retention.locked then (g, false)
    else if diff.nanos < g.retention.remaining.nanos then
      (g.setRetention fun r => r.advance diff, false)
    else if g.isEmpty then (g.setRetention fun r => r.advance diff, true)
    else (g.setRetention .restart, false) := by
  have hexpired : (g.setRetention fun r => r.advance diff).retention.expired =
      decide (g.retention.remaining.nanos ≤ diff.nanos) :=
    decide_eq_decide.2 Nat.sub_eq_zero_iff_le
  have hempty : (g.setRetention fun r => r.advance diff).isEmpty = g.isEmpty := rfl
  rw [wait, h]
  simp only [hexpired, hempty]
  split
  · rfl
  · by_cases hd : diff.nanos < g.retention.remaining.nanos
    · rw [if_pos hd, decide_eq_false (Nat.not_le.2 hd)]
      rfl
    · rw [if_neg hd, decide_eq_true (Nat.not_lt.1 hd)]
      rfl

/-- To wait changes the state and the countdown of a grid, and does not make it active. -/
theorem wait_eq (g : Grid) (diff : Duration) : ∃ state retention,
    state ≠ .active ∧ g.retention.SameLocks retention ∧
      (g.wait diff).1 = { g with state, retention } := by
  cases hs : g.state with
  | invalid =>
    rw [wait_of_active (.inl hs)]
    exact ⟨.idle, g.retention.restart, nofun, ⟨rfl, rfl⟩, rfl⟩
  | active =>
    rw [wait_of_active (.inr hs)]
    exact ⟨.idle, g.retention.restart, nofun, ⟨rfl, rfl⟩, rfl⟩
  | idle =>
    rw [wait_of_idle hs]
    exact ⟨.removal, g.retention.restart, nofun, ⟨rfl, rfl⟩, rfl⟩
  | removal =>
    have hstays : g.state ≠ .active := by rw [hs]; exact nofun
    rw [wait_of_removal hs]
    split
    · exact ⟨_, _, hstays, .refl g.retention, rfl⟩
    · split
      · exact ⟨_, g.retention.advance diff, hstays, ⟨rfl, rfl⟩, rfl⟩
      · split
        · exact ⟨_, g.retention.advance diff, hstays, ⟨rfl, rfl⟩, rfl⟩
        · exact ⟨_, g.retention.restart, hstays, ⟨rfl, rfl⟩, rfl⟩

/-- A grid that is to be unloaded is not locked and counts no objects. -/
theorem of_due (h : (g.wait diff).2 = true) : g.retention.locked = false ∧ g.isEmpty = true := by
  cases hs : g.state with
  | invalid => rw [wait_of_active (.inl hs)] at h; exact absurd h Bool.false_ne_true
  | active => rw [wait_of_active (.inr hs)] at h; exact absurd h Bool.false_ne_true
  | idle => rw [wait_of_idle hs] at h; exact absurd h Bool.false_ne_true
  | removal =>
    rw [wait_of_removal hs] at h
    split at h
    · exact absurd h Bool.false_ne_true
    · rename_i hfree
      split at h
      · exact absurd h Bool.false_ne_true
      · split at h
        · rename_i hempty
          exact ⟨Bool.eq_false_iff.2 hfree, hempty⟩
        · exact absurd h Bool.false_ne_true

theorem isEmpty_wait (g : Grid) (diff : Duration) : (g.wait diff).1.isEmpty = g.isEmpty := by
  obtain ⟨state, retention, -, -, he⟩ := g.wait_eq diff
  rw [he]
  rfl

theorem age_eq_wait (h : g.age diff = some g') : (g.wait diff).2 = false ∧ (g.wait diff).1 = g' := by
  rw [age, Option.ite_none_left_eq_some] at h
  exact ⟨Bool.eq_false_iff.2 h.1, Option.some.inj h.2⟩

theorem age_of_active (h : g.state = .invalid ∨ g.state = .active) :
    g.age diff = some ((g.setRetention .restart).setState .idle) := by
  rw [age, wait_of_active h, if_neg Bool.false_ne_true]

theorem age_of_idle (h : g.state = .idle) :
    g.age diff = some ((g.setRetention .restart).setState .removal) := by
  rw [age, wait_of_idle h, if_neg Bool.false_ne_true]

theorem age_of_removal (h : g.state = .removal) : g.age diff =
    if g.retention.locked then some g
    else if diff.nanos < g.retention.remaining.nanos then
      some (g.setRetention fun r => r.advance diff)
    else if g.isEmpty then none
    else some (g.setRetention .restart) := by
  rw [age, wait_of_removal h]
  split
  · rfl
  · split
    · rfl
    · split <;> rfl

theorem age_eq_some (h : g.age diff = some g') : ∃ state retention,
    state ≠ .active ∧ g.retention.SameLocks retention ∧ g' = { g with state, retention } := by
  obtain ⟨-, rfl⟩ := age_eq_wait h
  exact g.wait_eq diff

theorem age_eq_none (h : g.age diff = none) : g.retention.locked = false ∧ g.isEmpty = true := by
  rw [age, ite_eq_left_iff] at h
  exact of_due (not_not.1 fun hstays => Option.some_ne_none _ (h hstays))

end Grid

/-! ## Sightings -/

/-- What an update finds at a grid that nothing needs. -/
structure Sighting where
  /-- The time since the update before. -/
  diff : Duration
  locked : Bool
  /-- Whether the grid holds no objects. -/
  vacant : Bool
  deriving DecidableEq, Repr

namespace Sighting

variable {delay : Duration} {seen : List Sighting} {s : Sighting}

/-- The time that a sighting adds to the countdown, which stands still while the grid is locked. -/
def counted (s : Sighting) : Nat := if s.locked then 0 else s.diff.nanos

/-- The sightings since the countdown last restarted, which it does when it runs out while the grid
holds objects. -/
def sinceRestart (delay : Duration) (seen : List Sighting) : List Sighting :=
  seen.foldl (fun since s =>
    if !s.locked && !s.vacant && delay.nanos ≤ total counted (since ++ [s]) then []
    else since ++ [s]) []

/-- How much of the countdown is used up. -/
def spent (delay : Duration) (seen : List Sighting) : Nat := total counted (sinceRestart delay seen)

/-- The grid is dropped at the last sighting: two are needed for it to await removal, and from then
on the countdown has run out for a grid that is neither locked nor in use. -/
def Due (delay : Duration) (seen : List Sighting) : Prop :=
  ∃ first second between last, seen = first :: second :: (between ++ [last]) ∧
    last.locked = false ∧ last.vacant = true ∧
    delay.nanos ≤ total counted (sinceRestart delay between ++ [last])

theorem spent_append : spent delay (seen ++ [s]) =
    if !s.locked && !s.vacant && delay.nanos ≤ spent delay seen + s.counted then 0
    else spent delay seen + s.counted := by
  have hsum : total counted (sinceRestart delay seen ++ [s]) = spent delay seen + s.counted := by
    simp [spent]
  rw [spent, sinceRestart, List.foldl_append, List.foldl_cons, List.foldl_nil, ← sinceRestart, hsum]
  split
  · rfl
  · exact hsum

theorem due_append {first second : Sighting} : Due delay (first :: second :: (seen ++ [s])) ↔
    s.locked = false ∧ s.vacant = true ∧ delay.nanos ≤ spent delay seen + s.diff.nanos := by
  have hcount (hs : s.locked = false) :
      total counted (sinceRestart delay seen ++ [s]) = spent delay seen + s.diff.nanos := by
    simp [spent, counted, hs]
  constructor
  · rintro ⟨_, _, between, last, he, hlocked, hvacant, hdelay⟩
    simp only [List.cons.injEq] at he
    obtain ⟨-, -, he⟩ := he
    obtain ⟨rfl, hlast⟩ := List.append_inj' he rfl
    cases hlast
    exact ⟨hlocked, hvacant, hcount hlocked ▸ hdelay⟩
  · rintro ⟨hlocked, hvacant, hdelay⟩
    exact ⟨first, second, seen, s, rfl, hlocked, hvacant, hcount hlocked ▸ hdelay⟩

/-- No grid is dropped that is locked or in use. -/
theorem Due.last (h : Due delay (seen ++ [s])) : s.locked = false ∧ s.vacant = true := by
  obtain ⟨first, second, between, last, he, hlocked, hvacant, -⟩ := h
  rw [← List.cons_append, ← List.cons_append] at he
  obtain ⟨-, hlast⟩ := List.append_inj' he rfl
  cases hlast
  exact ⟨hlocked, hvacant⟩

/-- One sighting or two are too few. -/
theorem not_due_of_length (h : seen.length ≤ 2) : ¬Due delay seen := by
  rintro ⟨first, second, between, last, rfl, -⟩
  simp at h

/-- The state of a grid after its sightings. -/
def stage : List Sighting → GridState
  | [] => .active
  | [_] => .idle
  | _ :: _ :: _ => .removal

end Sighting

/-! ## Sightings and age -/

namespace Grid

open Sighting

variable {g g' : Grid} {delay diff : Duration} {seen : List Sighting} {s : Sighting}

/-- What is remembered of a grid's age, apart from its locks. -/
structure SameClock (g g' : Grid) : Prop where
  state : g'.state = g.state
  delay : g'.retention.delay = g.retention.delay
  remaining : g'.retention.remaining = g.retention.remaining

/-- The grid is as old as the sightings tell. -/
structure Aged (g : Grid) (delay : Duration) (seen : List Sighting) : Prop where
  full : g.retention.delay = delay
  state : g.state = stage seen
  remaining : ∀ {first second : Sighting} {rest : List Sighting},
    seen = first :: second :: rest → g.retention.remaining.nanos + spent delay rest = delay.nanos

theorem Aged.sameClock (h : g.Aged delay seen) (hs : g.SameClock g') : g'.Aged delay seen :=
  ⟨hs.delay.trans h.full, hs.state.trans h.state, fun he => by rw [hs.remaining, h.remaining he]⟩

theorem Aged.active (hd : g.retention.delay = delay) (hs : g.state = .active) :
    g.Aged delay [] :=
  ⟨hd, hs, nofun⟩

/-- Of a grid that awaits removal, the countdown goes on. -/
theorem Aged.age_removal {first second : Sighting} {rest : List Sighting}
    (h : g.Aged delay (first :: second :: rest)) (hlocked : s.locked = g.retention.locked)
    (hvacant : s.vacant = g.isEmpty) :
    (g.age s.diff = none ↔ Due delay (first :: second :: (rest ++ [s]))) ∧
      ∀ g', g.age s.diff = some g' → g'.Aged delay (first :: second :: (rest ++ [s])) := by
  have hstate : g.state = .removal := h.state
  have hleft := h.remaining rfl
  have haged {g' : Grid} (hdelay : g'.retention.delay = delay) (hstate' : g'.state = .removal)
      (hrem : g'.retention.remaining.nanos + spent delay (rest ++ [s]) = delay.nanos) :
      g'.Aged delay (first :: second :: (rest ++ [s])) :=
    ⟨hdelay, hstate', fun he => by cases he; exact hrem⟩
  rw [age_of_removal hstate, due_append]
  by_cases hl : s.locked = true
  · -- the countdown stands still
    rw [if_pos (hlocked ▸ hl)]
    refine ⟨by simp [hl], fun g' hg' => ?_⟩
    cases hg'
    refine haged h.full hstate ?_
    simpa [spent_append, counted, hl] using hleft
  · have hfree : s.locked = false := Bool.eq_false_iff.2 hl
    have hcounted : s.counted = s.diff.nanos := by rw [counted, hfree]; rfl
    rw [if_neg (hlocked ▸ hl)]
    by_cases hd : s.diff.nanos < g.retention.remaining.nanos
    · -- the countdown has not run out
      rw [if_pos hd]
      have hshort : ¬delay.nanos ≤ spent delay rest + s.diff.nanos := by omega
      refine ⟨by simp [hshort], fun g' hg' => ?_⟩
      cases hg'
      refine haged h.full hstate ?_
      have hrem : (g.setRetention fun r => r.advance s.diff).retention.remaining.nanos =
          g.retention.remaining.nanos - s.diff.nanos := rfl
      have hspent : spent delay (rest ++ [s]) = spent delay rest + s.diff.nanos := by
        rw [spent_append, hcounted, decide_eq_false hshort]
        simp
      omega
    · rw [if_neg hd]
      have hlong : delay.nanos ≤ spent delay rest + s.diff.nanos := by omega
      by_cases he : g.isEmpty = true
      · rw [if_pos he]
        exact ⟨by simp [hfree, hvacant, he, hlong], nofun⟩
      · -- the countdown has run out for a grid in use, and restarts
        rw [if_neg he]
        refine ⟨by simp [hvacant, he], fun g' hg' => ?_⟩
        cases hg'
        refine haged h.full hstate ?_
        have hrestart : (g.setRetention .restart).retention.remaining = delay := h.full
        simp [spent_append, hcounted, hfree, hvacant, he, hlong, hrestart]

/-- With the next sighting a grid is dropped if it is due, and else it is as old as one sighting
more tells. -/
theorem Aged.age (h : g.Aged delay seen) (hlocked : s.locked = g.retention.locked)
    (hvacant : s.vacant = g.isEmpty) :
    (g.age s.diff = none ↔ Due delay (seen ++ [s])) ∧
      ∀ g', g.age s.diff = some g' → g'.Aged delay (seen ++ [s]) := by
  match seen, h with
  | [], h =>
    rw [age_of_active (.inr h.state)]
    refine ⟨⟨nofun, fun hdue => absurd hdue (not_due_of_length (by simp))⟩, fun g' hg' => ?_⟩
    cases hg'
    exact ⟨h.full, rfl, nofun⟩
  | [_], h =>
    rw [age_of_idle h.state]
    refine ⟨⟨nofun, fun hdue => absurd hdue (not_due_of_length (by simp))⟩, fun g' hg' => ?_⟩
    cases hg'
    refine ⟨h.full, rfl, fun he => ?_⟩
    cases he
    exact congrArg Duration.nanos h.full
  | _ :: _ :: _, h => exact h.age_removal hlocked hvacant

end Grid
end Realm
