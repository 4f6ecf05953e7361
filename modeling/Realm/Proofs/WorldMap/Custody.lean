import Realm.Proofs.WorldMap.Chronicle
import Realm.Proofs.WorldMap.Coverage

/-! # Held grids

What callers have done to the locks of a grid since it was loaded tells whether it is locked, and no
update drops a grid that is. -/

namespace Realm

open Retention (Step Matched Fits Tells balance rush)

/-! ## Steps -/

/-- What a change of a grid is to its countdown and its locks. -/
def Grid.Tweak.step? : Grid.Tweak → Option Step
  | .state _ => none
  | .retention s => some s

theorem Grid.retention_tweaks (tweaks : List Grid.Tweak) (g : Grid) :
    (tweaks.foldl Grid.tweak g).retention = g.retention.run (tweaks.filterMap Tweak.step?) := by
  induction tweaks generalizing g with
  | nil => rfl
  | cons t tweaks ih =>
    rw [List.foldl_cons, ih]
    cases t with
    | state | retention => rfl

theorem Grid.foldl_retention (steps : List Step) (g : Grid) :
    (steps.map .retention).foldl Grid.tweak g = g.setRetention fun r => r.run steps := by
  induction steps generalizing g with
  | nil => rfl
  | cons s steps ih => exact ih (g.setRetention fun r => r.step s)

namespace WorldMap

variable {m : WorldMap} {c : GridCoord} {grid : Grid} {steps : List Step}

/-- What callers have done to the countdown and the locks of a grid since it was loaded, after one
operation more. -/
def record (m : WorldMap) (c : GridCoord) (steps : List Step) (op : Op) : List Step :=
  if (op.run m).map.isLoaded c then
    steps ++ (op.tweaksAt c).filterMap Grid.Tweak.step?
  else []

/-- The same, after a sequence of operations. -/
def records (c : GridCoord) (m : WorldMap) (steps : List Step) : List Op → List Step
  | [] => steps
  | op :: ops => records c (op.run m).map (m.record c steps op) ops

/-- The grid is locked as the steps have locked it. -/
def LockedBy (config : MapConfig) (grid : Grid) (steps : List Step) : Prop :=
  ((Retention.start (.ofMillis config.unloadDelay.toNat) config.gridUnload).run steps).SameLocks
    grid.retention

theorem lasting_lockedBy : Lasting LockedBy where
  fresh _ _ := .refl _
  sameAge hs h := by rwa [LockedBy, hs.retention]

/-- The locks of a loaded grid are as its history tells. -/
abbrev Held : WorldMap → GridCoord → List Step → Prop := Chronicle LockedBy

theorem held_new (id : MapId) (config : MapConfig) (c : GridCoord) : Held { id, config } c [] :=
  chronicle_new LockedBy id config c

/-! ## Operations -/

theorem Held.update (h : m.Held c steps) (hm : m.Indexed) (diff : Duration) :
    (m.update diff).1.Held c (m.record c steps (.update diff)) := by
  have hserved : m.served.Held c steps := h.spares lasting_lockedBy (writes_served m).spares
  have hrecord : m.record c steps (.update diff) =
      if (m.update diff).1.isLoaded c then steps else [] := by
    change (if (m.update diff).1.isLoaded c then steps ++ [] else []) = _
    rw [List.append_nil]
  rw [hrecord]
  refine .of_loaded fun {grid'} hg' => ?_
  rw [(Keeps.served m diff).config]
  -- neither what makes a grid active nor what lets it age touches its locks
  rw [hm.grid?_update] at hg'
  split at hg'
  · cases hg'
    exact (hserved.getD lasting_lockedBy).trans ⟨rfl, rfl⟩
  · obtain ⟨grid, hg, hage⟩ := Option.bind_eq_some_iff.1 hg'
    obtain ⟨state, retention, -, hlocks, rfl⟩ := Grid.age_eq_some hage
    exact (hserved.loaded hg).trans hlocks

theorem Held.run (h : m.Held c steps) (hm : m.Indexed) (op : Op) :
    (op.run m).map.Held c (m.record c steps op) := by
  have hrun (hu : ¬op.IsUpdate) : (op.run m).map.Held c (m.record c steps op) :=
    Chronicle.run h lasting_lockedBy hm hu fun grid hlocks => by
      rw [LockedBy, Retention.run_append, Grid.retention_tweaks]
      exact hlocks.run _
  cases op with
  | add | addKind | remove | relocate | load | unload | lock | apply | requeue =>
    exact hrun not_false
  | update diff => exact h.update hm diff

theorem Held.runAll (h : m.Held c steps) (hm : m.Indexed) (ops : List Op) :
    (m.runAll ops).Held c (records c m steps ops) := by
  induction ops generalizing m steps with
  | nil => exact h
  | cons op ops ih => exact ih (h.run hm op) (Follows.run hm op).indexed

/-! ## Custody -/

theorem Indexed.isLoaded_update_of_locked (hm : m.Indexed) (hg : m.grid? c = some grid)
    (hl : grid.retention.locked = true) (diff : Duration) : (m.update diff).1.isLoaded c := by
  obtain ⟨old, hold, hs⟩ := (writes_served m).spares.loaded hg
  have hstays : (old.age diff).isSome := by
    by_contra hnone
    obtain ⟨hfree, -⟩ := Grid.age_eq_none (Option.not_isSome_iff_eq_none.1 hnone)
    rw [hs.retention, hl] at hfree
    exact Bool.false_ne_true hfree.symm
  exact (hm.isLoaded_update ..).2 (.inr ⟨old, hold, hstays⟩)

/-- What the locks of the grid at `c` are worth after `steps` since it was loaded. -/
structure Custody (m : WorldMap) (c : GridCoord) (steps : List Step) (diff : Duration) : Prop where
  tells : ∀ {grid : Grid}, m.grid? c = some grid → grid.retention.Tells m.config.gridUnload steps
  /-- No update drops a locked grid. -/
  keeps : ∀ {grid : Grid}, m.grid? c = some grid → grid.retention.locked = true →
    (m.update diff).1.isLoaded c
  /-- No update drops a grid of whose holders one is left, if there were never more than the lock
  can count. -/
  held : m.isLoaded c → Matched steps → Fits steps → 0 < balance steps →
    (m.update diff).1.isLoaded c

theorem Held.custody (h : m.Held c steps) (hm : m.Indexed) (diff : Duration) :
    m.Custody c steps diff := by
  have htells {grid : Grid} (hg : m.grid? c = some grid) :
      grid.retention.Tells m.config.gridUnload steps :=
    (h.loaded hg).tells (Retention.tells_run _ _ steps)
  refine ⟨htells, fun hg hl => hm.isLoaded_update_of_locked hg hl diff,
    fun hl hmatched hf hpos => ?_⟩
  obtain ⟨grid, hg⟩ := Option.isSome_iff_exists.1 hl
  exact hm.isLoaded_update_of_locked hg (((htells hg).exact hmatched hf).2 (.inr hpos)) diff

/-- The lock of a grid counts its holders as long as there are never more than it can count, and
after any operations it keeps the grid. -/
theorem custody_runAll (id : MapId) (config : MapConfig) (ops : List Op) (c : GridCoord)
    (diff : Duration) :
    (∀ delay unload steps, ((Retention.start delay unload).run steps).Tells unload steps) ∧
      (runAll { id, config } ops).Custody c (records c { id, config } [] ops) diff :=
  ⟨Retention.tells_run, ((held_new id config c).runAll (indexed_new id config) ops).custody
    ((indexed_new id config).runAll ops) diff⟩

/-! ## A rush -/

/-- A rush leaves a new grid as it was. -/
theorem load_rush (hg : m.grid? c = none) (n : Nat) {k : Nat} (hk : 65535 ≤ k) :
    ((Op.load c ((rush n k).map .retention)).run m).map = ((Op.load c []).run m).map := by
  have hfresh : ((rush n k).map .retention).foldl Grid.tweak (m.freshGrid c) = m.freshGrid c := by
    rw [Grid.foldl_retention]
    exact congrArg (fun retention => { m.freshGrid c with retention })
      (Retention.run_rush _ _ n hk)
  have hmod : (m.modifyGrid c fun g => ((rush n k).map .retention).foldl Grid.tweak g) =
      m.modifyGrid c fun g => [].foldl Grid.tweak g :=
    modifyGrid_congr (by rw [hg]; exact hfresh)
  simp only [Op.run, hmod]

theorem runAll_load_rush (hg : m.grid? c = none) (n : Nat) {k : Nat} (hk : 65535 ≤ k)
    (ops : List Op) : m.runAll (.load c ((rush n k).map .retention) :: ops) =
      m.runAll (.load c [] :: ops) :=
  congrArg (runAll · ops) (load_rush hg n hk)

/-- Of 65536 holders all but one have gone, and the grid that is still held is dropped. -/
theorem dropped_rush :
    let steps := rush 65536 65535
    let c : GridCoord := ⟨0, 0⟩
    let tick := Duration.ofMillis 60
    let m := runAll { id := 0, config := { unloadDelay := 100 } }
      [.load c (steps.map .retention), .update tick, .update tick, .update tick]
    Matched steps ∧ balance steps = 1 ∧
      ((Retention.start (.ofMillis 100) true).run steps).locked = false ∧
      m.isLoaded c = true ∧ (m.update tick).1.isLoaded c = false := by
  have hfree : ((Retention.start (.ofMillis 100) true).run (rush 65536 65535)).locked = false := by
    rw [Retention.run_rush _ _ 65536 (Nat.le_refl 65535)]
    rfl
  refine ⟨Retention.matched_rush (by decide), Retention.balance_rush .., hfree, ?_⟩
  rw [runAll_load_rush (by decide) 65536 (Nat.le_refl 65535)]
  decide +kernel

end WorldMap
end Realm
