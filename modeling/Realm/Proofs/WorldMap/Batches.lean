import Realm.Proofs.WorldMap.Register

/-! # Batches

How the queue is cut into batches does not matter: whatever the updates do to grids in between, in
the end the register of the map is the one that the tasks make of it one by one. -/

namespace Realm

/-- What a placement says apart from its link. -/
def Placement.site (p : Placement) : CellCoord × Scope × Position :=
  (p.cell, p.scope, p.position)

/-! ## Tasks counted -/

/-- A register, and how many tasks it took and refused. -/
structure Ledger where
  register : Register
  applied : Nat := 0
  rejected : Nat := 0

namespace Ledger

variable {l : Ledger} {t : Task} {a b : Nat}

def next (l : Ledger) (t : Task) : Ledger :=
  let register := l.register.next t
  if (t.effect (l.register.spot? t.guid)).isSome then
    { register, applied := l.applied + 1, rejected := l.rejected }
  else { register, applied := l.applied, rejected := l.rejected + 1 }

/-- A ledger that counts on from `a` and `b`. -/
def carry (l : Ledger) (a b : Nat) : Ledger :=
  { l with applied := a + l.applied, rejected := b + l.rejected }

theorem next_carry : (l.carry a b).next t = (l.next t).carry a b := by
  by_cases h : (t.effect (l.register.spot? t.guid)).isSome
  · simp only [next, carry, h, if_true, Nat.add_assoc]
  · simp only [next, carry, h, Bool.false_eq_true, if_false, Nat.add_assoc]

theorem foldl_carry (ts : List Task) :
    ts.foldl next (l.carry a b) = (ts.foldl next l).carry a b := by
  induction ts generalizing l with
  | nil => rfl
  | cons t ts ih => rw [List.foldl_cons, next_carry, ih, List.foldl_cons]

end Ledger

namespace WorldMap

variable {m : WorldMap} {r : TaskRun}

def TaskRun.ledger (r : TaskRun) : Ledger := ⟨r.map.register, r.applied, r.rejected⟩

theorem TaskRun.ledger_next (h : r.map.Indexed) (t : Task) :
    (r.next t).ledger = r.ledger.next t := by
  have haccepted : (t.effect (r.ledger.register.spot? t.guid)).isSome =
      (r.map.apply t).result.isOk := (h.obeys t).accepted.symm
  have hregister : r.ledger.register.next t = (r.map.apply t).map.register :=
    (h.register_apply t).symm
  rw [Ledger.next, haccepted, hregister, TaskRun.next]
  dsimp only
  split
  · rename_i hok
    rw [hok]
    rfl
  · rename_i hf
    rw [hf]
    rfl

theorem TaskRun.ledger_foldl (h : r.map.Indexed) (ts : List Task) :
    (ts.foldl TaskRun.next r).ledger = ts.foldl Ledger.next r.ledger := by
  induction ts generalizing r with
  | nil => rfl
  | cons t ts ih =>
    have hnext : (r.next t).map.Indexed := by
      rw [map_next]
      exact (Follows.apply h t).indexed
    rw [List.foldl_cons, ih hnext, ledger_next h, List.foldl_cons]

/-! ## Updates -/

/-- The run goes on with an update. -/
def TaskRun.update (r : TaskRun) (diff : Duration) : TaskRun :=
  let (map, stats, notes) := r.map.update diff
  { map
    applied := r.applied + stats.applied
    rejected := r.rejected + stats.rejected
    notes := r.notes ++ notes }

/-- What updates make of a map, and how many tasks they apply and reject. -/
def updateAll (m : WorldMap) (diffs : List Duration) : TaskRun :=
  diffs.foldl TaskRun.update { map := m }

/-- Between its batch and the next one, an update changes nothing that a task can tell. -/
theorem TaskRun.ledger_update (h : r.map.Indexed) (diff : Duration) :
    (r.update diff).ledger = r.map.batch.foldl Ledger.next r.ledger := by
  have hrun := ledger_foldl (r := { map := r.map.requeue r.map.restQueue })
    (h.requeue r.map.restQueue) r.map.batch
  have hkeep : (r.map.update diff).1.register = r.map.served.register :=
    (Keeps.served r.map diff).register h.served.toShelved
  have hcarry : (r.update diff).ledger =
      ((r.map.requeue r.map.restQueue).applyAll r.map.batch).ledger.carry r.applied r.rejected := by
    simp only [ledger, TaskRun.update, Ledger.carry, hkeep, served, stats_update]
  rw [hcarry, applyAll, hrun, ← Ledger.foldl_carry]
  rfl

theorem TaskRun.indexed_foldl (h : r.map.Indexed) (diffs : List Duration) :
    (diffs.foldl TaskRun.update r).map.Indexed := by
  induction diffs generalizing r with
  | nil => exact h
  | cons diff diffs ih => exact ih (Follows.update h diff).indexed

/-- What a number of updates makes of a run: the first tasks of the queue are worked off. -/
structure TaskRun.Progress (r : TaskRun) (n : Nat) (r' : TaskRun) : Prop where
  ledger : r'.ledger = (r.map.queue.toList.take n).foldl Ledger.next r.ledger
  queue : r'.map.queue.toList = r.map.queue.toList.drop n

theorem TaskRun.progress (h : r.map.Indexed) (diffs : List Duration) :
    r.Progress (diffs.length * r.map.config.maxTasks.toNat) (diffs.foldl TaskRun.update r) := by
  induction diffs generalizing r with
  | nil => exact ⟨by simp, by simp⟩
  | cons diff diffs ih =>
    have hqueue : (r.update diff).map.queue.toList =
        r.map.queue.toList.drop r.map.config.maxTasks.toNat := by
      rw [← toList_restQueue]
      exact congrArg TaskQueue.toList (h.updated diff).queue
    have hnext := ih (r := r.update diff) (Follows.update h diff).indexed
    have hconfig : (r.update diff).map.config = r.map.config := (Follows.update h diff).config
    rw [hconfig] at hnext
    rw [List.length_cons, Nat.succ_mul, Nat.add_comm]
    refine ⟨?_, ?_⟩
    · rw [List.foldl_cons, hnext.ledger, hqueue, ledger_update h, toList_batch, ← List.foldl_append,
        ← List.take_add]
    · rw [List.foldl_cons, hnext.queue, hqueue, List.drop_drop]

/-! ## Tasks one by one -/

/-- A map after tasks that are applied one by one. Those that are refused are passed over. -/
def oneByOne (m : WorldMap) (ts : List Task) : WorldMap := ts.foldl (fun m t => (m.apply t).map) m

/-- Which of the tasks are accepted when they are applied one by one. -/
def verdicts (m : WorldMap) : List Task → List Bool
  | [] => []
  | t :: ts => (m.apply t).result.isOk :: (m.apply t).map.verdicts ts

theorem TaskRun.map_foldl_next (r : TaskRun) (ts : List Task) :
    (ts.foldl next r).map = r.map.oneByOne ts := by
  induction ts generalizing r with
  | nil => rfl
  | cons t ts ih => rw [List.foldl_cons, ih, map_next, oneByOne, oneByOne, List.foldl_cons]

theorem TaskRun.counts_foldl_next (r : TaskRun) (ts : List Task) :
    (ts.foldl next r).applied = r.applied + (r.map.verdicts ts).count true ∧
      (ts.foldl next r).rejected = r.rejected + (r.map.verdicts ts).count false := by
  induction ts generalizing r with
  | nil => exact ⟨rfl, rfl⟩
  | cons t ts ih =>
    obtain ⟨happlied, hrejected⟩ := ih (r.next t)
    rw [map_next] at happlied hrejected
    rw [List.foldl_cons, happlied, hrejected, verdicts, next]
    dsimp only
    split
    · rename_i hok
      rw [hok]
      exact ⟨by simp [Except.isOk, Except.toBool, Nat.add_assoc, Nat.add_comm 1],
        by simp [Except.isOk, Except.toBool]⟩
    · rename_i hf
      rw [hf]
      exact ⟨by simp [Except.isOk, Except.toBool],
        by simp [Except.isOk, Except.toBool, Nat.add_assoc, Nat.add_comm 1]⟩

/-! ## Results -/

/-- A run places and lists the objects as a map does, and has counted these verdicts. -/
structure TaskRun.Yields (r : TaskRun) (m : WorldMap) (verdicts : List Bool) : Prop where
  placed : ∀ g, (r.map.placement? g).map Placement.site = (m.placement? g).map Placement.site
  listed : ∀ d s k, r.map.guids d s k = m.guids d s k
  applied : r.applied = verdicts.count true
  rejected : r.rejected = verdicts.count false

theorem Indexed.site_eq (h : m.Indexed) (g : Guid) : (m.placement? g).map Placement.site =
    (m.spot? g).map fun x => (x.position.cellCoord, x.scope, x.position) := by
  rw [spot?]
  cases hg : m.placement? g with
  | none => rfl
  | some pl =>
    simp only [Option.map_some, Placement.site, Placement.spot, (h.fits hg).2.cell]

/-- A run with the ledger of tasks that were applied one by one yields what they do. -/
theorem TaskRun.Yields.of_ledger {ts : List Task} (h : r.map.Indexed) (hm : m.Indexed)
    (hl : r.ledger = (m.applyAll ts).ledger) : r.Yields (m.oneByOne ts) (m.verdicts ts) := by
  have hmap : (m.applyAll ts).map = m.oneByOne ts := map_foldl_next { map := m } ts
  obtain ⟨happlied, hrejected⟩ := counts_foldl_next { map := m } ts
  have hdone : (m.oneByOne ts).Indexed := hmap ▸ (Follows.applyAll hm ts).indexed
  have hregister : r.map.register = (m.oneByOne ts).register :=
    hmap ▸ congrArg Ledger.register hl
  refine ⟨fun g => ?_, fun d s k => ?_, ?_, ?_⟩
  · rw [h.site_eq, hdone.site_eq]
    exact congrArg (fun reg : Register => (reg.spot? g).map _) hregister
  · exact congrArg (fun reg : Register => reg.guids d s k) hregister
  · exact (congrArg Ledger.applied hl).trans (happlied.trans (Nat.zero_add _))
  · exact (congrArg Ledger.rejected hl).trans (hrejected.trans (Nat.zero_add _))

/-- Updates work off the queue of a map as if its tasks were applied one by one. -/
structure Batched (m : WorldMap) (diffs : List Duration) : Prop where
  /-- Every update takes as many tasks as the map allows. -/
  emptied : (m.updateAll diffs).map.queue.isEmpty = true ↔
    m.queue.size ≤ diffs.length * m.config.maxTasks.toNat
  same : (m.updateAll diffs).map.queue.isEmpty = true →
    (m.updateAll diffs).Yields (m.oneByOne m.queue.toList) (m.verdicts m.queue.toList)

theorem Indexed.batched (h : m.Indexed) (diffs : List Duration) : m.Batched diffs := by
  have hprog : TaskRun.Progress { map := m } _ (m.updateAll diffs) :=
    TaskRun.progress (r := { map := m }) h diffs
  have hsize : m.queue.toList.length = m.queue.size := rfl
  have hempty : (m.updateAll diffs).map.queue.isEmpty = true ↔
      m.queue.size ≤ diffs.length * m.config.maxTasks.toNat := by
    rw [TaskQueue.isEmpty_iff, hprog.queue, List.drop_eq_nil_iff, hsize]
  refine ⟨hempty, fun he => .of_ledger ?_ h ?_⟩
  · exact TaskRun.indexed_foldl (r := { map := m }) h diffs
  · rw [hprog.ledger, List.take_of_length_le (hsize ▸ hempty.1 he), applyAll,
      TaskRun.ledger_foldl (r := { map := m }) h]

/-- On a map after any operations, updates come to the same end in whatever batches they take the
tasks. -/
theorem batched_runAll (id : MapId) (config : MapConfig) (ops : List Op) (diffs : List Duration) :
    (runAll { id, config } ops).Batched diffs :=
  ((indexed_new id config).runAll ops).batched diffs

end WorldMap
end Realm
