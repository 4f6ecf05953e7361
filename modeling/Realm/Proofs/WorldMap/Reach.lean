import Realm.Proofs.Directory.Interleaving
import Realm.Proofs.WorldMap.Eviction

/-! # Operations on a map, one after the other

Whatever is asked of an indexed map leaves it indexed, and the notes tell the directory exactly
which objects came and which went. -/

namespace Realm.WorldMap

open Directory (follow)

variable {m m' m'' : WorldMap} {g : Guid} {p : Position} {s : Scope} {k : Kind} {pl : Placement}
  {notes notes' : List Directory.Note}

/-! ## Steps that the directory can follow -/

/-- An indexed `m'` has come from `m`, and the notes tell how. -/
structure Follows (m m' : WorldMap) (notes : List Directory.Note) : Prop where
  id : m'.id = m.id
  config : m'.config = m.config
  indexed : m'.Indexed
  told : ∀ g, follow g (m.contains g) (notes.map (·.call)) = some (m'.contains g)

theorem Follows.refl (h : m.Indexed) : m.Follows m [] := ⟨rfl, rfl, h, fun _ => rfl⟩

theorem Follows.trans (h : m.Follows m' notes) (h' : m'.Follows m'' notes') :
    m.Follows m'' (notes ++ notes') where
  id := h'.id.trans h.id
  config := h'.config.trans h.config
  indexed := h'.indexed
  told g := by
    rw [List.map_append, Directory.follow_append, h.told]
    exact h'.told g

theorem Becomes.contains {f : Guid → Option Placement} (h : m.Becomes m' f) (g : Guid) :
    m'.contains g = (f g).isSome := by
  rw [contains_eq_isSome, h.placement?]

theorem Follows.keeps (h : m.Indexed) (hk : m.Keeps m') : m.Follows m' [] where
  id := hk.id
  config := hk.config
  indexed := h.keeps hk
  told g := by
    rw [(h.becomes hk).contains, ← contains_eq_isSome]
    rfl

/-- The placement of one object changes, and the notes say as much. -/
theorem Follows.becomes {x : Option Placement}
    (h : m.Becomes m' (Function.update m.placement? g x))
    (hself : follow g (m.placement? g).isSome (notes.map (·.call)) = some x.isSome)
    (hothers : ∀ g', g' ≠ g → ∀ held, follow g' held (notes.map (·.call)) = some held) :
    m.Follows m' notes where
  id := h.id
  config := h.config
  indexed := h.indexed
  told g' := by
    rw [h.contains, contains_eq_isSome]
    rcases eq_or_ne g' g with rfl | hg'
    · rw [Function.update_self, hself]
    · rw [Function.update_of_ne hg', hothers g' hg']

theorem Follows.entered (hg : m.placement? g = none)
    (h : m.Becomes m' (Function.update m.placement? g (some pl))) :
    m.Follows m' [.placed g] := by
  refine .becomes h ?_ fun g' hg' held => ?_
  · simp [hg, follow, Directory.Note.call, Directory.Call.after]
  · simp [hg'.symm, follow, Directory.Note.call, Directory.Call.after]

theorem Follows.left (hg : m.placement? g = some pl)
    (h : m.Becomes m' (Function.update m.placement? g none)) : m.Follows m' [.gone g] := by
  refine .becomes h ?_ fun g' hg' held => ?_
  · simp [hg, follow, Directory.Note.call, Directory.Call.after]
  · simp [hg'.symm, follow, Directory.Note.call, Directory.Call.after]

theorem Follows.moved {pl' : Placement} (hg : m.placement? g = some pl)
    (h : m.Becomes m' (Function.update m.placement? g (some pl'))) : m.Follows m' [] :=
  .becomes h (by rw [hg]; rfl) fun _ _ _ => rfl

/-! ## Single operations -/

theorem Follows.add (h : m.Indexed) (g : Guid) (p : Position) (s : Scope) :
    m.Follows (m.add g p s).map (m.add g p s).notes := by
  by_cases hok : m.placement? g = none ∧ s.Holds g.kind ∧ p.IsValid
  · obtain ⟨l, m', hadd, hbec⟩ := h.add hok.1 hok.2.1 hok.2.2
    rw [hadd]
    exact .entered hok.1 hbec
  · obtain ⟨f, hf⟩ := add_refused hok
    rw [hf]
    exact .refl h

theorem Follows.addKind (h : m.Indexed) (hs : s.Holds k) (g : Guid) (p : Position) :
    m.Follows (m.addKind k g p s).map (m.addKind k g p s).notes := by
  by_cases hok : g.kind = k ∧ m.placement? g = none ∧ p.IsValid
  · obtain ⟨hk, hg, hp⟩ := hok
    obtain ⟨l, m', hadd, hbec⟩ := h.addKind hk hg (hk ▸ hs) hp
    rw [hadd]
    exact .entered hg hbec
  · obtain ⟨f, hf⟩ := addKind_refused (s := s) hok
    rw [hf]
    exact .refl h

theorem Follows.remove (h : m.Indexed) (g : Guid) :
    m.Follows (m.remove g).map (m.remove g).notes := by
  cases hg : m.placement? g with
  | none =>
    obtain ⟨f, hf⟩ := remove_refused hg
    rw [hf]
    exact .refl h
  | some pl =>
    obtain ⟨m', hrem, hbec⟩ := h.remove hg
    rw [hrem]
    exact .left hg hbec

theorem Follows.relocate (h : m.Indexed) (g : Guid) (p : Position) :
    m.Follows (m.relocate g p).map (m.relocate g p).notes := by
  by_cases hok : (m.placement? g).isSome ∧ p.IsValid
  · obtain ⟨hg, hp⟩ := hok
    obtain ⟨pl, hg⟩ := Option.isSome_iff_exists.1 hg
    obtain ⟨l, m', hrel, hbec⟩ := h.relocate hg hp
    rw [hrel]
    exact .moved hg hbec
  · obtain ⟨f, hf⟩ := relocate_refused hok
    rw [hf]
    exact .refl h

theorem Follows.unload (h : m.Indexed) (c : GridCoord) (force : Bool) :
    m.Follows (m.unload c force).map (m.unload c force).notes := by
  rcases h.unload c force with ⟨hn, hk⟩ | ⟨hn, hbec⟩
  · rw [hn]
    exact .keeps h hk
  · rw [hn]
    refine ⟨hbec.id, hbec.config, hbec.indexed, fun g => ?_⟩
    have hheld (hg : g ∈ m.occupants c) : m.contains g = true := by
      obtain ⟨p, hp, -⟩ := h.mem_occupants.1 hg
      rw [contains_eq_isSome, hp]
      rfl
    rw [List.map_map, hbec.contains]
    refine (Directory.follow_strikes h.filed.nodup_occupants hheld).trans ?_
    split
    · rfl
    · rw [contains_eq_isSome]

/-! ## Tasks and updates -/

theorem Follows.apply (h : m.Indexed) (t : Task) :
    m.Follows (m.apply t).map (m.apply t).notes := by
  cases t with
  | add g p s => exact .add h g p s
  | remove g => exact .remove h g
  | relocate g p => exact .relocate h g p

theorem map_next (r : TaskRun) (t : Task) : (r.next t).map = (r.map.apply t).map := by
  rw [TaskRun.next]
  dsimp only
  split <;> rfl

theorem notes_next (r : TaskRun) (t : Task) :
    (r.next t).notes = r.notes ++ (r.map.apply t).notes := by
  rw [TaskRun.next]
  dsimp only
  split <;> rfl

/-- What each task keeps is kept by all of them. -/
theorem applyAll_induct {P : WorldMap → List Directory.Note → Prop} {ts : List Task}
    (start : P m []) (step : ∀ m' notes, ∀ t ∈ ts, P m' notes →
      P (m'.apply t).map (notes ++ (m'.apply t).notes)) :
    P (m.applyAll ts).map (m.applyAll ts).notes := by
  refine List.foldlRecOn (motive := fun r => P r.map r.notes) (b := { map := m }) ts TaskRun.next
    start fun r hr t ht => ?_
  rw [map_next, notes_next]
  exact step r.map r.notes t ht hr

theorem Follows.applyAll (h : m.Indexed) (ts : List Task) :
    m.Follows (m.applyAll ts).map (m.applyAll ts).notes :=
  applyAll_induct (.refl h) fun _ _ t _ hr => hr.trans (.apply hr.indexed t)

/-- The tasks of an update, and the queue without them. -/
def batch (m : WorldMap) : List Task := (m.queue.popBatch m.config.maxTasks.toNat).1

def restQueue (m : WorldMap) : TaskQueue := (m.queue.popBatch m.config.maxTasks.toNat).2

def requeue (m : WorldMap) (queue : TaskQueue) : WorldMap := { m with queue }

theorem Indexed.requeue (h : m.Indexed) (queue : TaskQueue) : (m.requeue queue).Indexed where
  toShelved := h.toShelved.congr rfl rfl
  fits := h.fits
  entry := h.entry

theorem Follows.requeue (h : m.Indexed) (queue : TaskQueue) : m.Follows (m.requeue queue) [] :=
  ⟨rfl, rfl, h.requeue queue, fun _ => rfl⟩

/-- A map after the tasks of an update, before its grids are looked at. -/
def served (m : WorldMap) : WorldMap := ((m.requeue m.restQueue).applyAll m.batch).map

theorem Indexed.served (h : m.Indexed) : m.served.Indexed :=
  (Follows.applyAll (h.requeue m.restQueue) m.batch).indexed

/-- The grids are looked after last, and the statistics tell of that and of the tasks. -/
theorem finish_eq (run : TaskRun) (diff : Duration) :
    finish run diff =
      (run.map.keepHouse diff,
        { map := run.map.id
          applied := run.applied
          rejected := run.rejected
          loaded := run.map.warmed.loadedCount - run.map.loadedCount
          unloaded := (run.map.unloads diff).1
          total := (run.map.keepHouse diff).loadedCount
          active := run.map.covered.size
          objects := (run.map.keepHouse diff).objectCount }) := by
  rw [finish, keepHouse, unloads, warmed]

/-- An update runs its tasks, and then it looks at the grids. -/
theorem update_eq_finish (m : WorldMap) (diff : Duration) :
    m.update diff =
      ((finish ((m.requeue m.restQueue).applyAll m.batch) diff).1,
        (finish ((m.requeue m.restQueue).applyAll m.batch) diff).2,
        ((m.requeue m.restQueue).applyAll m.batch).notes) := rfl

theorem update_eq (m : WorldMap) (diff : Duration) :
    (m.update diff).1 = m.served.keepHouse diff := by
  rw [update_eq_finish, finish_eq, served]

theorem stats_update (m : WorldMap) (diff : Duration) :
    (m.update diff).2.1 =
      { map := m.served.id
        applied := ((m.requeue m.restQueue).applyAll m.batch).applied
        rejected := ((m.requeue m.restQueue).applyAll m.batch).rejected
        loaded := m.served.warmed.loadedCount - m.served.loadedCount
        unloaded := (m.served.unloads diff).1
        total := (m.update diff).1.loadedCount
        active := m.served.covered.size
        objects := (m.update diff).1.objectCount } := by
  rw [update_eq, update_eq_finish, finish_eq, served]

theorem Keeps.served (m : WorldMap) (diff : Duration) : m.served.Keeps (m.update diff).1 := by
  rw [update_eq]
  exact .keepHouse m.served diff

theorem notes_update (m : WorldMap) (diff : Duration) :
    (m.update diff).2.2 = ((m.requeue m.restQueue).applyAll m.batch).notes := rfl

theorem Follows.update (h : m.Indexed) (diff : Duration) :
    m.Follows (m.update diff).1 (m.update diff).2.2 := by
  have htasks := Follows.applyAll (h.requeue m.restQueue) m.batch
  have hhouse := Follows.keeps htasks.indexed (.served m diff)
  have hall := (Follows.requeue h m.restQueue).trans (htasks.trans hhouse)
  rwa [List.append_nil, List.nil_append, ← notes_update] at hall

/-! ## Runs -/

/-- What can be asked of a map. Others may change its queue between any two operations. -/
inductive Op where
  | add (g : Guid) (p : Position) (s : Scope)
  | addKind (k : Kind) (s : Scope) (held : s.Holds k) (g : Guid) (p : Position)
  | remove (g : Guid)
  | relocate (g : Guid) (p : Position)
  | load (c : GridCoord) (tweaks : List Grid.Tweak)
  | unload (c : GridCoord) (force : Bool)
  | lock (c : GridCoord) (on : Bool)
  | apply (t : Task)
  | requeue (queue : TaskQueue)
  | update (diff : Duration)

def Op.run (m : WorldMap) : Op → Outcome Unit
  | .add g p s => (m.add g p s).map' fun _ => ()
  | .addKind k s _ g p => (m.addKind k g p s).map' fun _ => ()
  | .remove g => (m.remove g).map' fun _ => ()
  | .relocate g p => (m.relocate g p).map' fun _ => ()
  | .load c tweaks =>
    match m.modifyGrid c fun g => tweaks.foldl Grid.tweak g with
    | .ok m => { result := .ok (), map := m }
    | .error f => m.refuse f
  | .unload c force => (m.unload c force).map' fun _ => ()
  | .lock c on => m.lockGrid c on
  | .apply t => m.apply t
  | .requeue queue => { result := .ok (), map := m.requeue queue }
  | .update diff =>
    let (m, _, notes) := m.update diff
    { result := .ok (), map := m, notes }

/-- A map after a sequence of operations. -/
def runAll (m : WorldMap) (ops : List Op) : WorldMap := ops.foldl (fun m op => (op.run m).map) m

theorem Follows.run (h : m.Indexed) (op : Op) : m.Follows (op.run m).map (op.run m).notes := by
  cases op with
  | add g p s => exact .add h g p s
  | addKind k s held g p => exact .addKind h held g p
  | remove g => exact .remove h g
  | relocate g p => exact .relocate h g p
  | load c tweaks =>
    simp only [Op.run]
    split
    · rename_i m' hm
      exact .keeps h (.modifyGrid (.tweaks tweaks) hm)
    · exact .refl h
  | unload c force => exact .unload h c force
  | lock c on =>
    simp only [Op.run, notes_lockGrid]
    exact .keeps h (.lockGrid m c on)
  | apply t => exact .apply h t
  | requeue queue => exact .requeue h queue
  | update diff => exact .update h diff

theorem Indexed.runAll (h : m.Indexed) (ops : List Op) : (m.runAll ops).Indexed := by
  induction ops generalizing m with
  | nil => exact h
  | cons op ops ih => exact ih (Follows.run h op).indexed

end Realm.WorldMap
