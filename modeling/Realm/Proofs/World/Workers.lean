import Realm.Proofs.World.Maps
import Realm.Proofs.WorldMap.Writes

/-! # Workers

In a tick each map is updated by a worker of its own. The workers share the directory and nothing
else: between two steps of one any steps of the others may come. A schedule names the worker of each
step. Where a tick is heading is settled before its first step, up to the order in which the
directory lists the maps of a guid. -/

namespace Realm

open Directory (Call)

variable {diff : Duration}

/-! ## Tasks leave the number of a map alone -/

namespace WorldMap

variable {m m' : WorldMap} {grid : Grid}

theorem id_apply (m : WorldMap) (t : Task) : (m.apply t).map.id = m.id := (writes_apply m t).id

theorem id_finish (run : TaskRun) : (finish run diff).1.id = run.map.id := by
  rw [finish_eq, (Keeps.keepHouse run.map diff).id]

/-- The notes of tasks that are still to be applied. -/
def notesAhead (run : TaskRun) : List Task → List Directory.Note
  | [] => []
  | t :: ts => (run.map.apply t).notes ++ notesAhead (run.next t) ts

theorem id_foldl_next (run : TaskRun) (ts : List Task) :
    (ts.foldl TaskRun.next run).map.id = run.map.id := by
  induction ts generalizing run with
  | nil => rfl
  | cons t ts ih => rw [List.foldl_cons, ih, map_next, id_apply]

theorem notes_foldl_next (run : TaskRun) (ts : List Task) :
    (ts.foldl TaskRun.next run).notes = run.notes ++ notesAhead run ts := by
  induction ts generalizing run with
  | nil => rw [List.foldl_nil, notesAhead, List.append_nil]
  | cons t ts ih => rw [List.foldl_cons, ih, notes_next, notesAhead, List.append_assoc]

/-- A map that has taken its batch of tasks from the queue. -/
def begin (m : WorldMap) : TaskRun := { map := m.requeue m.restQueue }

theorem update_eq_begin (m : WorldMap) (diff : Duration) :
    let out := finish (m.batch.foldl TaskRun.next m.begin) diff
    m.update diff = (out.1, out.2, notesAhead m.begin m.batch) := by
  have hrun : (m.requeue m.restQueue).applyAll m.batch = m.batch.foldl TaskRun.next m.begin := rfl
  have hnotes := notes_foldl_next m.begin m.batch
  rw [begin, List.nil_append] at hnotes
  rw [update_eq_finish, hrun, begin, ← hnotes]

theorem id_update (m : WorldMap) (diff : Duration) : (m.update diff).1.id = m.id := by
  rw [update_eq_begin, id_finish, id_foldl_next]
  rfl

end WorldMap

/-! ## Workers -/

/-- A map on its way through an update. The worker makes its calls on the directory before it goes
on to the next task. -/
inductive Worker where
  | waiting (map : WorldMap)
  | working (run : WorldMap.TaskRun) (tasks : List Task) (calls : List Call)
  | finished (map : WorldMap) (stats : UpdateStats)

namespace Worker

open WorldMap (TaskRun notesAhead finish)

variable {x : Worker} {d : Directory}

def mapId : Worker → MapId
  | .waiting m | .finished m _ => m.id
  | .working run .. => run.map.id

def IsFinished : Worker → Prop
  | .finished .. => True
  | _ => False

instance : DecidablePred IsFinished
  | .finished .. => .isTrue trivial
  | .waiting _ | .working .. => .isFalse not_false

/-- One step of a worker, and the directory after it. A finished worker rests. -/
def step (diff : Duration) (d : Directory) : Worker → Worker × Directory
  | .waiting m => (.working m.begin m.batch [], d)
  | .working run tasks (c :: calls) =>
    let act := d.act run.map.id c
    (.working run tasks (act.2.1 ++ calls), act.1)
  | .working run (t :: tasks) [] =>
    (.working (run.next t) tasks ((run.map.apply t).notes.map (·.call)), d)
  | .working run [] [] =>
    let out := finish run diff
    (.finished out.1 out.2, d)
  | .finished m stats => (.finished m stats, d)

/-- The map and the stats that a worker will come to. -/
def outcome (diff : Duration) : Worker → WorldMap × UpdateStats
  | .waiting m => finish (m.batch.foldl TaskRun.next m.begin) diff
  | .working run tasks _ => finish (tasks.foldl TaskRun.next run) diff
  | .finished m stats => (m, stats)

/-- The calls that a worker is still to make. -/
def callsAhead : Worker → List Call
  | .waiting m => (notesAhead m.begin m.batch).map (·.call)
  | .working run tasks calls => calls ++ (notesAhead run tasks).map (·.call)
  | .finished .. => []

theorem mapId_step (x : Worker) (d : Directory) : (x.step diff d).1.mapId = x.mapId := by
  fun_cases step diff d x with
  | case1 | case2 | case5 => rfl
  | case3 run t tasks => exact (congrArg _ (WorldMap.map_next run t)).trans (WorldMap.id_apply ..)
  | case4 run => exact WorldMap.id_finish run

/-- A step reads nothing from the directory but the answers to its calls. -/
theorem outcome_step (x : Worker) (d : Directory) :
    (x.step diff d).1.outcome diff = x.outcome diff := by
  fun_cases step diff d x <;> rfl

theorem count_step_of_ne {id : MapId} (he : id ≠ x.mapId) :
    ((x.step diff d).2.registrations g).count id = (d.registrations g).count id := by
  fun_cases step diff d x with
  | case2 run tasks c calls => exact Directory.count_act_of_ne he c
  | case1 | case3 | case4 | case5 => rfl

/-- How often a map will be listed once its worker has made its calls. -/
theorem tally_step (x : Worker) (d : Directory) :
    (x.step diff d).1.callsAhead.foldl (Call.tally g)
        (((x.step diff d).2.registrations g).count x.mapId) =
      x.callsAhead.foldl (Call.tally g) ((d.registrations g).count x.mapId) := by
  fun_cases step diff d x with
  | case1 | case4 | case5 => rfl
  | case2 run tasks c calls =>
    simp only [callsAhead, mapId, List.foldl_append, List.foldl_cons]
    rw [Directory.count_act_self, Directory.tally_follow]
  | case3 run t tasks =>
    simp only [callsAhead, notesAhead, List.map_append, List.nil_append]

theorem IsFinished.callsAhead (h : x.IsFinished) : x.callsAhead = [] := by
  cases x with
  | finished => rfl
  | waiting | working => exact h.elim

end Worker

/-! ## Ticks under way -/

/-- The workers of a tick, one for each map, and the directory that they share. -/
structure Shift where
  workers : List Worker
  directory : Directory

namespace Shift

variable {t t' : Shift} {id : MapId} {x : Worker}

/-- The worker at a place takes its next step. -/
def step (diff : Duration) (t : Shift) (i : Nat) : Shift :=
  match t.workers[i]? with
  | none => t
  | some x =>
    let out := x.step diff t.directory
    ⟨t.workers.set i out.1, out.2⟩

/-- The workers take steps as the schedule names them. -/
def run (diff : Duration) (t : Shift) (schedule : List Nat) : Shift := schedule.foldl (step diff) t

def Finished (t : Shift) : Prop := ∀ x ∈ t.workers, x.IsFinished

instance : Decidable t.Finished := inferInstanceAs (Decidable (∀ x ∈ t.workers, x.IsFinished))

/-- The number of each map stands once. -/
def Distinct (t : Shift) : Prop := (t.workers.map (·.mapId)).Nodup

def outcomes (diff : Duration) (t : Shift) : List (WorldMap × UpdateStats) :=
  t.workers.map (·.outcome diff)

def callsAhead (t : Shift) (id : MapId) : List Call :=
  ((t.workers.find? fun x => x.mapId = id).map (·.callsAhead)).getD []

/-- How often a map will be listed under a guid once all calls are made. -/
def tally (t : Shift) (g : Guid) (id : MapId) : Nat :=
  (t.callsAhead id).foldl (Call.tally g) ((t.directory.registrations g).count id)

/-! ### One step -/

theorem step_split (diff : Duration) (as bs : List Worker) (x : Worker) (d : Directory) :
    step diff ⟨as ++ x :: bs, d⟩ as.length =
      ⟨as ++ (x.step diff d).1 :: bs, (x.step diff d).2⟩ := by
  simp [step]

theorem step_cases (diff : Duration) (t : Shift) (i : Nat) :
    t.step diff i = t ∨ ∃ as x bs d, t = ⟨as ++ x :: bs, d⟩ ∧
      t.step diff i = ⟨as ++ (x.step diff d).1 :: bs, (x.step diff d).2⟩ := by
  obtain ⟨workers, d⟩ := t
  by_cases hi : i < workers.length
  · have hlen : (workers.take i).length = i := List.length_take_of_le hi.le
    have hsplit : workers.take i ++ workers[i] :: workers.drop (i + 1) = workers := by
      rw [← List.drop_eq_getElem_cons hi, List.take_append_drop]
    have hstep := step_split diff (workers.take i) (workers.drop (i + 1)) workers[i] d
    rw [hlen, hsplit] at hstep
    exact .inr ⟨_, _, _, d, by rw [hsplit], hstep⟩
  · exact .inl (by rw [step, List.getElem?_eq_none (Nat.le_of_not_lt hi)])

theorem callsAhead_split {as bs : List Worker} {x : Worker} {d : Directory}
    (h : Distinct ⟨as ++ x :: bs, d⟩) :
    callsAhead ⟨as ++ x :: bs, d⟩ id =
      if x.mapId = id then x.callsAhead else callsAhead ⟨as ++ bs, d⟩ id := by
  rw [callsAhead, callsAhead, List.find?_append, List.find?_append]
  split
  · rename_i he
    have has : as.find? (fun y => y.mapId = id) = none := by
      rw [List.find?_eq_none]
      intro y hy hid
      rw [Distinct, List.map_append, List.nodup_append] at h
      exact h.2.2 _ (List.mem_map_of_mem hy) x.mapId (by simp)
        ((of_decide_eq_true hid).trans he.symm)
    rw [has, List.find?_cons_of_pos (by simpa using he)]
    rfl
  · rename_i he
    rw [List.find?_cons_of_neg (by simpa using he)]

/-- A step leaves it settled where the tick is heading. -/
structure SameCourse (diff : Duration) (t t' : Shift) : Prop where
  ids : t'.workers.map (·.mapId) = t.workers.map (·.mapId)
  outcomes : t'.outcomes diff = t.outcomes diff
  tally : t.Distinct → ∀ g id, t'.tally g id = t.tally g id

theorem SameCourse.refl (t : Shift) : SameCourse diff t t := ⟨rfl, rfl, fun _ _ _ => rfl⟩

theorem SameCourse.trans {t'' : Shift} (h : SameCourse diff t t') (h' : SameCourse diff t' t'') :
    SameCourse diff t t'' where
  ids := h'.ids.trans h.ids
  outcomes := h'.outcomes.trans h.outcomes
  tally hd g id := by
    have hd' : t'.Distinct := by rwa [Distinct, h.ids]
    rw [h'.tally hd', h.tally hd]

theorem SameCourse.step (diff : Duration) (t : Shift) (i : Nat) :
    SameCourse diff t (t.step diff i) := by
  obtain he | ⟨as, x, bs, d, rfl, he⟩ := step_cases diff t i
  · rw [he]
    exact .refl t
  · rw [he]
    have hids : (as ++ (x.step diff d).1 :: bs).map (·.mapId) = (as ++ x :: bs).map (·.mapId) := by
      simp only [List.map_append, List.map_cons, Worker.mapId_step]
    refine ⟨hids, ?_, fun hd g id => ?_⟩
    · simp only [Shift.outcomes, List.map_append, List.map_cons, Worker.outcome_step]
    · have hd' : Distinct ⟨as ++ (x.step diff d).1 :: bs, (x.step diff d).2⟩ := by
        rwa [Distinct, hids]
      rw [Shift.tally, Shift.tally, callsAhead_split hd, callsAhead_split hd', Worker.mapId_step]
      split
      · rename_i hid
        subst hid
        exact Worker.tally_step x d
      · rename_i hid
        rw [Worker.count_step_of_ne (Ne.symm hid)]
        rfl

theorem SameCourse.run (t : Shift) (schedule : List Nat) :
    SameCourse diff t (t.run diff schedule) := by
  induction schedule generalizing t with
  | nil => exact .refl t
  | cons i schedule ih => exact (SameCourse.step diff t i).trans (ih _)

/-! ### Finished ticks -/

theorem Finished.workers (h : t.Finished) (diff : Duration) :
    t.workers = (t.outcomes diff).map fun out => .finished out.1 out.2 := by
  rw [Shift.outcomes, List.map_map]
  refine (List.map_id _).symm.trans (List.map_congr_left fun x hx => ?_)
  have hfin := h x hx
  cases x with
  | finished => rfl
  | waiting | working => exact hfin.elim

theorem Finished.tally (h : t.Finished) (g : Guid) (id : MapId) :
    t.tally g id = (t.directory.registrations g).count id := by
  have hcalls : t.callsAhead id = [] := by
    rw [Shift.callsAhead]
    cases hx : t.workers.find? fun x => x.mapId = id with
    | none => rfl
    | some x => exact (h x (List.mem_of_find?_eq_some hx)).callsAhead
  rw [Shift.tally, hcalls, List.foldl_nil]

/-- Two ends of a tick that differ at most in the order in which the directory lists the maps of a
guid. -/
structure Agrees (t t' : Shift) : Prop where
  workers : t.workers = t'.workers
  counts : ∀ g id,
    (t.directory.registrations g).count id = (t'.directory.registrations g).count id
  located : ∀ g,
    (∀ id ∈ t.directory.registrations g, ∀ id' ∈ t.directory.registrations g, id = id') →
      t.directory.locate? g = t'.directory.locate? g

theorem Distinct.agrees (hd : t.Distinct) (s s' : List Nat) (h : (t.run diff s).Finished)
    (h' : (t.run diff s').Finished) : (t.run diff s).Agrees (t.run diff s') := by
  have hs : SameCourse diff t (t.run diff s) := .run t s
  have hs' : SameCourse diff t (t.run diff s') := .run t s'
  have hcounts (g : Guid) (id : MapId) :
      ((t.run diff s).directory.registrations g).count id =
        ((t.run diff s').directory.registrations g).count id := by
    rw [← h.tally, ← h'.tally, hs.tally hd, hs'.tally hd]
  refine ⟨?_, hcounts, fun g => Directory.locate?_congr (hcounts g)⟩
  rw [h.workers diff, h'.workers diff, hs.outcomes, hs'.outcomes]

/-! ### One worker after the other -/

/-- Some schedule leads from `t` to `t'`. -/
def Leads (diff : Duration) (t t' : Shift) : Prop := ∃ schedule, t.run diff schedule = t'

theorem Leads.refl (t : Shift) : Leads diff t t := ⟨[], rfl⟩

theorem Leads.trans {t'' : Shift} (h : Leads diff t t') (h' : Leads diff t' t'') :
    Leads diff t t'' := by
  obtain ⟨s, rfl⟩ := h
  obtain ⟨s', rfl⟩ := h'
  exact ⟨s ++ s', by rw [run, List.foldl_append]; rfl⟩

theorem Leads.step (as bs : List Worker) (x : Worker) (d : Directory) :
    Leads diff ⟨as ++ x :: bs, d⟩ ⟨as ++ (x.step diff d).1 :: bs, (x.step diff d).2⟩ :=
  ⟨[as.length], step_split diff as bs x d⟩

open WorldMap (TaskRun notesAhead finish)

theorem Leads.calls (as bs : List Worker) (d : Directory) (run : TaskRun) (tasks : List Task)
    (notes : List Directory.Note) :
    Leads diff ⟨as ++ .working run tasks (notes.map (·.call)) :: bs, d⟩
      ⟨as ++ .working run tasks [] :: bs, d.notes run.map.id notes⟩ := by
  induction notes generalizing d with
  | nil => exact .refl _
  | cons n notes ih =>
    refine Leads.trans ?_ (ih _)
    have hstep : Leads diff _ _ :=
      .step as bs (.working run tasks (n.call :: notes.map (·.call))) d
    refine hstep.trans ?_
    cases n with
    | placed g => exact .refl _
    | gone g =>
      by_cases hid : run.map.id ∈ d.registrations g
      · have htidy : Leads diff _ _ := .step as bs
          (.working run tasks (.tidy g :: notes.map (·.call))) (d.strike g run.map.id)
        simpa [Worker.step, Directory.Note.call, Directory.act, Directory.note,
          Directory.unregister, hid] using htidy
      · simpa [Worker.step, Directory.Note.call, Directory.act, Directory.note,
          Directory.unregister, hid] using Leads.refl _

theorem Leads.tasks (as bs : List Worker) (d : Directory) (run : TaskRun) (tasks : List Task) :
    Leads diff ⟨as ++ .working run tasks [] :: bs, d⟩
      ⟨as ++ .working (tasks.foldl TaskRun.next run) [] [] :: bs,
        d.notes run.map.id (notesAhead run tasks)⟩ := by
  induction tasks generalizing run d with
  | nil => exact .refl _
  | cons t tasks ih =>
    have hid : (run.next t).map.id = run.map.id := by rw [WorldMap.map_next, WorldMap.id_apply]
    have happly : Leads diff _ _ := .step as bs (.working run (t :: tasks) []) d
    have hcalls : Leads diff _ _ :=
      .calls as bs d (run.next t) tasks (run.map.apply t).notes
    rw [hid] at hcalls
    have hrest := ih (d.notes run.map.id (run.map.apply t).notes) (run.next t)
    rw [hid, ← Directory.notes_append] at hrest
    exact (happly.trans hcalls).trans hrest

theorem Leads.update (as bs : List Worker) (d : Directory) (m : WorldMap) :
    Leads diff ⟨as ++ .waiting m :: bs, d⟩
      ⟨as ++ .finished (m.update diff).1 (m.update diff).2.1 :: bs,
        d.notes m.id (m.update diff).2.2⟩ := by
  rw [WorldMap.update_eq_begin]
  have hbegin : Leads diff _ _ := .step as bs (.waiting m) d
  have htasks : Leads diff _ _ := .tasks as bs d m.begin m.batch
  have hfinish : Leads diff _ _ :=
    .step as bs (.working (m.batch.foldl TaskRun.next m.begin) [] [])
      (d.notes m.id (notesAhead m.begin m.batch))
  exact (hbegin.trans htasks).trans hfinish

theorem Leads.updates (as : List Worker) (d : Directory) (maps : List WorldMap) :
    Leads diff ⟨as ++ maps.map .waiting, d⟩
      ⟨as ++ maps.map fun m => .finished (m.update diff).1 (m.update diff).2.1,
        maps.foldl (fun d m => d.notes (m.update diff).1.id (m.update diff).2.2) d⟩ := by
  induction maps generalizing as d with
  | nil => exact .refl _
  | cons m maps ih =>
    have hfirst : Leads diff _ _ := .update as (maps.map .waiting) d m
    have hrest := ih (as ++ [.finished (m.update diff).1 (m.update diff).2.1])
      (d.notes m.id (m.update diff).2.2)
    rw [List.append_assoc, List.append_assoc] at hrest
    rw [List.foldl_cons, WorldMap.id_update]
    exact hfirst.trans hrest

end Shift

/-! ## Ticks of a world -/

namespace World

variable {w : World}

/-- The tick of a world before its first step. -/
def shift (w : World) : Shift := ⟨w.maps.map .waiting, w.directory⟩

/-- The tick of a world after its last step, if the maps are updated in their order. -/
def ticked (w : World) (diff : Duration) : Shift :=
  ⟨List.zipWith .finished (w.tick diff).2.maps (w.tick diff).1.maps, (w.tick diff).2.directory⟩

theorem leads_ticked (w : World) (diff : Duration) : w.shift.Leads diff (w.ticked diff) := by
  have hall : Shift.Leads diff _ _ := .updates [] w.directory w.maps
  have hticked : w.ticked diff =
      ⟨w.maps.map fun m => .finished (m.update diff).1 (m.update diff).2.1,
        w.maps.foldl (fun d m => d.notes (m.update diff).1.id (m.update diff).2.2)
          w.directory⟩ := by
    simp only [ticked, tick, updateMaps, List.map_map, List.zipWith_map, List.foldl_map]
    simp [List.zipWith_self]
  rw [hticked]
  exact hall

theorem finished_ticked (w : World) (diff : Duration) : (w.ticked diff).Finished := by
  intro x hx
  rw [ticked] at hx
  obtain ⟨i, hi, rfl⟩ := List.mem_iff_getElem.1 hx
  rw [List.getElem_zipWith]
  trivial

/-- However the workers of a tick take turns, in the end the maps, their stats and how often the
directory lists each map are the same: those of a tick that updates the maps in their order. -/
theorem agrees_of_schedules (hw : (w.maps.map (·.id)).Nodup) (diff : Duration) (s s' : List Nat)
    (h : (w.shift.run diff s).Finished) (h' : (w.shift.run diff s').Finished) :
    (w.shift.run diff s).Agrees (w.shift.run diff s') ∧
      (w.shift.run diff s).Agrees (w.ticked diff) := by
  have hd : w.shift.Distinct := by
    rw [Shift.Distinct, shift, List.map_map]
    exact hw
  obtain ⟨order, horder⟩ := w.leads_ticked diff
  have hticked := w.finished_ticked diff
  rw [← horder] at hticked ⊢
  exact ⟨hd.agrees s s' h h', hd.agrees s order h hticked⟩

namespace Handover

def guest : Guid := ⟨.player, 1⟩

def source : WorldMap := (WorldMap.add { id := 0, config := {} } guest (.flat 0 0) .world).map

def target : WorldMap := { id := 1, config := {} }

/-- The guest is to leave one map for the other. -/
def start : World where
  config := {}
  maps := [source.enqueue (.remove guest), target.enqueue (.add guest (.flat 0 0) .world)]
  directory := Directory.register ∅ guest 0

def inOrder : List Nat := [0, 0, 0, 0, 0, 1, 1, 1, 1]

/-- The target registers the guest after the source has struck it and before the source tidies. -/
def mixed : List Nat := [1, 0, 0, 0, 1, 1, 0, 1, 0]

end Handover

/-- Either way the guest is handed over. -/
theorem agrees_handover : (Handover.start.shift.run (.ofMillis 50) Handover.inOrder).Agrees
      (Handover.start.shift.run (.ofMillis 50) Handover.mixed) ∧
    (Handover.start.shift.run (.ofMillis 50) Handover.inOrder).Agrees
      (Handover.start.ticked (.ofMillis 50)) :=
  agrees_of_schedules (by decide +kernel) (.ofMillis 50) Handover.inOrder Handover.mixed
    (by decide +kernel) (by decide +kernel)

end World
end Realm
