import Realm.Proofs.WorldMap.Reach

/-! # What tasks do to an object

A task changes one object and looks at no other, so each object follows the tasks that name it as if
they were alone in the queue. An update takes the first of them and leaves the rest for later. -/

namespace Realm

/-- Where an object is, as far as a task can tell. -/
structure Spot where
  scope : Scope
  position : Position
  deriving DecidableEq, Repr

def Placement.spot (p : Placement) : Spot := ⟨p.scope, p.position⟩

namespace Task

variable {g : Guid} {t : Task} {ts us : List Task} {x : Option Spot}

/-- What becomes of the object of a task, unless the task is refused. -/
def effect (t : Task) (x : Option Spot) : Option (Option Spot) :=
  match t, x with
  | .add g p s, none => if s.Holds g.kind ∧ p.IsValid then some (some ⟨s, p⟩) else none
  | .add .., some _ => none
  | .remove _, some _ => some none
  | .remove _, none => none
  | .relocate _ p, some spot => if p.IsValid then some (some { spot with position := p }) else none
  | .relocate .., none => none

def next (t : Task) (x : Option Spot) : Option Spot := (t.effect x).getD x

/-- Where an object is after tasks, of which some may be refused. -/
def outlook (g : Guid) (x : Option Spot) (ts : List Task) : Option Spot :=
  (ts.filter (·.guid = g)).foldl (fun x t => t.next x) x

/-- No task is refused on account of an object. -/
def Smooth (g : Guid) (x : Option Spot) : List Task → Prop
  | [] => True
  | t :: ts =>
    if t.guid = g then (t.effect x).isSome ∧ Smooth g (t.next x) ts else Smooth g x ts

theorem outlook_cons :
    outlook g x (t :: ts) = outlook g (if t.guid = g then t.next x else x) ts := by
  unfold outlook
  by_cases h : t.guid = g <;> simp [h]

theorem outlook_append : outlook g x (ts ++ us) = outlook g (outlook g x ts) us := by
  simp [outlook]

theorem Smooth.append (h : Smooth g x ts) (h' : Smooth g (outlook g x ts) us) :
    Smooth g x (ts ++ us) := by
  induction ts generalizing x with
  | nil => exact h'
  | cons t ts ih =>
    rw [outlook_cons] at h'
    rw [Smooth] at h
    rw [List.cons_append]
    rw [Smooth]
    split
    · rename_i ht
      rw [if_pos ht] at h h'
      exact ⟨h.1, ih h.2 h'⟩
    · rename_i ht
      rw [if_neg ht] at h h'
      exact ih h h'

end Task

theorem TaskQueue.isEmpty_iff {q : TaskQueue} : q.isEmpty = true ↔ q.toList = [] := by
  simp [toList, isEmpty]

namespace WorldMap

open Realm.Task (outlook Smooth)

variable {m m' : WorldMap} {g : Guid} {t : Task} {ts : List Task} {diff : Duration}

def spot? (m : WorldMap) (g : Guid) : Option Spot := (m.placement? g).map Placement.spot

theorem contains_eq_spot? (m : WorldMap) (g : Guid) : m.contains g = (m.spot? g).isSome := by
  rw [contains_eq_isSome, spot?, Option.isSome_map]

/-! ## One task -/

/-- A task has had its effect on its object, or none if it was refused, and no other effect. -/
structure Obeys (m : WorldMap) (t : Task) (o : Outcome Unit) : Prop where
  queue : o.map.queue = m.queue
  accepted : o.result.isOk = (t.effect (m.spot? t.guid)).isSome
  spot : o.map.spot? t.guid = t.next (m.spot? t.guid)
  others : ∀ g, g ≠ t.guid → o.map.placement? g = m.placement? g

theorem Obeys.refused {f : Fault} (h : t.effect (m.spot? t.guid) = none) :
    m.Obeys t (m.refuse f) := by
  refine ⟨rfl, ?_, ?_, fun g _ => rfl⟩
  · rw [h]; rfl
  · rw [Task.next, h]; rfl

theorem Obeys.becomes {x : Option Placement} {notes : List Directory.Note}
    (h : m.Becomes m' (Function.update m.placement? t.guid x))
    (he : t.effect (m.spot? t.guid) = some (x.map Placement.spot)) :
    m.Obeys t { result := .ok (), map := m', notes } := by
  refine ⟨h.queue, ?_, ?_, fun g hg => ?_⟩
  · rw [he]; rfl
  · rw [Task.next, he, spot?]
    simp only [h.placement?, Function.update_self, Option.getD_some]
  · simp only [h.placement?, Function.update_of_ne hg]

/-- A task is accepted or refused by what is known of its object alone. -/
theorem Indexed.obeys (h : m.Indexed) (t : Task) : m.Obeys t (m.apply t) := by
  cases t with
  | add g p s =>
    by_cases hok : m.placement? g = none ∧ s.Holds g.kind ∧ p.IsValid
    · obtain ⟨hg, hs, hp⟩ := hok
      obtain ⟨l, m', hadd, hbec⟩ := h.add hg hs hp
      rw [apply, hadd]
      refine Obeys.becomes (t := .add g p s) hbec ?_
      simp [Task.effect, Task.guid, spot?, hg, hs, hp, Placement.spot]
    · obtain ⟨f, hf⟩ := add_refused hok
      rw [apply, hf]
      refine Obeys.refused (t := .add g p s) (f := f) ?_
      cases hg : m.placement? g with
      | none =>
        have hno : ¬(s.Holds g.kind ∧ p.IsValid) := fun hr => hok ⟨hg, hr⟩
        simp [Task.effect, Task.guid, spot?, hg, hno]
      | some pl => simp [Task.effect, Task.guid, spot?, hg]
  | remove g =>
    cases hg : m.placement? g with
    | none =>
      obtain ⟨f, hf⟩ := remove_refused hg
      rw [apply, hf]
      refine Obeys.refused (t := .remove g) (f := f) ?_
      simp [Task.effect, Task.guid, spot?, hg]
    | some pl =>
      obtain ⟨m', hrem, hbec⟩ := h.remove hg
      rw [apply, hrem]
      refine Obeys.becomes (t := .remove g) hbec ?_
      simp [Task.effect, Task.guid, spot?, hg]
  | relocate g p =>
    by_cases hok : (m.placement? g).isSome ∧ p.IsValid
    · obtain ⟨hsome, hp⟩ := hok
      obtain ⟨pl, hg⟩ := Option.isSome_iff_exists.1 hsome
      obtain ⟨l, m', hrel, hbec⟩ := h.relocate hg hp
      rw [apply, hrel]
      refine Obeys.becomes (t := .relocate g p) hbec ?_
      simp [Task.effect, Task.guid, spot?, hg, hp, Placement.spot]
    · obtain ⟨f, hf⟩ := relocate_refused hok
      rw [apply, hf]
      refine Obeys.refused (t := .relocate g p) (f := f) ?_
      cases hg : m.placement? g with
      | none => simp [Task.effect, Task.guid, spot?, hg]
      | some pl =>
        have hno : ¬p.IsValid := fun hp => hok ⟨by rw [hg]; rfl, hp⟩
        simp [Task.effect, Task.guid, spot?, hg, hno]

theorem Obeys.spot? {o : Outcome Unit} (h : m.Obeys t o) (g : Guid) :
    o.map.spot? g = if t.guid = g then t.next (m.spot? g) else m.spot? g := by
  split
  · rename_i hg
    rw [← hg]
    exact h.spot
  · rename_i hg
    rw [WorldMap.spot?, h.others g (Ne.symm hg), WorldMap.spot?]

/-! ## Runs of tasks -/

theorem rejected_next (r : TaskRun) (t : Task) : (r.next t).rejected =
    if (r.map.apply t).result.isOk then r.rejected else r.rejected + 1 := by
  rw [TaskRun.next]
  dsimp only
  split
  · rename_i h; rw [h]; rfl
  · rename_i h; rw [h]; rfl

/-- What `ts` make of a run of tasks, object by object. -/
structure TaskRun.Settles (r : TaskRun) (ts : List Task) (r' : TaskRun) : Prop where
  queue : r'.map.queue = r.map.queue
  spot : ∀ g, r'.map.spot? g = outlook g (r.map.spot? g) ts
  others : ∀ g, (∀ t ∈ ts, t.guid ≠ g) → r'.map.placement? g = r.map.placement? g
  rejected : (∀ g, Smooth g (r.map.spot? g) ts) → r'.rejected = r.rejected

variable {r r' : TaskRun}

theorem TaskRun.Settles.nil : r.Settles [] r := ⟨rfl, fun _ => rfl, fun _ _ => rfl, fun _ => rfl⟩

theorem TaskRun.Settles.cons (hr : r.map.Indexed) (h : (r.next t).Settles ts r') :
    r.Settles (t :: ts) r' := by
  have hobey := hr.obeys t
  refine ⟨?_, ?_, ?_, ?_⟩
  · rw [h.queue, map_next, hobey.queue]
  · intro g
    rw [h.spot, map_next, hobey.spot?, Task.outlook_cons]
  · intro g hg
    obtain ⟨ht, hts⟩ := List.forall_mem_cons.1 hg
    rw [h.others g hts, map_next, hobey.others g (Ne.symm ht)]
  · intro hs
    have haccept : (r.map.apply t).result.isOk = true := by
      have hself := hs t.guid
      rw [Smooth, if_pos rfl] at hself
      rw [hobey.accepted, hself.1]
    rw [h.rejected, rejected_next, if_pos haccept]
    intro g
    have hg := hs g
    rw [Smooth] at hg
    rw [map_next, hobey.spot?]
    split
    · rename_i he
      rw [if_pos he] at hg
      exact hg.2
    · rename_i he
      rwa [if_neg he] at hg

/-- Each object follows its own tasks. -/
theorem TaskRun.settles (hr : r.map.Indexed) (ts : List Task) :
    r.Settles ts (ts.foldl TaskRun.next r) := by
  induction ts generalizing r with
  | nil => exact .nil
  | cons t ts ih =>
    refine .cons hr (ih ?_)
    rw [map_next]
    exact (Follows.apply hr t).indexed

/-! ## Updates -/

theorem toList_batch (m : WorldMap) :
    m.batch = m.queue.toList.take m.config.maxTasks.toNat := rfl

theorem toList_restQueue (m : WorldMap) :
    m.restQueue.toList = m.queue.toList.drop m.config.maxTasks.toNat := by
  simp only [restQueue, TaskQueue.popBatch, TaskQueue.toList, Array.drop, Array.toList_extract,
    List.extract_eq_take_drop]
  rw [List.take_of_length_le (by simp)]

theorem batch_append (m : WorldMap) : m.batch ++ m.restQueue.toList = m.queue.toList := by
  rw [toList_batch, toList_restQueue, List.take_append_drop]

/-- A batch that the limit does not split. -/
theorem batch_of_fits (h : m.queue.size ≤ m.config.maxTasks.toNat) :
    m.batch = m.queue.toList ∧ m.restQueue.isEmpty = true := by
  have hlen : m.queue.toList.length ≤ m.config.maxTasks.toNat := h
  rw [toList_batch, TaskQueue.isEmpty_iff, toList_restQueue]
  exact ⟨List.take_of_length_le hlen, List.drop_of_length_le hlen⟩

theorem Keeps.spot? (h : m.Keeps m') : m'.spot? = m.spot? := by
  funext g
  rw [WorldMap.spot?, h.placement?, WorldMap.spot?]

/-- What an update leaves behind, object by object: the first tasks are settled. -/
structure Updated (m : WorldMap) (diff : Duration) : Prop where
  queue : (m.update diff).1.queue = m.restQueue
  spot : ∀ g, (m.update diff).1.spot? g = outlook g (m.spot? g) m.batch
  others : ∀ g, (∀ t ∈ m.batch, t.guid ≠ g) → (m.update diff).1.placement? g = m.placement? g
  rejected : (∀ g, Smooth g (m.spot? g) m.batch) → (m.update diff).2.1.rejected = 0

theorem Indexed.updated (h : m.Indexed) (diff : Duration) : m.Updated diff := by
  have hrun := TaskRun.settles (r := { map := m.requeue m.restQueue }) (h.requeue m.restQueue)
    m.batch
  have hkeep := Keeps.served m diff
  refine ⟨hkeep.queue.trans hrun.queue, fun g => ?_, fun g hg => ?_, fun hsmooth => ?_⟩
  · rw [hkeep.spot?]
    exact hrun.spot g
  · rw [hkeep.placement?]
    exact hrun.others g hg
  · rw [stats_update]
    exact hrun.rejected hsmooth

/-- Where an object is once the queue is worked off. -/
def outlook? (m : WorldMap) (g : Guid) : Option Spot := outlook g (m.spot? g) m.queue.toList

/-- An update changes nothing about where objects will be in the end. -/
theorem Indexed.outlook?_update (h : m.Indexed) (diff : Duration) (g : Guid) :
    (m.update diff).1.outlook? g = m.outlook? g := by
  have hup := h.updated diff
  rw [outlook?, hup.queue, hup.spot, ← Task.outlook_append, batch_append, outlook?]

theorem outlook?_enqueue (m : WorldMap) (t : Task) (g : Guid) : (m.enqueue t).outlook? g =
    if t.guid = g then t.next (m.outlook? g) else m.outlook? g := by
  have hqueue : (m.enqueue t).queue.toList = m.queue.toList ++ [t] := Array.toList_push
  rw [outlook?, hqueue, Task.outlook_append, Task.outlook_cons]
  rfl

theorem outlook?_of_isEmpty (h : m.queue.isEmpty = true) (g : Guid) : m.outlook? g = m.spot? g := by
  rw [outlook?, TaskQueue.isEmpty_iff.1 h]
  rfl

end WorldMap
end Realm
