import Realm.Proofs.World.Leading

/-! # Records of transfers

A teleport between maps leaves a record until a tick has emptied the queue of its target. So the
record is there as long as the addition of the object waits in that queue, and it stays after that
for as long as other tasks keep coming. -/

namespace Realm

/-- The latest teleport of an object from one map to another. -/
structure Passage where
  transfer : Transfer
  /-- How many tasks come before the addition of the object in the queue of the target, until the
  target takes the addition. -/
  ahead : Option Nat
  /-- No tick since the teleport has left the queue of the target empty. -/
  busy : Bool
  deriving DecidableEq, Repr

namespace Passage

/-- The target has not come to the addition. -/
def isWaiting (p : Passage) : Bool := p.ahead.isSome

/-- The target has come to the addition, but it has not come to rest since. -/
def isLate (p : Passage) : Bool := p.busy && !p.isWaiting

/-- A passage after a tick that takes `batch` tasks from a queue and leaves `left` tasks in that of
the target. -/
def afterTick (p : Passage) (batch left : Nat) : Passage :=
  { p with
    ahead := p.ahead.bind fun k => if k < batch then none else some (k - batch)
    busy := p.busy && decide (0 < left) }

/-- The record that a world keeps of a passage. -/
def record? (p : Passage) : Option Transfer := if p.busy then some p.transfer else none

/-- How many objects have a passage of some sort. -/
def tally (sort : Passage → Bool) (ps : GuidTable Passage) : Nat :=
  ps.toList.countP fun e => sort e.2

end Passage

namespace World

variable {w w' w₀ : World} {id id' source target : MapId} {g : Guid} {t : Task} {p : Position}
  {s : Scope} {k : Nat} {diff : Duration} {answers : List Bool} {ps : GuidTable Passage}
  {passage : Passage}

/-! ## Queues -/

/-- The tasks that wait for a map. -/
def queue (w : World) (id : MapId) : List Task :=
  ((w.map? id).map fun m => m.queue.toList).getD []

theorem pending_eq_length (w : World) (id : MapId) : w.pending id = (w.queue id).length := by
  rw [pending, queue]
  cases w.map? id <;> rfl

theorem queue_post (h : w.post id t = .ok w') (id' : MapId) :
    w'.queue id' = if id' = id then w.queue id ++ [t] else w.queue id' := by
  obtain ⟨m, hm, rfl⟩ := post_eq_ok h
  rw [queue, map?_setMap_self hm (m.enqueue t) rfl]
  split
  · rw [queue, hm]
    exact Array.toList_push
  · rfl

theorem getElem?_queue_post (h : w.post id t = .ok w') {t' : Task}
    (hk : (w.queue id')[k]? = some t') : (w'.queue id')[k]? = some t' := by
  rw [queue_post h]
  split
  · rename_i he
    rw [← he, List.getElem?_append_left (List.getElem?_eq_some_iff.1 hk).1, hk]
  · exact hk

/-- How many tasks of a queue an update takes. -/
def batchSize (w : World) : Nat := w.config.maps.maxTasks.toNat

theorem Sound.queue_tick (h : w.Sound) (ht : w.Ticks diff answers w') (id : MapId) :
    w'.queue id = (w.queue id).drop w.batchSize := by
  rw [queue, ht.map?, h.map?_tick, queue]
  cases hm : w.map? id with
  | none => simp
  | some m =>
    have hmem := mem_of_map? hm
    simp only [Option.map_some, Option.getD_some, ((h.indexed hmem).updated diff).queue,
      WorldMap.toList_restQueue, h.config hmem, batchSize]

theorem Ticks.transfers (ht : w.Ticks diff answers w') (g : Guid) :
    w'.transfers[g]? = (w.transfers[g]?).filter fun r => decide (0 < w'.pending r.map) := by
  obtain ⟨d, -, rfl⟩ := ht
  exact Std.ExtTreeMap.getElem?_filter'

/-! ## Courses -/

/-- `w'` has come from `w` by calls of post, teleport and tick, and these are the latest passages of
the objects. -/
inductive Course (w : World) : GuidTable Passage → World → Prop
  | start : Course w ∅ w
  | post {w₁ w₂ : World} {ps : GuidTable Passage} {id : MapId} {t : Task}
      (before : Course w ps w₁) (next : w₁.post id t = .ok w₂) : Course w ps w₂
  | within {w₁ w₂ : World} {ps : GuidTable Passage} {g : Guid} {target : MapId} {s : Scope}
      {p : Position} (before : Course w ps w₁) (from_ : w₁.origin g = .ok (target, s))
      (next : w₁.teleport g target p = .ok w₂) : Course w ps w₂
  | across {w₁ w₂ : World} {ps : GuidTable Passage} {g : Guid} {source target : MapId} {s : Scope}
      {p : Position} (before : Course w ps w₁) (from_ : w₁.origin g = .ok (source, s))
      (ne : source ≠ target) (next : w₁.teleport g target p = .ok w₂) :
      Course w (ps.insert g ⟨⟨target, s⟩, some (w₁.pending target), true⟩) w₂
  | refusedPost {w₁ : World} {ps : GuidTable Passage} {id : MapId} {t : Task} {f : Fault}
      (before : Course w ps w₁) (next : w₁.post id t = .error f) : Course w ps w₁
  | refused {w₁ : World} {ps : GuidTable Passage} {g : Guid} {target : MapId} {p : Position}
      {f : Fault} (before : Course w ps w₁) (next : w₁.teleport g target p = .error f) :
      Course w ps w₁
  | tick {w₁ w₂ : World} {ps : GuidTable Passage} {diff : Duration} {answers : List Bool}
      (before : Course w ps w₁) (next : w₁.Ticks diff answers w₂) :
      Course w (ps.map fun _ p => p.afterTick w₁.batchSize (w₂.pending p.transfer.map)) w₂

/-- The passages tell which records there are, and where additions wait. -/
structure Recorded (w : World) (ps : GuidTable Passage) : Prop where
  mirrored : w.Mirrored
  records : ∀ g : Guid, w.transfers[g]? = ps[g]?.bind Passage.record?
  busy : ∀ {g : Guid} {p : Passage}, ps[g]? = some p → p.isWaiting = true → p.busy = true
  waiting : ∀ {g : Guid} {p : Passage} {k : Nat}, ps[g]? = some p → p.ahead = some k →
    ∃ position, (w.queue p.transfer.map)[k]? = some (.add g position p.transfer.scope)

theorem Recorded.start (h : w.Mirrored) (hfree : w.transfers = ∅) : w.Recorded ∅ where
  mirrored := h
  records g := by rw [hfree]; simp
  busy hg := by simp at hg
  waiting hg := by simp at hg

theorem Recorded.post (h : w.Recorded ps) (hp : w.post id t = .ok w') : w'.Recorded ps where
  mirrored := h.mirrored.post hp
  records g := by rw [transfers_post hp, h.records]
  busy := h.busy
  waiting hg hk := by
    obtain ⟨position, hadd⟩ := h.waiting hg hk
    exact ⟨position, getElem?_queue_post hp hadd⟩

theorem getElem?_insert_passages (g' : Guid) :
    (ps.insert g passage)[g']? = if g' = g then some passage else ps[g']? := by
  rw [Std.ExtTreeMap.getElem?_insert]
  simp only [Std.LawfulEqCmp.compare_eq_iff_eq, eq_comm (a := g')]

/-- The addition of a new passage comes last in the queue of the target. -/
theorem Recorded.across {w₁ w₂ : World} (h : w.Recorded ps) (hne : source ≠ target)
    (hp₁ : w.post source (.remove g) = .ok w₁) (hp₂ : w₁.post target (.add g p s) = .ok w₂) :
    Recorded { w₂ with transfers := w₂.transfers.insert g ⟨target, s⟩ }
      (ps.insert g ⟨⟨target, s⟩, some (w.pending target), true⟩) := by
  have hposted := (h.post hp₁).post hp₂
  refine ⟨hposted.mirrored.setTransfers _, fun g' => ?_, fun {g' p'} hg' => ?_,
    fun {g' p' k} hg' hk => ?_⟩
  · simp only [getElem?_insert_transfers, getElem?_insert_passages]
    split
    · rfl
    · exact hposted.records g'
  · rw [getElem?_insert_passages] at hg'
    split at hg'
    · cases hg'
      exact fun _ => rfl
    · exact hposted.busy hg'
  · rw [getElem?_insert_passages] at hg'
    split at hg'
    · rename_i he
      subst he
      cases hg'
      cases hk
      refine ⟨p, ?_⟩
      have hqueue : w₂.queue target = w.queue target ++ [.add g' p s] := by
        rw [queue_post hp₂, if_pos rfl, queue_post hp₁, if_neg hne.symm]
      change (w₂.queue target)[w.pending target]? = _
      rw [hqueue, pending_eq_length, List.getElem?_concat_length]
    · exact hposted.waiting hg' hk

theorem Recorded.tick (h : w.Recorded ps) (ht : w.Ticks diff answers w') :
    w'.Recorded
      (ps.map fun _ p => p.afterTick w.batchSize (w'.pending p.transfer.map)) := by
  -- where an addition still waits, the queue is not empty
  have hwaiting {g : Guid} {p : Passage} {k : Nat} (hg : ps[g]? = some p)
      (hk : (p.afterTick w.batchSize (w'.pending p.transfer.map)).ahead = some k) :
      ∃ position, (w'.queue p.transfer.map)[k]? = some (.add g position p.transfer.scope) := by
    obtain ⟨j, hj, hk⟩ := Option.bind_eq_some_iff.1 hk
    split at hk
    · cases hk
    · rename_i hle
      cases hk
      obtain ⟨position, hadd⟩ := h.waiting hg hj
      refine ⟨position, ?_⟩
      rw [h.mirrored.toSound.queue_tick ht, List.getElem?_drop,
        Nat.add_sub_cancel' (Nat.le_of_not_lt hle), hadd]
  refine ⟨(h.mirrored.tick ht).1, fun g => ?_, fun {g p'} hg' hw => ?_, fun {g p' k} hg' hk => ?_⟩
  · rw [ht.transfers, h.records, Std.ExtTreeMap.getElem?_map]
    cases ps[g]? with
    | none => rfl
    | some p =>
      simp only [Option.bind_some, Option.map_some, Passage.record?, Passage.afterTick]
      cases p.busy
      · rfl
      · simp [Option.filter]
  · rw [Std.ExtTreeMap.getElem?_map, Option.map_eq_some_iff] at hg'
    obtain ⟨p, hg, rfl⟩ := hg'
    obtain ⟨k, hk⟩ := Option.isSome_iff_exists.1 hw
    obtain ⟨position, hadd⟩ := hwaiting hg hk
    obtain ⟨j, hj, -⟩ := Option.bind_eq_some_iff.1 hk
    have hbusy : p.busy = true := h.busy hg (by rw [Passage.isWaiting, hj]; rfl)
    have hleft : 0 < w'.pending p.transfer.map := by
      rw [pending_eq_length]
      exact Nat.zero_lt_of_lt (List.getElem?_eq_some_iff.1 hadd).1
    rw [Passage.afterTick, hbusy, decide_eq_true hleft]
    rfl
  · rw [Std.ExtTreeMap.getElem?_map, Option.map_eq_some_iff] at hg'
    obtain ⟨q, hg, rfl⟩ := hg'
    exact hwaiting (p := q) hg hk

theorem Course.recorded (h : Course w ps w') (hm : w.Mirrored) (hfree : w.transfers = ∅) :
    w'.Recorded ps := by
  induction h with
  | start => exact .start hm hfree
  | post before next ih => exact ih.post next
  | within before from_ next ih =>
    obtain ⟨-, source, s, ho, ⟨rfl, hp⟩ | ⟨hne, -⟩⟩ := teleport_eq_ok next
    · exact ih.post hp
    · rw [from_] at ho
      cases ho
      exact absurd rfl hne
  | across before from_ ne next ih =>
    obtain ⟨-, source, s, ho, ⟨rfl, -⟩ | ⟨hne, w₁, w₂, hp₁, hp₂, rfl⟩⟩ := teleport_eq_ok next
    · rw [from_] at ho
      cases ho
      exact absurd rfl ne
    · rw [from_] at ho
      cases ho
      exact ih.across hne hp₁ hp₂
  | refusedPost before next ih => exact ih
  | refused before next ih => exact ih
  | tick before next ih => exact ih.tick next

/-! ## How many records there are -/

theorem Recorded.size_transfers (h : w.Recorded ps) :
    w.transfers.size = Passage.tally (·.busy) ps := by
  have hkeys : (ps.toList.filter fun e => e.2.busy).map (·.1) |>.Nodup := by
    refine List.Nodup.sublist (List.filter_sublist.map _) ?_
    rw [Std.ExtTreeMap.map_fst_toList_eq_keys]
    exact Std.ExtTreeMap.nodup_keys
  have hperm : w.transfers.keys.Perm ((ps.toList.filter fun e => e.2.busy).map (·.1)) := by
    refine (List.perm_ext_iff_of_nodup Std.ExtTreeMap.nodup_keys hkeys).2 fun g => ?_
    rw [Std.ExtTreeMap.mem_keys, Std.ExtTreeMap.mem_iff_isSome_getElem?, h.records]
    simp only [List.mem_map, List.mem_filter, Prod.exists, exists_and_right, exists_eq_right,
      Std.ExtTreeMap.mem_toList_iff_getElem?_eq_some]
    cases ps[g]? with
    | none => simp
    | some p => cases hb : p.busy <;> simp [Passage.record?, hb]
  rw [Passage.tally, List.countP_eq_length_filter, ← Std.ExtTreeMap.length_keys, hperm.length_eq,
    List.length_map]

theorem tally_busy (h : ∀ {g : Guid} {p : Passage}, ps[g]? = some p → p.isWaiting = true →
    p.busy = true) : Passage.tally (·.busy) ps =
      Passage.tally Passage.isWaiting ps + Passage.tally Passage.isLate ps := by
  have hmem : ∀ e ∈ ps.toList, e.2.isWaiting = true → e.2.busy = true := fun e he =>
    h (Std.ExtTreeMap.mem_toList_iff_getElem?_eq_some.1 he)
  rw [Passage.tally, List.countP_eq_countP_filter_add _ _ fun e => e.2.isWaiting,
    List.countP_filter, List.countP_filter]
  -- those that are busy and not waiting are the late ones
  refine congrArg (· + Passage.tally Passage.isLate ps) (List.countP_congr fun e he => ?_)
  rw [Bool.and_eq_true, and_iff_right_iff_imp]
  exact hmem e he

/-- What the records of a world tell about the latest passages of its objects. -/
structure Accounted (w : World) (ps : GuidTable Passage) : Prop where
  /-- Where the addition of an object waits. -/
  waiting : ∀ {g : Guid} {p : Passage} {k : Nat}, ps[g]? = some p → p.ahead = some k →
    ∃ position, (w.queue p.transfer.map)[k]? = some (.add g position p.transfer.scope)
  /-- Until then there is a record, and it names the target. -/
  kept : ∀ {g : Guid} {p : Passage}, ps[g]? = some p → p.isWaiting = true →
    w.transfers[g]? = some p.transfer
  /-- There is a record until a tick has left the queue of the target empty. -/
  records : ∀ g : Guid, w.transfers[g]? = ps[g]?.bind Passage.record?
  size : w.transfers.size = Passage.tally Passage.isWaiting ps + Passage.tally Passage.isLate ps
  exact_iff : w.transfers.size = Passage.tally Passage.isWaiting ps ↔
    ∀ (g : Guid) (p : Passage), ps[g]? = some p → p.isLate = false
  /-- The next teleport is routed by the record for just as long. -/
  routed : ∀ {g : Guid} {p : Passage}, ps[g]? = some p → p.busy = true →
    w.origin g = .ok (p.transfer.map, p.transfer.scope)

theorem Accounted.of_recorded (h : w.Recorded ps) : w.Accounted ps := by
  have hsize := h.size_transfers.trans (tally_busy h.busy)
  have hkept {g : Guid} {p : Passage} (hg : ps[g]? = some p) (hb : p.busy = true) :
      w.transfers[g]? = some p.transfer := by
    rw [h.records, hg, Option.bind_some, Passage.record?, if_pos hb]
  refine ⟨h.waiting, fun hg hw => hkept hg (h.busy hg hw), h.records, hsize, ?_,
    fun hg hb => ?_⟩
  · rw [hsize, Nat.add_eq_left, Passage.tally, List.countP_eq_zero]
    simp only [Prod.forall, Std.ExtTreeMap.mem_toList_iff_getElem?_eq_some, Bool.not_eq_true]
  · rw [origin_eq, hkept hg hb]

/-- After any calls of post, teleport and tick, the records are those of the passages whose
additions wait and of those that are late. -/
theorem Course.accounted {c : Config} (hr : Reachable c w) (hfree : w.transfers = ∅)
    (h : Course w ps w') : w'.Accounted ps :=
  .of_recorded (h.recorded hr.mirrored hfree)

/-! ## A queue that does not come to rest

Map 1 takes the addition of the guest in its first tick, and a task that was posted meanwhile
removes the guest again. A third task is more than the tick takes, so the record stays. -/

/-- A post that is refused changes nothing. -/
def offer (w : World) (id : MapId) (t : Task) : World :=
  match w.post id t with
  | .ok w => w
  | .error _ => w

theorem Course.offer (h : Course w ps w') (id : MapId) (t : Task) :
    Course w ps (w'.offer id t) := by
  rw [World.offer]
  split
  · rename_i hp; exact h.post hp
  · exact h

theorem Course.attempt (h : Course w ps w') (j : Jump) (source : MapId)
    (ho : w'.origin j.guid = .ok (source, s)) (hne : source ≠ j.target)
    (ht : (w'.teleport j.guid j.target j.position).isOk = true) :
    Course w (ps.insert j.guid ⟨⟨j.target, s⟩, some (w'.pending j.target), true⟩)
      (w'.attempt j) :=
  h.across ho hne (teleport_attempt ht)

theorem Course.beat (h : Course w ps w') (hm : w'.Mirrored) (diff : Duration) :
    Course w
      (ps.map fun _ p => p.afterTick w'.batchSize ((w'.tick diff).2.pending p.transfer.map))
      (w'.tick diff).2 := by
  obtain ⟨answers, ht⟩ := hm.ticks diff
  exact h.tick ht

namespace Lingering

def config : Config := { mapIds := [0, 1], maps := { maxTasks := 2 } }

def guest : Guid := ⟨.creature, 1⟩

def other : Guid := ⟨.creature, 2⟩

def spawn : Position := .flat 0 0

def empty : World := { config, maps := config.mapIds.map fun id => { id, config := config.maps } }

def start : World := empty.enter 0 guest spawn .grid

def sent : World :=
  ((start.attempt ⟨guest, 1, spawn⟩).offer 1 (.remove guest)).offer 1 (.add other spawn .grid)

def finish : World := (sent.tick (.ofMillis 50)).2

/-- The guest is on its way to map 1. -/
def underWay : GuidTable Passage :=
  (∅ : GuidTable Passage).insert guest ⟨⟨1, .grid⟩, some (start.pending 1), true⟩

/-- Map 1 has come to the addition. -/
def passages : GuidTable Passage :=
  underWay.map fun _ p => p.afterTick sent.batchSize (finish.pending p.transfer.map)

theorem reachable_start : Reachable config start :=
  (Reachable.new (c := config) (w := empty) rfl).enter 0 guest spawn .grid

theorem transfers_start : start.transfers = ∅ := by
  rw [start, transfers_enter]
  rfl

theorem course : Course start passages finish := by
  have hattempt : Course start underWay (start.attempt ⟨guest, 1, spawn⟩) :=
    Course.start.attempt (s := .grid) ⟨guest, 1, spawn⟩ 0 (by decide +kernel) (by decide)
      (by decide +kernel)
  have hsent : Course start underWay sent := (hattempt.offer 1 _).offer 1 _
  exact hsent.beat (hsent.recorded reachable_start.mirrored transfers_start).mirrored _

end Lingering

/-- The guest is on no map and no addition waits, yet there is a record of a transfer, and a
teleport takes the guest from map 1. -/
theorem record_outlives_transfer : Reachable Lingering.config Lingering.start ∧
    Lingering.start.transfers = ∅ ∧
    Course Lingering.start Lingering.passages Lingering.finish ∧
    Passage.tally Passage.isWaiting Lingering.passages = 0 ∧
    Lingering.finish.transfers.size = 1 ∧ Lingering.finish.holders Lingering.guest = [] ∧
    Lingering.finish.directory.locate? Lingering.guest = none ∧
    (Lingering.finish.teleport Lingering.guest 0 Lingering.spawn).isOk :=
  ⟨Lingering.reachable_start, Lingering.transfers_start, Lingering.course, by decide +kernel,
    by decide +kernel, by decide +kernel, by decide +kernel, by decide +kernel⟩

/-- The passage of the guest is late. -/
theorem guest_accounted : Lingering.finish.Accounted Lingering.passages :=
  Course.accounted Lingering.reachable_start Lingering.transfers_start Lingering.course

end World
end Realm
