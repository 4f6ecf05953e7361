import Realm.Proofs.World.Outlook

/-! # Teleports and ticks in any order

A teleport takes its object from the map that it believes to hold it. If that is the map where the
teleport before it led, the object moves on; if not, the map that the object was left on keeps it.
What the maps hold in the end is known from the origins and targets alone. -/

namespace Realm.World

variable {w w' w₀ : World} {id source target home : MapId} {g : Guid} {p : Position} {s : Scope}
  {diff : Duration} {answers : List Bool} {held : List MapId}

/-! ## Legs -/

/-- A teleport that was accepted. -/
structure Leg where
  guid : Guid
  source : MapId
  target : MapId
  deriving DecidableEq, Repr

/-- The maps that hold the object of a leg once its tasks are done. -/
def Leg.move (held : List MapId) (l : Leg) : List MapId :=
  if l.source = l.target then held else (held.erase l.source).insert l.target

/-- The maps that hold an object once the tasks of all legs are done. -/
def trail (g : Guid) (held : List MapId) (legs : List Leg) : List MapId :=
  (legs.filter (·.guid = g)).foldl Leg.move held

theorem trail_append {legs legs' : List Leg} :
    trail g held (legs ++ legs') = trail g (trail g held legs) legs' := by
  simp [trail]

theorem trail_single (l : Leg) :
    trail g held [l] = if l.guid = g then l.move held else held := by
  rw [trail]
  by_cases h : l.guid = g <;> simp [h]

theorem Leg.nodup_move (h : held.Nodup) (l : Leg) : (l.move held).Nodup := by
  rw [move]
  split
  · exact h
  · exact (h.erase l.source).insert

theorem Leg.mem_move (h : held.Nodup) {l : Leg} : id ∈ l.move held ↔
    if l.source = l.target then id ∈ held
    else if id = l.target then True else if id = l.source then False else id ∈ held := by
  rw [move]
  split
  · rfl
  · rw [List.mem_insert_iff, h.mem_erase_iff]
    split
    · rename_i he; simp [he]
    · rename_i he
      split
      · rename_i hs
        subst hs
        simp [he]
      · rename_i hs
        simp [hs, he]

/-- A teleport leads its object to the maps that the leg tells. -/
theorem isSome_redirect {outlook : MapId → Option Spot} (hn : held.Nodup)
    (h : ∀ id, (outlook id).isSome ↔ id ∈ held) (hs : s.Holds g.kind) (hp : p.IsValid)
    (id : MapId) :
    (redirect g source target p s outlook id).isSome ↔ id ∈ Leg.move held ⟨g, source, target⟩ := by
  rw [Leg.mem_move hn, redirect]
  split
  · split
    · rw [Task.isSome_next_relocate, h]
    · exact h id
  · split
    · simp [Task.isSome_next_add hs hp]
    · split
      · simp
      · exact h id

theorem trail_ne_nil {legs : List Leg} (h : held ≠ []) : trail g held legs ≠ [] := by
  rw [trail]
  induction legs.filter (·.guid = g) generalizing held with
  | nil => exact h
  | cons l ls ih =>
    refine ih ?_
    rw [Leg.move]
    split
    · exact h
    · exact List.ne_nil_of_mem List.mem_insert_self

/-- Every leg starts where the one before it ended. -/
def Chained (home : MapId) : List Leg → Prop
  | [] => True
  | l :: ls => l.source = home ∧ Chained l.target ls

theorem trail_of_chained {legs : List Leg} (h : Chained home (legs.filter (·.guid = g))) :
    (trail g [home] legs).length = 1 := by
  rw [trail]
  generalize legs.filter (·.guid = g) = own at h ⊢
  induction own generalizing home with
  | nil => rfl
  | cons l ls ih =>
    obtain ⟨rfl, hls⟩ := h
    have hmove : l.move [l.source] = [l.target] := by
      rw [Leg.move]
      split
      · rename_i he; rw [he]
      · simp
    rw [List.foldl_cons, hmove]
    exact ih hls

/-! ## Journeys -/

/-- `w'` has come from `w` by calls of teleport and tick, and these teleports were accepted. -/
inductive Journey (w : World) : List Leg → World → Prop
  | start : Journey w [] w
  | teleport {w₁ w₂ : World} {legs : List Leg} {g : Guid} {source target : MapId} {s : Scope}
      {p : Position} (before : Journey w legs w₁) (from_ : w₁.origin g = .ok (source, s))
      (next : w₁.teleport g target p = .ok w₂) : Journey w (legs ++ [⟨g, source, target⟩]) w₂
  | refused {w₁ : World} {legs : List Leg} {g : Guid} {target : MapId} {p : Position} {f : Fault}
      (before : Journey w legs w₁) (next : w₁.teleport g target p = .error f) : Journey w legs w₁
  | tick {w₁ w₂ : World} {legs : List Leg} {diff : Duration} {answers : List Bool}
      (before : Journey w legs w₁) (next : w₁.Ticks diff answers w₂) : Journey w legs w₂

/-- Objects are on their way to the maps that `held` names, with scopes that suit them. -/
structure Bound (w : World) (held : Guid → List MapId) : Prop where
  mirrored : w.Mirrored
  scopes : ∀ {g : Guid} {r : Transfer}, w.transfers[g]? = some r → r.scope.Holds g.kind
  nodup : ∀ g, (held g).Nodup
  outlook : ∀ id g, (w.outlook? id g).isSome ↔ id ∈ held g

/-- The scope that a teleport carries along suits the object. -/
theorem Bound.origin_holds {held : Guid → List MapId} (h : w.Bound held)
    (ho : w.origin g = .ok (source, s)) : s.Holds g.kind := by
  rw [origin_eq] at ho
  cases ht : w.transfers[g]? with
  | some r =>
    rw [ht] at ho
    cases ho
    exact h.scopes ht
  | none =>
    rw [ht] at ho
    cases hl : w.directory.locate? g with
    | none => rw [hl] at ho; exact nomatch ho
    | some id =>
      rw [hl] at ho
      obtain ⟨pl, hpl⟩ := h.mirrored.placement?_of_locate? hl
      simp only [hpl] at ho
      cases ho
      exact h.mirrored.held hpl

theorem Bound.start (h : w.Mirrored) (hidle : w.Idle) (hfree : w.transfers = ∅) :
    w.Bound w.holders where
  mirrored := h
  scopes hr := by rw [hfree] at hr; simp at hr
  nodup _ := nodup_holders h.ids
  outlook id g := by rw [hidle.outlook?, ← holds_eq_isSome_spot?, mem_holders h.ids]

theorem Bound.teleport {held : Guid → List MapId} (h : w.Bound held)
    (ho : w.origin g = .ok (source, s)) (ht : w.teleport g target p = .ok w') :
    w'.Bound fun g' => trail g' (held g') [⟨g, source, target⟩] := by
  obtain ⟨source', s', hred⟩ := teleport_spec ht
  have ho' := hred.origin
  rw [ho] at ho'
  cases ho'
  have hs := h.origin_holds ho
  refine ⟨h.mirrored.teleport ht, ?_, ?_, ?_⟩
  · intro g' r hr
    rcases eq_or_ne g' g with rfl | hg
    · rw [hred.transfer] at hr
      split at hr
      · exact h.scopes hr
      · cases hr; exact hs
    · rw [hred.transfers g' hg] at hr
      exact h.scopes hr
  · intro g'
    rw [trail_single]
    split
    · exact Leg.nodup_move (h.nodup g') _
    · exact h.nodup g'
  · intro id g'
    rw [trail_single]
    rcases eq_or_ne g g' with rfl | hg
    · rw [if_pos rfl, hred.outlook]
      exact isSome_redirect (h.nodup g) (fun id => h.outlook id g) hs hred.valid id
    · rw [if_neg hg, hred.others id g' hg.symm, h.outlook]

theorem Bound.tick {held : Guid → List MapId} (h : w.Bound held) (ht : w.Ticks diff answers w') :
    w'.Bound held where
  mirrored := (h.mirrored.tick ht).1
  scopes hr := by
    obtain ⟨d, -, rfl⟩ := ht
    refine h.scopes ?_
    simp only [World.tick, Std.ExtTreeMap.getElem?_filter'] at hr
    exact (Option.filter_eq_some_iff.1 hr).1
  nodup := h.nodup
  outlook id g := by rw [ht.outlook? h.mirrored.toSound, h.outlook]

/-- Every call of a journey keeps objects on the way that the legs tell. -/
theorem Journey.bound {legs : List Leg} (h : w₀.Bound w₀.holders) (hj : Journey w₀ legs w) :
    w.Bound fun g => trail g (w₀.holders g) legs := by
  induction hj with
  | start => exact h
  | teleport before from_ next ih =>
    simp only [trail_append]
    exact ih.teleport from_ next
  | refused _ _ ih => exact ih
  | tick _ next ih => exact ih.tick next

/-- When all tasks are done, the maps that hold an object are those of its trail. It is never lost,
and it is on one map exactly if its trail ends on one, as it does if every leg starts where the one
before it ended. -/
theorem Journey.holders {c : Config} {legs : List Leg} (hr : Reachable c w) (hidle : w.Idle)
    (hfree : w.transfers = ∅) (hj : Journey w legs w') (hend : w'.Idle)
    (hg : w.holders g = [home]) :
    (w'.holders g).Perm (trail g [home] legs) ∧ w'.holders g ≠ [] ∧
      ((∃ id, w'.holders g = [id]) ↔ (trail g [home] legs).length = 1) ∧
      (Chained home (legs.filter (·.guid = g)) → ∃ id, w'.holders g = [id]) := by
  have hbound := hj.bound (.start hr.mirrored hidle hfree)
  have hids := hbound.mirrored.ids
  have hperm : (w'.holders g).Perm (trail g [home] legs) := by
    rw [← hg]
    refine (List.perm_ext_iff_of_nodup (nodup_holders hids) (hbound.nodup g)).2 fun id => ?_
    rw [mem_holders hids, holds_eq_isSome_spot?, ← hend.outlook?, hbound.outlook]
  have hone : (∃ id, w'.holders g = [id]) ↔ (trail g [home] legs).length = 1 := by
    rw [← hperm.length_eq, List.length_eq_one_iff]
  refine ⟨hperm, fun hnil => ?_, hone, fun hc => hone.2 (trail_of_chained hc)⟩
  rw [hnil] at hperm
  exact trail_ne_nil (by simp) (List.Perm.nil_eq hperm).symm

/-! ## A backlog that hides a leg

The record of a transfer goes when the queue of its target is empty, even while a map on the way has
tasks left for the object. When that map comes to them it registers the object last, and the next
teleport takes it for the origin. -/

theorem Journey.reachable {c : Config} {legs : List Leg} (hr : Reachable c w)
    (hj : Journey w legs w') : Reachable c w' := by
  induction hj with
  | start => exact hr
  | teleport _ _ next ih => exact ih.step (.teleport next)
  | refused _ _ ih => exact ih
  | tick _ next ih => exact ih.step (.tick next)

theorem Journey.beat {c : Config} {legs : List Leg} (hr : Reachable c w) (hj : Journey w legs w')
    (diff : Duration) : Journey w legs (w'.tick diff).2 := by
  obtain ⟨answers, ht⟩ := (hj.reachable hr).mirrored.ticks diff
  exact hj.tick ht

theorem Journey.attempt {legs : List Leg} (hj : Journey w legs w') (j : Jump) (source : MapId)
    (ho : w'.origin j.guid = .ok (source, s))
    (ht : (w'.teleport j.guid j.target j.position).isOk = true) :
    Journey w (legs ++ [⟨j.guid, source, j.target⟩]) (w'.attempt j) :=
  hj.teleport ho (teleport_attempt ht)

namespace Backlog

def config : Config := { mapIds := [0, 1, 2, 3], maps := { maxTasks := 1 } }

def filler : Guid := ⟨.creature, 1⟩

def guest : Guid := ⟨.creature, 2⟩

def spawn : Position := .flat 0 0

def empty : World := { config, maps := config.mapIds.map fun id => { id, config := config.maps } }

def start : World := (empty.enter 3 filler spawn .grid).enter 0 guest spawn .grid

def pause : Duration := .ofMillis 50

/-- The task for the filler comes first on map 1, so that map 2 takes the guest in before map 1 has
done anything for it. -/
def sent : World :=
  ((start.attempt ⟨filler, 1, spawn⟩).attempt ⟨guest, 1, spawn⟩).attempt ⟨guest, 2, spawn⟩

/-- Map 1 has added the guest and not yet removed it. -/
def between : World := ((sent.tick pause).2.tick pause).2

def finish : World := (((between.attempt ⟨guest, 3, spawn⟩).tick pause).2.tick pause).2

def legs : List Leg := [⟨filler, 3, 1⟩, ⟨guest, 0, 1⟩, ⟨guest, 1, 2⟩, ⟨guest, 1, 3⟩]

theorem reachable_start : Reachable config start :=
  ((Reachable.new (c := config) (w := empty) rfl).enter 3 filler spawn .grid).enter 0 guest spawn
    .grid

theorem transfers_start : start.transfers = ∅ := by
  rw [start, transfers_enter, transfers_enter]
  rfl

theorem journey : Journey start legs finish := by
  have hfiller : Journey start [⟨filler, 3, 1⟩] (start.attempt ⟨filler, 1, spawn⟩) :=
    Journey.start.attempt (s := .grid) ⟨filler, 1, spawn⟩ 3 (by decide +kernel)
      (by decide +kernel)
  have hfirst := hfiller.attempt (s := .grid) ⟨guest, 1, spawn⟩ 0
    (by decide +kernel) (by decide +kernel)
  have hsent : Journey start _ sent :=
    hfirst.attempt (s := .grid) ⟨guest, 2, spawn⟩ 1 (by decide +kernel)
      (by decide +kernel)
  have hbetween : Journey start _ between :=
    (hsent.beat reachable_start pause).beat reachable_start pause
  have hlast := hbetween.attempt (s := .grid) ⟨guest, 3, spawn⟩ 1
    (by decide +kernel) (by decide +kernel)
  exact (hlast.beat reachable_start pause).beat reachable_start pause

end Backlog

/-- A guest that was on one map ends on two, though every call was accepted and all tasks are
done. -/
theorem guest_on_two_maps : Reachable Backlog.config Backlog.start ∧ Backlog.start.Idle ∧
    Backlog.start.transfers = ∅ ∧ (∀ g, (Backlog.start.holders g).length ≤ 1) ∧
    Journey Backlog.start Backlog.legs Backlog.finish ∧ Backlog.finish.Idle ∧
    Backlog.start.holders Backlog.guest = [0] ∧ Backlog.finish.holders Backlog.guest = [2, 3] :=
  ⟨Backlog.reachable_start, by decide +kernel, Backlog.transfers_start,
    length_holders_le (by decide +kernel), Backlog.journey, by decide +kernel, by decide +kernel,
    by decide +kernel⟩

/-- The trail of the guest ends on both maps. -/
theorem trail_of_guest : (Backlog.finish.holders Backlog.guest).Perm
      (trail Backlog.guest [0] Backlog.legs) ∧ Backlog.finish.holders Backlog.guest ≠ [] ∧
    ((∃ id, Backlog.finish.holders Backlog.guest = [id]) ↔
      (trail Backlog.guest [0] Backlog.legs).length = 1) ∧
    (Chained 0 (Backlog.legs.filter (·.guid = Backlog.guest)) →
      ∃ id, Backlog.finish.holders Backlog.guest = [id]) :=
  Journey.holders Backlog.reachable_start (by decide +kernel) Backlog.transfers_start
    Backlog.journey (by decide +kernel) (by decide +kernel)

end Realm.World
