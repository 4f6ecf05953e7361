import Mathlib.Data.List.Induction
import Realm.Proofs.World.Leading

/-! # Teleports that one tick works off

In a settled world any calls of teleport give each map tasks that it can accept one after the other:
an object is taken from the map where the call before it led, and led to one where it is not. If one
tick works all of them off, every object is where its last call sent it, and the world is settled
again. -/

namespace Realm.World

variable {w w' w₀ : World} {id target : MapId} {m : WorldMap} {g : Guid} {t : Task} {p : Position}
  {j : Jump} {js done : List Jump} {diff : Duration} {answers : List Bool}

/-- Nothing is under way, and no object is on two maps. -/
structure Settled (w : World) : Prop where
  idle : w.Idle
  free : w.transfers = ∅
  once : ∀ g, (w.holders g).length ≤ 1

/-! ## Calls -/

/-- The calls that are accepted, made one after the other. -/
def accepted (w : World) : List Jump → List Jump
  | [] => []
  | j :: js =>
    if (w.teleport j.guid j.target j.position).isOk then j :: accepted (w.attempt j) js
    else accepted (w.attempt j) js

/-- The last accepted call for an object. -/
def lastJump? (g : Guid) (done : List Jump) : Option Jump := (done.filter (·.guid = g)).getLast?

/-! ## Destinations -/

/-- Where an object is, if it is on a map. -/
def home? (w : World) (g : Guid) : Option (MapId × Spot) :=
  (w.holders g).head?.bind fun id => (w.spot? id g).map fun spot => (id, spot)

/-- A call changes the map and the position of its object and leaves the scope. -/
def Jump.lead (d : MapId × Spot) (j : Jump) : MapId × Spot := (j.target, ⟨d.2.scope, j.position⟩)

/-- Where accepted calls lead an object. -/
def dest (w : World) (done : List Jump) (g : Guid) : Option (MapId × Spot) :=
  (w.home? g).map fun d => (done.filter (·.guid = g)).foldl Jump.lead d

theorem foldl_lead (d : MapId × Spot) (own : List Jump) : own.foldl Jump.lead d =
    match own.getLast? with
    | none => d
    | some j => j.lead d := by
  induction own using List.reverseRecOn generalizing d with
  | nil => rfl
  | append_singleton own j ih =>
    rw [List.foldl_append, ih, List.getLast?_append, List.getLast?_singleton, Option.some_or]
    cases own.getLast? <;> rfl

theorem dest_nil (w : World) (g : Guid) : w.dest [] g = w.home? g := by simp [dest]

theorem dest_append : w.dest (done ++ [j]) g =
    if j.guid = g then (w.dest done g).map j.lead else w.dest done g := by
  unfold dest
  by_cases hg : j.guid = g <;> simp [hg, Function.comp_def]

/-! ## Named objects -/

/-- The queues name no other objects than these. -/
def Names (w : World) (gs : List Guid) : Prop :=
  ∀ m ∈ w.maps, ∀ t ∈ m.queue.toList, t.guid ∈ gs

theorem Names.post {gs : List Guid} (h : w.Names gs) (hp : w.post id t = .ok w')
    (ht : t.guid ∈ gs) : w'.Names gs := by
  obtain ⟨m, hm, rfl⟩ := post_eq_ok hp
  intro m' hm' u hu
  rcases mem_setMap hm' with rfl | hm'
  · have hqueue : (m.enqueue t).queue.toList = m.queue.toList ++ [t] := Array.toList_push
    rw [hqueue, List.mem_append, List.mem_singleton] at hu
    rcases hu with hu | rfl
    · exact h m (mem_of_map? hm) u hu
    · exact ht
  · exact h m' hm' u hu

theorem Names.mono {gs gs' : List Guid} (h : w.Names gs) (hgs : ∀ g ∈ gs, g ∈ gs') :
    w.Names gs' :=
  fun m hm t ht => hgs _ (h m hm t ht)

/-! ## The calls of one round -/

/-- `w` has come from `w₀` by the accepted calls `done`: nothing has moved yet, and the queues lead
every object to its destination. -/
structure Heading (w₀ w : World) (done : List Jump) : Prop where
  mirrored : w.Mirrored
  placement? : ∀ id g, w.placement? id g = w₀.placement? id g
  outlook : ∀ id g, w.outlook? id g = seenOn id (w₀.dest done g)
  smoothly : w.Smoothly
  names : w.Names (done.map (·.guid))
  origin : ∀ {g : Guid} {id : MapId} {s : Scope}, w.origin g = .ok (id, s) →
    ∃ p, w₀.dest done g = some (id, ⟨s, p⟩)
  held : ∀ {g : Guid} {d : MapId × Spot}, w₀.dest done g = some d → d.2.scope.Holds g.kind
  known : ∀ j ∈ done, (w₀.home? j.guid).isSome

theorem Settled.holders_eq (h : w.Settled) (g : Guid) :
    w.holders g = (w.holders g).head?.toList := by
  have honce := h.once g
  generalize w.holders g = ids at honce
  match ids, honce with
  | [], _ => rfl
  | [id], _ => rfl

theorem Settled.spot?_eq (hm : w.Mirrored) (h : w.Settled) (id : MapId) (g : Guid) :
    w.spot? id g = seenOn id (w.home? g) := by
  have hmem (id : MapId) : id ∈ (w.holders g).head?.toList ↔ (w.spot? id g).isSome := by
    rw [← h.holders_eq, mem_holders hm.ids, holds_eq_isSome_spot?]
  rw [home?, seenOn]
  cases hh : (w.holders g).head? with
  | none =>
    rw [hh] at hmem
    simpa using hmem id
  | some home =>
    rw [hh] at hmem
    obtain ⟨spot, hspot⟩ := Option.isSome_iff_exists.1 ((hmem home).1 (by simp))
    simp only [Option.bind_some, hspot, Option.map_some]
    split
    · rename_i he
      rw [← he, hspot]
    · rename_i he
      have := hmem id
      simpa [Ne.symm he] using this

theorem Heading.leads (h : Heading w₀ w done) : w.Leads (w₀.dest done) :=
  ⟨h.mirrored, h.outlook, h.smoothly, h.origin, h.held⟩

theorem Heading.start (hm : w.Mirrored) (h : w.Settled) : Heading w w [] := by
  have hleads : w.Leads (w.dest []) :=
    .of_idle hm h.idle h.free fun id g => by rw [h.spot?_eq hm, dest_nil]
  refine ⟨hm, fun _ _ => rfl, hleads.outlook, hleads.smoothly, fun m hmem t ht => ?_,
    hleads.origin, hleads.held, fun _ hj => nomatch hj⟩
  rw [TaskQueue.isEmpty_iff.1 (h.idle m hmem)] at ht
  exact nomatch ht

theorem Names.teleport {gs : List Guid} (h : w.Names gs)
    (ht : w.teleport j.guid j.target j.position = .ok w') (hg : j.guid ∈ gs) : w'.Names gs := by
  obtain ⟨-, source, s, -, hcase⟩ := teleport_eq_ok ht
  rcases hcase with ⟨-, hpost⟩ | ⟨-, w₁, w₂, hpost₁, hpost₂, rfl⟩
  · exact h.post hpost hg
  · have hboth := (h.post hpost₁ hg).post hpost₂ hg
    exact hboth

/-- An accepted call gives its object a new destination. -/
theorem Heading.teleport (h : Heading w₀ w done)
    (ht : w.teleport j.guid j.target j.position = .ok w') : Heading w₀ w' (done ++ [j]) := by
  obtain ⟨_, _, hred⟩ := teleport_spec ht
  obtain ⟨home, s, q, hq, hleads⟩ := h.leads.teleport ht
  have hdest : Function.update (w₀.dest done) j.guid (some (j.target, ⟨s, j.position⟩)) =
      w₀.dest (done ++ [j]) := by
    funext g
    rw [dest_append, Function.update_apply]
    rcases eq_or_ne g j.guid with rfl | hg
    · rw [if_pos rfl, if_pos rfl, hq]
      rfl
    · rw [if_neg hg, if_neg hg.symm]
  rw [hdest] at hleads
  have hnames : w.Names ((done ++ [j]).map (·.guid)) := h.names.mono fun g hg => by simp [hg]
  refine ⟨hleads.mirrored, fun id g => (hred.placement? id g).trans (h.placement? id g),
    hleads.outlook, hleads.smoothly, hnames.teleport ht (by simp), hleads.origin, hleads.held,
    fun j' hj' => ?_⟩
  rcases List.mem_append.1 hj' with hj' | hj'
  · exact h.known j' hj'
  · obtain rfl := List.mem_singleton.1 hj'
    have hsome : (w₀.dest done j'.guid).isSome := by rw [hq]; rfl
    rwa [dest, Option.isSome_map] at hsome

/-- Calls of teleport lead objects to the destinations that the accepted ones give. -/
theorem Heading.attempts (h : Heading w₀ w done) (js : List Jump) :
    Heading w₀ (js.foldl attempt w) (done ++ w.accepted js) := by
  induction js generalizing w done with
  | nil => rw [accepted, List.append_nil]; exact h
  | cons j js ih =>
    rw [List.foldl_cons, accepted]
    cases ht : w.teleport j.guid j.target j.position with
    | error f =>
      rw [attempt_of_error ht, if_neg (by simp [Except.isOk, Except.toBool])]
      exact ih h
    | ok w' =>
      rw [attempt_of_ok ht, if_pos (by rfl), List.append_cons]
      exact ih (h.teleport ht)

/-! ## The tick -/

theorem Heading.unmoved (h : Heading w₀ w done) (ht : w.Ticks diff answers w')
    (hg : g ∉ done.map (·.guid)) (id : MapId) : w'.placement? id g = w₀.placement? id g := by
  rw [← h.placement?, World.placement?, World.placement?, ht.map?, h.mirrored.map?_tick]
  cases hm : w.map? id with
  | none => rfl
  | some m =>
    have hmem := mem_of_map? hm
    refine ((h.mirrored.indexed hmem).updated diff).others g fun t ht htg => hg ?_
    rw [← htg]
    exact h.names m hmem t (List.mem_of_mem_take ht)

theorem Mirrored.locate?_eq_head? (h : w.Mirrored) (honce : (w.holders g).length ≤ 1) :
    w.directory.locate? g = (w.holders g).head? := by
  cases hl : w.directory.locate? g with
  | none => rw [h.locate?_eq_none.1 hl]; rfl
  | some id =>
    have hmem := h.mem_of_locate? hl
    generalize w.holders g = ids at honce hmem
    match ids, honce with
    | [id'], _ => rw [List.mem_singleton.1 hmem]; rfl

/-! ## One round -/

/-- Every object is where its last call sent it, or where it was. -/
structure Delivered (w w' : World) (done : List Jump) : Prop where
  /-- The object of a call is on the target, at the call's position and with its old scope. -/
  moved : ∀ {g : Guid} {j : Jump}, lastJump? g done = some j → w'.holders g = [j.target] ∧
    ∃ home old new, w.placement? home g = some old ∧ w'.placement? j.target g = some new ∧
      new.position = j.position ∧ new.scope = old.scope
  unmoved : ∀ {g : Guid}, lastJump? g done = none → ∀ id, w'.placement? id g = w.placement? id g
  located : ∀ g, w'.directory.locate? g = (w'.holders g).head?
  settled : w'.Settled

theorem dest_eq (w : World) (done : List Jump) (g : Guid) : w.dest done g =
    match lastJump? g done with
    | none => w.home? g
    | some j => (w.home? g).map j.lead := by
  rw [dest, lastJump?]
  simp only [foldl_lead]
  cases (done.filter (·.guid = g)).getLast? <;> simp

theorem placement?_of_spot? {spot : Spot} (h : w.spot? id g = some spot) :
    ∃ pl, w.placement? id g = some pl ∧ pl.spot = spot := by
  rw [spot?_eq_map] at h
  exact Option.map_eq_some_iff.1 h

theorem Heading.arrive (h : Heading w₀ w done) (hfit : w.Fits) (ht : w.Ticks diff answers w') :
    w₀.Delivered w' done := by
  have hmirrored := (h.mirrored.tick ht).1
  have hholders (g : Guid) : w'.holders g = ((w₀.dest done g).map (·.1)).toList :=
    holders_of_seenOn hmirrored.ids fun id => h.leads.spot? hfit ht id g
  have honce (g : Guid) : (w'.holders g).length ≤ 1 := by
    rw [hholders]
    cases (w₀.dest done g).map (·.1) <;> simp
  have hidle := ht.idle h.mirrored.toSound hfit
  refine ⟨fun {g j} hj => ?_, fun {g} hnone id => h.unmoved ht ?_ id,
    fun g => hmirrored.locate?_eq_head? (honce g), hidle, transfers_tick ht hidle, honce⟩
  · obtain ⟨hmem, hg⟩ := List.mem_filter.1 (List.mem_of_getLast? hj)
    obtain rfl : j.guid = g := of_decide_eq_true hg
    obtain ⟨⟨home, spot⟩, hhome⟩ := Option.isSome_iff_exists.1 (h.known j hmem)
    have hdest : w₀.dest done j.guid = some (j.target, ⟨spot.scope, j.position⟩) := by
      rw [dest_eq, hj, hhome]
      rfl
    obtain ⟨id, -, hid⟩ := Option.bind_eq_some_iff.1 hhome
    obtain ⟨spot', hspot, he⟩ := Option.map_eq_some_iff.1 hid
    cases he
    obtain ⟨old, hold, rfl⟩ := placement?_of_spot? hspot
    have hseen : w'.spot? j.target j.guid = some ⟨old.scope, j.position⟩ := by
      rw [h.leads.spot? hfit ht, hdest]
      simp [seenOn, Placement.spot]
    obtain ⟨new, hnew, hspot'⟩ := placement?_of_spot? hseen
    refine ⟨by rw [hholders, hdest]; rfl, home, old, new, hold, hnew, ?_, ?_⟩
    · exact congrArg Spot.position hspot'
    · exact congrArg Spot.scope hspot'
  · intro hmem
    obtain ⟨j, hj, hg⟩ := List.mem_map.1 hmem
    rw [lastJump?, List.getLast?_eq_none_iff] at hnone
    exact List.ne_nil_of_mem (List.mem_filter.2 ⟨hj, decide_eq_true hg⟩) hnone

/-- Calls of teleport that give no map more tasks than it takes in one update are carried out by
one tick. -/
theorem Settled.delivered {c : Config} (hr : Reachable c w) (h : w.Settled) (js : List Jump)
    (hfit : (js.foldl attempt w).Fits) (ht : (js.foldl attempt w).Ticks diff answers w') :
    (∀ stats ∈ ((js.foldl attempt w).tick diff).1.maps, stats.rejected = 0) ∧
      w.Delivered w' (w.accepted js) := by
  have hheading := (Heading.start hr.mirrored h).attempts js
  rw [List.nil_append] at hheading
  exact ⟨hheading.leads.rejected hfit diff, hheading.arrive hfit ht⟩

namespace Round

def config : Config := { mapIds := [0, 1, 2] }

def rover : Guid := ⟨.player, 1⟩

def start : World :=
  World.enter { config, maps := config.mapIds.map fun id => { id, config := config.maps } } 0 rover
    (.flat 0 0) .world

/-- The third call names a map that the world does not have. -/
def jumps : List Jump :=
  [⟨rover, 1, .flat 0 0⟩, ⟨rover, 2, .flat 0 0⟩, ⟨rover, 7, .flat 0 0⟩, ⟨rover, 2, .flat 100 50⟩]

/-- The jumps that are accepted. -/
def made : List Jump := [⟨rover, 1, .flat 0 0⟩, ⟨rover, 2, .flat 0 0⟩, ⟨rover, 2, .flat 100 50⟩]

def finish : World := ((jumps.foldl attempt start).tick (.ofMillis 50)).2

theorem reachable_start : Reachable config start :=
  (Reachable.new rfl).enter 0 rover (.flat 0 0) .world

theorem settled_start : start.Settled where
  idle := by decide +kernel
  free := by rw [start, transfers_enter]
  once := length_holders_le (by decide +kernel)

end Round

/-- Three calls in a row are carried out by one tick, and the rover ends where the last one leads. -/
theorem rover_delivered :
    Round.start.accepted Round.jumps = Round.made ∧
    (∀ stats ∈ ((Round.jumps.foldl attempt Round.start).tick (.ofMillis 50)).1.maps,
      stats.rejected = 0) ∧
    Round.start.Delivered Round.finish (Round.start.accepted Round.jumps) ∧
    Round.finish.holders Round.rover = [2] ∧
    (Round.finish.placement? 2 Round.rover).map (fun p => (p.position, p.scope)) =
      some (.flat 100 50, .world) := by
  have hheading := (Heading.start Round.reachable_start.mirrored Round.settled_start).attempts
    Round.jumps
  obtain ⟨answers, ht⟩ := hheading.mirrored.ticks (.ofMillis 50)
  obtain ⟨haccepted, hdelivered⟩ := Settled.delivered Round.reachable_start Round.settled_start
    Round.jumps (by decide +kernel) ht
  exact ⟨by decide +kernel, haccepted, hdelivered, by decide +kernel, by decide +kernel⟩

end Realm.World
