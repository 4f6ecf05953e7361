import Realm.Proofs.Random.Draw
import Realm.Proofs.World.Whereabouts
import Realm.Proofs.WorldMap.Consistency

/-! # Tours of a population

From its spawning on, a population is where its books have it after every tick, whatever numbers
are drawn and however rounds and ticks take turns. -/

namespace Realm

open Binary (Between)

namespace Population

variable {c : Config} {count : UInt64} {population : Population} {w w' : World}
  {statics walkers people : List Walker} {diff : Duration} {answers : List Bool}

/-! ## Draws -/

/-- A position that can be drawn for a new object. -/
structure Appears (p : Position) : Prop where
  x : Between (-spread) p.x spread
  y : Between (-spread) p.y spread
  z : Between 0 p.z 100
  orientation : Between 0 p.orientation fullTurn

instance (p : Position) : Decidable (Appears p) :=
  decidable_of_iff (Between (-spread) p.x spread ∧ Between (-spread) p.y spread ∧
    Between 0 p.z 100 ∧ Between 0 p.orientation fullTurn)
    ⟨fun ⟨hx, hy, hz, ho⟩ => ⟨hx, hy, hz, ho⟩, fun h => ⟨h.x, h.y, h.z, h.orientation⟩⟩

theorem Appears.isValid (h : Appears p) : p.IsValid := by
  have hlow : -Geometry.bound ≤ -spread := by decide +kernel
  have hhigh : spread ≤ Geometry.bound := by decide +kernel
  have honMap {c : Single} (hc : Between (-spread) c spread) : Geometry.OnMap c :=
    .of_between ⟨Binary.le_trans hlow hc.low, Binary.le_trans hc.high hhigh, by decide +kernel,
      by decide +kernel⟩
  exact ⟨⟨⟨honMap h.x, honMap h.y⟩, h.z.isFinite⟩, h.orientation.isFinite⟩

theorem appears_drawPosition (s : KeyStream) : Appears (drawPosition s).1 := by
  have hplane : KeyStream.Spans (-spread) spread := by decide +kernel
  have hheight : KeyStream.Spans 0 100 := by decide +kernel
  have hturn : KeyStream.Spans 0 fullTurn := by decide +kernel
  exact ⟨hplane.nextSingle _, hplane.nextSingle _, hheight.nextSingle _, hturn.nextSingle _⟩

theorem drawPositions_spec (n : Nat) (s : KeyStream) :
    (drawPositions n s).1.length = n ∧ ∀ p ∈ (drawPositions n s).1, Appears p := by
  induction n generalizing s with
  | zero => exact ⟨rfl, fun _ hp => absurd hp List.not_mem_nil⟩
  | succ n ih =>
    obtain ⟨hlen, hall⟩ := ih (drawPosition s).2
    refine ⟨congrArg (· + 1) hlen, List.forall_mem_cons.2 ⟨appears_drawPosition s, hall⟩⟩

theorem isStep_drawPlan (mapIds : List MapId) (chance : Double) (k : Kind) (s : KeyStream) :
    (drawPlan mapIds chance k s).1.IsStep := by
  have hstride : KeyStream.Spans (-stride) stride := by decide +kernel
  have hx := hstride.nextSingle s
  have hy := hstride.nextSingle (s.nextSingle (-stride) stride).2
  rw [drawPlan]
  dsimp only
  split
  · split <;> exact ⟨hx, hy⟩
  · exact ⟨hx, hy⟩

/-! ## Tours -/

/-- The members of a population that stand still. -/
def sitters (mapIds : List MapId) (positions : List Position) : List Walker :=
  (members mapIds 0 positions).filter fun m => !walks m.guid.kind

/-- What a population, its members that stand still and its world can come to. Its members may have
appeared at any positions that can be drawn. A walker may take any step that can be drawn, and may
want to jump to any map. No tick meets a queue that is longer than one update works off. -/
inductive Tour (c : Config) (count : UInt64) : Population → List Walker → World → Prop
  | start {w w' : World} {positions : List Position} {random : KeyStream}
      {population : Population} (hw : World.ofConfig c = .ok w)
      (hlen : positions.length = count.toNat) (happears : ∀ p ∈ positions, Appears p)
      (hp : populate w positions random = .ok (population, w')) :
      Tour c count population (sitters c.mapIds positions) w'
  | setChance {population : Population} {statics : List Walker} {w : World} (chance : Double)
      (h : Tour c count population statics w) :
      Tour c count (population.setChance chance) statics w
  | roam {population next : Population} {statics : List Walker} {w w' : World} {jumps : Nat}
      {draw : Walker → KeyStream → Plan × KeyStream} (h : Tour c count population statics w)
      (hdraw : ∀ walker s, (draw walker s).1.IsStep)
      (hr : population.roamBy draw w = (.ok jumps, next, w')) : Tour c count next statics w'
  | tick {population : Population} {statics : List Walker} {w w' : World} {diff : Duration}
      {answers : List Bool} (h : Tour c count population statics w) (hfit : w.Fits)
      (ht : w.Ticks diff answers w') : Tour c count population statics w'

/-- The queues of the world lead the walkers and the others to where the books have them. -/
structure Tracked (w : World) (population : Population) (statics : List Walker) (count : Nat) :
    Prop where
  leads : w.Leads (whereabouts (population.walkers ++ statics))
  distinct : ((population.walkers ++ statics).map (·.guid)).Nodup
  valid : ∀ p ∈ population.walkers, p.position.IsValid
  length : (population.walkers ++ statics).length = count
  others : population.statics = statics.length

theorem populate_eq_ok {positions : List Position} {all : List Walker}
    (h : settle w.config.mapIds 0 positions w = .ok (all, w')) (random : KeyStream) :
    populate w positions random = .ok
      ({ random
         walkers := all.filter fun m => walks m.guid.kind
         statics := all.length - (all.filter fun m => walks m.guid.kind).length
         chance := defaultChance }, w') := by
  rw [populate]
  simp only [h, bind, Except.bind, pure, Except.pure]

/-- A population appears. -/
theorem populate_spec {positions : List Position} (hw : World.ofConfig c = .ok w)
    (hlen : positions.length = count.toNat) (happears : ∀ p ∈ positions, Appears p)
    (random : KeyStream) :
    ∃ population w', populate w positions random = .ok (population, w') ∧
      Tracked w' population (sitters c.mapIds positions) count.toNat := by
  have hleads : w.Leads (whereabouts []) := .new hw
  obtain ⟨hv, rfl⟩ := World.ofConfig_eq_ok hw
  have hcount : 0 + positions.length ≤ UInt64.size := by
    have hlt := count.toNat_lt
    rw [hlen, Nat.zero_add]
    exact Nat.le_of_lt hlt
  have hmaps : ∀ id ∈ c.mapIds, (World.map?
      { config := c, maps := c.mapIds.map fun id => { id, config := c.maps } } id).isSome := by
    intro id hid
    rw [World.map?, List.find?_isSome]
    exact ⟨_, List.mem_map_of_mem hid, decide_eq_true rfl⟩
  obtain ⟨w', hsettle, hleads'⟩ := settle_eq_ok hleads (List.forall_mem_nil _) hcount
    (fun p hp => (happears p hp).isValid) (World.validate_eq_ok hv).1 hmaps
  have hn := nodup_members c.mapIds positions hcount
  have hperm := List.filter_append_perm (fun m : Walker => walks m.guid.kind)
    (members c.mapIds 0 positions)
  refine ⟨_, w', populate_eq_ok hsettle random, ?_, ?_, ?_, ?_, ?_⟩
  · rw [sitters, ← whereabouts_perm hn hperm.symm]
    exact hleads'
  · exact (hperm.map _).nodup_iff.2 hn
  · intro p hp
    exact (happears _ (position_mem_of_members (List.mem_filter.1 hp).1)).isValid
  · rw [sitters, hperm.length_eq, length_members, hlen]
  · have hlength := hperm.length_eq
    rw [List.length_append] at hlength
    refine Nat.sub_eq_of_eq_add ?_
    rw [← hlength, Nat.add_comm, sitters]

/-- A round succeeds, however the plans are drawn. -/
theorem Tracked.roamBy (h : Tracked w population statics count.toNat)
    {draw : Walker → KeyStream → Plan × KeyStream}
    (hdraw : ∀ walker s, (draw walker s).1.IsStep) :
    ∃ jumps next w', population.roamBy draw w = (.ok jumps, next, w') ∧
      Tracked w' next statics count.toNat := by
  have hn : ((([] : List Walker) ++ population.walkers).map (·.guid)).Nodup := by
    have hall := h.distinct
    rw [List.map_append] at hall
    exact (List.nodup_append.1 hall).1
  obtain ⟨jumps, moved, random, w', hr, hguids, hvalid, hleads⟩ :=
    roamAll_eq_ok hdraw h.leads hn h.valid population.random
  refine ⟨jumps, { population with random, walkers := moved }, w', ?_, hleads, ?_, hvalid, ?_,
    h.others⟩
  · rw [Population.roamBy, hr]
  · rw [List.map_append, hguids, ← List.map_append]
    exact h.distinct
  · have hlength := congrArg List.length hguids
    rw [List.length_map, List.length_map] at hlength
    rw [List.length_append, hlength, ← List.length_append, h.length]

theorem Tour.tracked (h : Tour c count population statics w) :
    Tracked w population statics count.toNat := by
  induction h with
  | start hw hlen happears hp =>
    obtain ⟨population, w', hp', h⟩ := populate_spec hw hlen happears _
    rw [hp] at hp'
    cases hp'
    exact h
  | setChance chance _ ih => exact ⟨ih.leads, ih.distinct, ih.valid, ih.length, ih.others⟩
  | roam _ hdraw hr ih =>
    obtain ⟨jumps, next, w', hr', h⟩ := ih.roamBy hdraw
    rw [hr] at hr'
    cases hr'
    exact h
  | tick _ hfit ht ih =>
    exact ⟨ih.leads.tick hfit ht, ih.distinct, ih.valid, ih.length, ih.others⟩

/-! ## The census -/

/-- The maps hold the objects that the books list, where the books have them, and no others. -/
structure Census (w : World) (people : List Walker) (count : Nat) : Prop where
  placed : ∀ id g spot, w.spot? id g = some spot ↔ ∃ p ∈ people, p.guid = g ∧ p.map = id ∧
    p.position = spot.position ∧ (casting g.counter.toNat).2 = spot.scope
  objects : w.objectCount = count
  listed : w.directory.size = count

/-- The guids placed on the maps are those in the books. -/
theorem perm_keys (hm : w.Mirrored) (hn : (people.map (·.guid)).Nodup)
    (hspot : ∀ id g, w.spot? id g = World.seenOn id (whereabouts people g)) :
    (w.maps.flatMap fun m => m.placements.keys).Perm (people.map (·.guid)) := by
  have hkeys {m : WorldMap} (hmem : m ∈ w.maps) (g : Guid) :
      g ∈ m.placements.keys ↔ ∃ spot, whereabouts people g = some (m.id, spot) := by
    rw [hm.mem_keys hmem, World.holds_eq_isSome_spot?, hspot, Option.isSome_iff_exists]
    simp only [World.seenOn_eq_some]
  have hmaps : w.maps.Nodup := List.Nodup.of_map _ hm.ids
  have hnodup : (w.maps.flatMap fun m => m.placements.keys).Nodup := by
    refine nodup_gather hmaps (fun m _ => Std.ExtTreeMap.nodup_keys) ?_
    intro m hmem m' hmem' g hg hg'
    -- the books have an object on one map only
    obtain ⟨spot, hd⟩ := (hkeys hmem g).1 hg
    obtain ⟨spot', hd'⟩ := (hkeys hmem' g).1 hg'
    rw [hd] at hd'
    have hid : m.id = m'.id := congrArg Prod.fst (Option.some.inj hd')
    have hfirst := World.map?_of_mem hm.ids hmem
    rw [hid, World.map?_of_mem hm.ids hmem'] at hfirst
    exact (Option.some.inj hfirst).symm
  refine (List.perm_ext_iff_of_nodup hnodup hn).2 fun g => ?_
  rw [List.mem_flatMap, List.mem_map]
  constructor
  · rintro ⟨m, hmem, hg⟩
    obtain ⟨spot, hd⟩ := (hkeys hmem g).1 hg
    obtain ⟨p, hp, hguid, -⟩ := (whereabouts_eq_some hn).1 hd
    exact ⟨p, hp, hguid⟩
  · rintro ⟨p, hp, rfl⟩
    have hd : whereabouts people p.guid = some p.place :=
      (whereabouts_eq_some hn).2 ⟨p, hp, rfl, rfl⟩
    have hseen : w.spot? p.map p.guid = some p.place.2 := by
      rw [hspot, World.seenOn_eq_some, hd]
      rfl
    obtain ⟨m, hm', -⟩ := Option.bind_eq_some_iff.1 hseen
    have hmem := World.mem_of_map? hm'
    refine ⟨m, hmem, (hkeys hmem p.guid).2 ⟨p.place.2, ?_⟩⟩
    rw [hd, World.id_of_map? hm']
    rfl

theorem Tracked.census {count : Nat} (h : Tracked w population statics count) (hfit : w.Fits)
    (ht : w.Ticks diff answers w') : Census w' (population.walkers ++ statics) count := by
  have hm := (h.leads.mirrored.tick ht).1
  have hspot := h.leads.spot? hfit ht
  have hperm := perm_keys hm h.distinct hspot
  have hlength : (w'.maps.flatMap fun m => m.placements.keys).length = count := by
    rw [hperm.length_eq, List.length_map, h.length]
  refine ⟨fun id g spot => ?_, ?_, ?_⟩
  · rw [hspot, World.seenOn_eq_some, whereabouts_eq_some h.distinct]
    refine exists_congr fun p => and_congr_right fun _ => and_congr_right fun hg => ?_
    subst hg
    obtain ⟨scope, position⟩ := spot
    simp only [Walker.place, Prod.mk.injEq, Spot.mk.injEq]
    exact and_congr_right fun _ => and_comm
  · have hsizes : w'.objectCount = total (fun m => m.placements.keys.length) w'.maps :=
      total_congr fun m _ => Std.ExtTreeMap.length_keys.symm
    rw [hsizes, total_length, hlength]
  · rw [hm.size_directory, World.population, (hperm.nodup_iff.2 h.distinct).dedup, hlength]

/-! ## What a population can count on -/

/-- No round fails, no tick rejects a task, and after every tick the maps hold the walkers and the
others where the books have them. With every round the tour goes on. -/
structure Kept (c : Config) (count : UInt64) (population : Population) (statics : List Walker)
    (w : World) : Prop where
  rounds : ∀ {draw : Walker → KeyStream → Plan × KeyStream},
    (∀ walker s, (draw walker s).1.IsStep) → ∃ jumps next w',
      population.roamBy draw w = (.ok jumps, next, w') ∧ Tour c count next statics w'
  round : ∃ jumps next w', population.roam w = (.ok jumps, next, w') ∧
    Tour c count next statics w'
  accepted : w.Fits → ∀ diff, ∀ stats ∈ (w.tick diff).1.maps, stats.rejected = 0
  ticks : ∀ diff, ∃ answers, w.Ticks diff answers (w.tick diff).2
  counted : w.Fits → ∀ diff answers w', w.Ticks diff answers w' →
    Census w' (population.walkers ++ statics) count.toNat
  others : population.statics = statics.length

/-- With every round that a population takes its tour goes on. -/
theorem Tour.roamBy_eq_ok (h : Tour c count population statics w)
    {draw : Walker → KeyStream → Plan × KeyStream}
    (hdraw : ∀ walker s, (draw walker s).1.IsStep) :
    ∃ jumps next w', population.roamBy draw w = (.ok jumps, next, w') ∧
      Tour c count next statics w' := by
  obtain ⟨jumps, next, w', hr, -⟩ := h.tracked.roamBy hdraw
  exact ⟨jumps, next, w', hr, .roam h hdraw hr⟩

theorem Tour.kept (h : Tour c count population statics w) :
    Kept c count population statics w where
  rounds hdraw := h.roamBy_eq_ok hdraw
  round := h.roamBy_eq_ok fun _ _ => isStep_drawPlan ..
  accepted hfit diff := h.tracked.leads.rejected hfit diff
  ticks diff := h.tracked.leads.mirrored.ticks diff
  counted hfit _ _ _ ht := h.tracked.census hfit ht
  others := h.tracked.others

/-- A population starts on a tour wherever its members appear, spawning lets them appear where they
can, and on a tour everyone is kept. -/
structure Travels (c : Config) (w : World) (count : UInt64) : Prop where
  starts : ∀ {positions : List Position}, positions.length = count.toNat →
    (∀ p ∈ positions, Appears p) → ∀ random, ∃ population w',
      populate w positions random = .ok (population, w') ∧
        Tour c count population (sitters c.mapIds positions) w'
  spawns : ∀ seed, ∃ population w', spawn w count.toNat seed = .ok (population, w') ∧
    Tour c count population (sitters c.mapIds (drawPositions count.toNat (.ofSeed seed)).1) w'
  kept : ∀ {population : Population} {statics : List Walker} {w' : World},
    Tour c count population statics w' → Kept c count population statics w'

theorem tour_populate {positions : List Position} (hw : World.ofConfig c = .ok w)
    (hlen : positions.length = count.toNat) (happears : ∀ p ∈ positions, Appears p)
    (random : KeyStream) :
    ∃ population w', populate w positions random = .ok (population, w') ∧
      Tour c count population (sitters c.mapIds positions) w' := by
  obtain ⟨population, w', hp, -⟩ := populate_spec hw hlen happears random
  exact ⟨population, w', hp, .start hw hlen happears hp⟩

theorem travels_of_config (hw : World.ofConfig c = .ok w) (count : UInt64) :
    Travels c w count where
  starts hlen happears random := tour_populate hw hlen happears random
  spawns seed := by
    obtain ⟨hlen, happears⟩ := drawPositions_spec count.toNat (.ofSeed seed)
    exact tour_populate hw hlen happears _
  kept h := h.kept

namespace Excursion

def config : Config := { mapIds := [0, 1] }

def empty : World := { config, maps := config.mapIds.map fun id => { id, config := config.maps } }

def positions : List Position :=
  [.flat 0 0, .flat 100 0, .flat 0 100, .flat 50 (-50), .flat 10 20]

def pause : Duration := .ofMillis 50

def nobody : Population where
  random := .ofSeed 0
  walkers := []
  statics := 0
  chance := defaultChance

def arrived : Population × World :=
  (populate empty positions (.ofSeed 0)).toOption.getD (nobody, empty)

/-- The player jumps to the other map, and the creatures stay where they are. -/
def draw (walker : Walker) (s : KeyStream) : Plan × KeyStream :=
  (if walker.guid.kind = .player then ⟨12, -12, some 1⟩ else ⟨0, 0, none⟩, s)

def departed : Except Fault Nat × Population × World :=
  arrived.1.roamBy draw (arrived.2.tick pause).2

end Excursion

/-- A player that jumped is counted on the other map. -/
theorem kept_excursion : World.ofConfig Excursion.config = .ok Excursion.empty ∧
    Excursion.departed.1.toOption = some 1 ∧ Excursion.departed.2.2.Fits ∧
    Kept Excursion.config 5 Excursion.departed.2.1
      (sitters Excursion.config.mapIds Excursion.positions) Excursion.departed.2.2 := by
  have hw : World.ofConfig Excursion.config = .ok Excursion.empty := rfl
  have htravels := travels_of_config hw 5
  have hdraw (walker : Walker) (s : KeyStream) : (Excursion.draw walker s).1.IsStep := by
    have hjump : Plan.IsStep ⟨12, -12, some 1⟩ := by decide +kernel
    have hstay : Plan.IsStep ⟨0, 0, none⟩ := by decide +kernel
    rw [Excursion.draw]
    split
    · exact hjump
    · exact hstay
  have hlen : Excursion.positions.length = (5 : UInt64).toNat := rfl
  obtain ⟨population, w, hp, hstart⟩ := htravels.starts hlen (by decide +kernel) (.ofSeed 0)
  have harrived : Excursion.arrived = (population, w) := by
    rw [Excursion.arrived, hp]
    rfl
  obtain ⟨answers, ht⟩ := (htravels.kept hstart).ticks Excursion.pause
  have hfit : w.Fits := by
    have hfit : Excursion.arrived.2.Fits := by decide +kernel
    rwa [harrived] at hfit
  obtain ⟨jumps, next, w', hr, hnext⟩ :=
    (htravels.kept (hstart.tick hfit ht)).rounds hdraw
  have hdeparted : Excursion.departed = (.ok jumps, next, w') := by
    rw [Excursion.departed, harrived, hr]
  have hkept := htravels.kept hnext
  refine ⟨hw, by decide +kernel, by decide +kernel, ?_⟩
  rw [hdeparted]
  exact hkept

end Population
end Realm
