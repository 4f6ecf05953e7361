import Realm.Proofs.World.Leading
import Realm.World.Population

/-! # The books of a population

A population writes down where it sends its members, and looks at no map. The queues of a world
that no one else posts to lead every member to where it is in the books. -/

namespace Realm

open World (Leads)

/-- Where the books have an object, with the scope that it came with. -/
def Walker.place (walker : Walker) : MapId × Spot :=
  (walker.map, ⟨(Population.casting walker.guid.counter.toNat).2, walker.position⟩)

namespace Population

variable {w w' : World} {people done rest : List Walker} {old new walker : Walker} {g : Guid}
  {d : MapId × Spot} {mapIds : List MapId} {i : Nat} {p : Position} {ps : List Position}
  {dest : Guid → Option (MapId × Spot)} {plan : Plan}

/-! ## Books -/

def whereabouts (people : List Walker) (g : Guid) : Option (MapId × Spot) :=
  (people.find? (·.guid = g)).map Walker.place

theorem whereabouts_cons (new : Walker) (people : List Walker) (g : Guid) :
    whereabouts (new :: people) g =
      if new.guid = g then some new.place else whereabouts people g := by
  rw [whereabouts, List.find?_cons]
  by_cases hg : new.guid = g
  · simp [hg]
  · simp [hg, whereabouts]

theorem whereabouts_append (done rest : List Walker) (g : Guid) :
    whereabouts (done ++ rest) g = (whereabouts done g).or (whereabouts rest g) := by
  rw [whereabouts, List.find?_append, Option.map_or, whereabouts, whereabouts]

theorem whereabouts_eq_none (h : ∀ p ∈ people, p.guid ≠ g) : whereabouts people g = none := by
  rw [whereabouts, Option.map_eq_none_iff, List.find?_eq_none]
  simpa using h

theorem whereabouts_eq_some (hn : (people.map (·.guid)).Nodup) :
    whereabouts people g = some d ↔ ∃ p ∈ people, p.guid = g ∧ p.place = d := by
  induction people with
  | nil => simp [whereabouts]
  | cons new people ih =>
    obtain ⟨hnew, hn⟩ := List.nodup_cons.1 hn
    rw [whereabouts_cons]
    split
    · rename_i hg
      subst hg
      have hrest (p : Walker) (hp : p ∈ people) : p.guid ≠ new.guid := fun he =>
        hnew (List.mem_map.2 ⟨p, hp, he⟩)
      simp only [Option.some.injEq, List.mem_cons, exists_eq_or_imp, true_and]
      refine (or_iff_left ?_).symm
      rintro ⟨p, hp, hguid, -⟩
      exact hrest p hp hguid
    · rename_i hg
      simp only [List.mem_cons, exists_eq_or_imp, hg, false_and, false_or]
      exact ih hn

/-- The order of the books does not matter. -/
theorem whereabouts_perm {people' : List Walker} (hn : (people.map (·.guid)).Nodup)
    (hp : people.Perm people') : whereabouts people = whereabouts people' := by
  have hn' : (people'.map (·.guid)).Nodup := (hp.map _).nodup_iff.1 hn
  funext g
  refine Option.ext fun d => ?_
  rw [whereabouts_eq_some hn, whereabouts_eq_some hn']
  simp only [hp.mem_iff]

/-- An entry changes. -/
theorem whereabouts_move (h : ∀ p ∈ done, p.guid ≠ old.guid) (hg : new.guid = old.guid) :
    whereabouts (done ++ new :: rest) =
      Function.update (whereabouts (done ++ old :: rest)) old.guid (some new.place) := by
  funext g
  rw [Function.update_apply, whereabouts_append, whereabouts_append, whereabouts_cons,
    whereabouts_cons, hg]
  rcases eq_or_ne g old.guid with rfl | hne
  · rw [whereabouts_eq_none h, if_pos rfl, if_pos rfl]
    rfl
  · rw [if_neg hne.symm, if_neg hne.symm, if_neg hne]

/-- An entry comes last. -/
theorem whereabouts_enter (h : ∀ p ∈ done, p.guid ≠ new.guid) :
    whereabouts (done ++ [new]) =
      Function.update (whereabouts done) new.guid (some new.place) := by
  funext g
  rw [Function.update_apply, whereabouts_append, whereabouts_cons]
  rcases eq_or_ne g new.guid with rfl | hne
  · rw [whereabouts_eq_none h, if_pos rfl, if_pos rfl]
    rfl
  · rw [if_neg hne.symm, if_neg hne]
    exact Option.or_none

/-! ## Settling -/

/-- The objects with the numbers from `i` on, at these positions. -/
def members (mapIds : List MapId) (i : Nat) : List Position → List Walker
  | [] => []
  | p :: ps => member mapIds i p :: members mapIds (i + 1) ps

theorem casting_holds (i : Nat) : (casting i).2.Holds (casting i).1 := by
  rw [casting]
  split <;> decide

theorem place_member (hi : i < UInt64.size) (p : Position) :
    (member mapIds i p).place = ((member mapIds i p).map, ⟨(casting i).2, p⟩) := by
  rw [Walker.place, member, UInt64.toNat_ofNat_of_lt' hi]

theorem member_map_mem (h : mapIds ≠ []) (i : Nat) (p : Position) :
    (member mapIds i p).map ∈ mapIds := by
  have hlt : i % mapIds.length < mapIds.length := Nat.mod_lt _ (List.length_pos_iff.2 h)
  rw [member, List.getElem?_eq_getElem hlt]
  exact List.getElem_mem hlt

theorem counters_members (mapIds : List MapId) (ps : List Position)
    (hi : i + ps.length ≤ UInt64.size) :
    (members mapIds i ps).map (·.guid.counter.toNat) = List.range' i ps.length := by
  induction ps generalizing i with
  | nil => rfl
  | cons p ps ih =>
    rw [List.length_cons] at hi
    have hself : (member mapIds i p).guid.counter.toNat = i :=
      UInt64.toNat_ofNat_of_lt' (by omega)
    rw [members, List.map_cons, hself, ih (by omega), List.length_cons, List.range'_succ]

theorem nodup_members (mapIds : List MapId) (ps : List Position)
    (hi : i + ps.length ≤ UInt64.size) : ((members mapIds i ps).map (·.guid)).Nodup := by
  refine List.Nodup.of_map (fun g : Guid => g.counter.toNat) ?_
  rw [List.map_map]
  have hcounters := counters_members mapIds ps hi
  rw [Function.comp_def, hcounters]
  exact List.nodup_range'

theorem length_members (mapIds : List MapId) (i : Nat) (ps : List Position) :
    (members mapIds i ps).length = ps.length := by
  induction ps generalizing i with
  | nil => rfl
  | cons p ps ih => rw [members, List.length_cons, ih, List.length_cons]

theorem position_mem_of_members (h : walker ∈ members mapIds i ps) : walker.position ∈ ps := by
  induction ps generalizing i with
  | nil => exact nomatch h
  | cons p ps ih =>
    rcases List.mem_cons.1 h with rfl | h
    · exact List.mem_cons_self
    · exact List.mem_cons_of_mem p (ih h)

/-- Every object is queued for its map. -/
theorem settle_eq_ok (h : w.Leads (whereabouts done))
    (hdone : ∀ p ∈ done, p.guid.counter.toNat < i) (hi : i + ps.length ≤ UInt64.size)
    (hps : ∀ p ∈ ps, p.IsValid) (hne : mapIds ≠ []) (hmaps : ∀ id ∈ mapIds, (w.map? id).isSome) :
    ∃ w', settle mapIds i ps w = .ok (members mapIds i ps, w') ∧
      w'.Leads (whereabouts (done ++ members mapIds i ps)) := by
  induction ps generalizing i done w with
  | nil => exact ⟨w, rfl, by rwa [members, List.append_nil]⟩
  | cons p ps ih =>
    rw [List.length_cons] at hi
    obtain ⟨hp, hps⟩ := List.forall_mem_cons.1 hps
    have hself : (member mapIds i p).guid.counter.toNat = i :=
      UInt64.toNat_ofNat_of_lt' (by omega)
    -- numbers rise, so no entry of the books has this one
    have hnew : ∀ q ∈ done, q.guid ≠ (member mapIds i p).guid := fun q hq he => by
      have hlt := hdone q hq
      rw [he, hself] at hlt
      exact Nat.lt_irrefl i hlt
    obtain ⟨w₁, hpost⟩ := World.post_of_isSome (hmaps _ (member_map_mem hne i p))
      (.add (member mapIds i p).guid p (casting i).2)
    have hleads := h.add hpost (whereabouts_eq_none hnew) (casting_holds i) hp
    rw [← place_member (by omega), ← whereabouts_enter hnew] at hleads
    have hnext : ∀ q ∈ done ++ [member mapIds i p], q.guid.counter.toNat < i + 1 := by
      intro q hq
      rcases List.mem_append.1 hq with hq | hq
      · exact Nat.lt_succ_of_lt (hdone q hq)
      · rw [List.mem_singleton.1 hq, hself]
        exact Nat.lt_succ_self i
    have hmaps₁ : ∀ id ∈ mapIds, (w₁.map? id).isSome := fun id hid => by
      rw [World.isSome_map?_post hpost]
      exact hmaps id hid
    obtain ⟨w', hsettle, hleads'⟩ := ih hleads hnext (by omega) hps hmaps₁
    refine ⟨w', ?_, by rwa [members, List.append_cons]⟩
    simp only [settle, hpost, bind, Except.bind, hsettle, pure, Except.pure, members]

/-! ## Wandering -/

/-- A step that can be drawn, whatever map the walker would like to jump to. -/
structure Plan.IsStep (plan : Plan) : Prop where
  dx : Binary.Between (-stride) plan.dx stride
  dy : Binary.Between (-stride) plan.dy stride

instance (plan : Plan) : Decidable plan.IsStep :=
  decidable_of_iff
    (Binary.Between (-stride) plan.dx stride ∧ Binary.Between (-stride) plan.dy stride)
    ⟨fun ⟨hx, hy⟩ => ⟨hx, hy⟩, fun h => ⟨h.dx, h.dy⟩⟩

theorem isValid_stepTo (h : walker.position.IsValid) (hplan : plan.IsStep) :
    (walker.stepTo plan).IsValid := by
  obtain ⟨⟨⟨hx, hy⟩, hz⟩, ho⟩ := h
  have hx' := hx.clamp_add hplan.dx.isFinite
  have hy' := hy.clamp_add hplan.dy.isFinite
  rw [Position.IsValid, Position.OnPlane, Walker.stepTo]
  dsimp only
  exact ⟨⟨⟨hx', hy'⟩, hz⟩, ho⟩

/-- A walker jumps by a teleport that is accepted, or steps where it is. -/
theorem follow_cases (walker : Walker) (plan : Plan) (w : World) :
    (∃ target w', w.teleport walker.guid target (walker.stepTo plan) = .ok w' ∧
      walker.follow plan w = .ok (true, ⟨walker.guid, target, walker.stepTo plan⟩, w')) ∨
    walker.follow plan w =
      (w.post walker.map (.relocate walker.guid (walker.stepTo plan))).map
        fun w' => (false, ⟨walker.guid, walker.map, walker.stepTo plan⟩, w') := by
  rw [Walker.follow]
  dsimp only
  split
  · rename_i target w' hjump
    refine .inl ⟨target, w', ?_, rfl⟩
    obtain ⟨target', -, hjump⟩ := Option.bind_eq_some_iff.1 hjump
    split at hjump
    · exact nomatch hjump
    · obtain ⟨w₁, ht, he⟩ := Option.bind_eq_some_iff.1 hjump
      cases he
      cases hw : w.teleport walker.guid target (walker.stepTo plan) with
      | error f =>
        rw [hw] at ht
        exact nomatch ht
      | ok w₁ =>
        rw [hw] at ht
        cases ht
        rfl
  · exact .inr rfl

/-- The entry of a walker follows it. -/
theorem follow_eq_ok (h : w.Leads dest) (hd : dest walker.guid = some walker.place)
    (hv : walker.position.IsValid) (hplan : plan.IsStep) :
    ∃ jumped new w', walker.follow plan w = .ok (jumped, new, w') ∧ new.guid = walker.guid ∧
      new.position.IsValid ∧ w'.Leads (Function.update dest walker.guid (some new.place)) := by
  have hvalid := isValid_stepTo hv hplan
  rcases follow_cases walker plan w with ⟨target, w', ht, hfollow⟩ | hstep
  · obtain ⟨source, s, q, hq, hleads⟩ := h.teleport ht
    rw [hd] at hq
    cases hq
    exact ⟨_, _, w', hfollow, rfl, hvalid, hleads⟩
  · -- the map where the walker is leads it there, so it exists
    obtain ⟨m, hm, -⟩ := Option.bind_eq_some_iff.1 (h.outlook_self hd)
    have hmap : (w.map? walker.map).isSome := Option.isSome_iff_exists.2 ⟨m, hm⟩
    obtain ⟨w', hpost⟩ := World.post_of_isSome hmap (.relocate walker.guid (walker.stepTo plan))
    have hfollow : walker.follow plan w =
        .ok (false, ⟨walker.guid, walker.map, walker.stepTo plan⟩, w') := by
      rw [hstep, hpost]
      rfl
    exact ⟨_, _, w', hfollow, rfl, hvalid, h.relocate hpost hd hvalid⟩

/-- Every walker follows its plan, however the plans are drawn. -/
theorem roamAll_eq_ok {draw : Walker → KeyStream → Plan × KeyStream} {walkers : List Walker}
    (hdraw : ∀ walker s, (draw walker s).1.IsStep)
    (h : w.Leads (whereabouts (done ++ (walkers ++ rest))))
    (hn : ((done ++ walkers).map (·.guid)).Nodup)
    (hv : ∀ p ∈ walkers, p.position.IsValid) (s : KeyStream) :
    ∃ jumps moved s' w', roamAll draw walkers s w = (.ok jumps, moved, s', w') ∧
      moved.map (·.guid) = walkers.map (·.guid) ∧ (∀ p ∈ moved, p.position.IsValid) ∧
      w'.Leads (whereabouts (done ++ (moved ++ rest))) := by
  induction walkers generalizing done s w with
  | nil => exact ⟨0, [], s, w, rfl, rfl, List.forall_mem_nil _, h⟩
  | cons walker walkers ih =>
    obtain ⟨hvalid, hv⟩ := List.forall_mem_cons.1 hv
    rw [List.cons_append] at h
    have hnew : ∀ p ∈ done, p.guid ≠ walker.guid := fun p hp he => by
      rw [List.map_append, List.nodup_append] at hn
      exact hn.2.2 _ (List.mem_map_of_mem hp) _ List.mem_cons_self he
    have hd : whereabouts (done ++ walker :: (walkers ++ rest)) walker.guid =
        some walker.place := by
      rw [whereabouts_append, whereabouts_eq_none hnew, whereabouts_cons, if_pos rfl]
      rfl
    obtain ⟨jumped, new, w₁, hfollow, hguid, hvalid', hleads⟩ :=
      follow_eq_ok h hd hvalid (hdraw walker s)
    -- the rest sets out from books in which this walker has moved already
    rw [← whereabouts_move hnew hguid, List.append_cons] at hleads
    have hn₁ : ((done ++ [new] ++ walkers).map (·.guid)).Nodup := by
      rw [← List.append_cons, List.map_append, List.map_cons, hguid]
      rwa [List.map_append] at hn
    obtain ⟨jumps, moved, s', w', hrest, hguids, hvalids, hleads'⟩ :=
      ih hleads hn₁ hv (draw walker s).2
    refine ⟨if jumped then jumps + 1 else jumps, new :: moved, s', w', ?_, ?_, ?_, ?_⟩
    · simp only [roamAll, hfollow, hrest, Except.map]
    · rw [List.map_cons, List.map_cons, hguids, hguid]
    · exact List.forall_mem_cons.2 ⟨hvalid', hvalids⟩
    · rwa [← List.append_cons] at hleads'

end Population
end Realm
