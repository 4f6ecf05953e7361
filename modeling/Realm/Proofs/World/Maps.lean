import Realm.Proofs.WorldMap.Reach
import Realm.World.Basic

/-! # The maps of a world

A world whose maps have different numbers is read map by map: a change to one map leaves the others
as they are, and a tick updates each. -/

namespace Realm.World

variable {w : World} {id : MapId} {m m' : WorldMap} {g : Guid} {diff : Duration}

/-! ## Finding by number -/

theorem find?_id {maps : List WorldMap} (hn : (maps.map (·.id)).Nodup) (hm : m ∈ maps) :
    maps.find? (fun x => x.id = m.id) = some m := by
  induction maps with
  | nil => exact nomatch hm
  | cons x maps ih =>
    rw [List.map_cons, List.nodup_cons] at hn
    rcases List.mem_cons.1 hm with rfl | hm
    · simp
    · have hne : x.id ≠ m.id := fun e => hn.1 (e ▸ List.mem_map_of_mem hm)
      rw [List.find?_cons_of_neg (by simpa using hne)]
      exact ih hn.2 hm

theorem find?_map {maps : List WorldMap} {f : WorldMap → WorldMap}
    (hf : ∀ m ∈ maps, (f m).id = m.id) :
    (maps.map f).find? (fun x => x.id = id) = (maps.find? fun x => x.id = id).map f := by
  induction maps with
  | nil => rfl
  | cons x maps ih =>
    obtain ⟨hx, hmaps⟩ := List.forall_mem_cons.1 hf
    rw [List.map_cons, List.find?_cons, List.find?_cons, ih hmaps, hx]
    split <;> rfl

theorem map?_of_mem (hw : (w.maps.map (·.id)).Nodup) (hm : m ∈ w.maps) :
    w.map? m.id = some m :=
  find?_id hw hm

theorem id_of_map? (h : w.map? id = some m) : m.id = id := by
  have := List.find?_some h
  simpa using this

theorem mem_of_map? (h : w.map? id = some m) : m ∈ w.maps := List.mem_of_find?_eq_some h

/-- Whether a map of the world holds a guid. -/
def holds (w : World) (id : MapId) (g : Guid) : Bool := (w.map? id).any (·.contains g)

theorem mem_holders (hw : (w.maps.map (·.id)).Nodup) :
    id ∈ w.holders g ↔ w.holds id g = true := by
  simp only [holders, List.mem_map, List.mem_filter, holds, Option.any_eq_true]
  constructor
  · rintro ⟨m, ⟨hm, hg⟩, rfl⟩
    exact ⟨m, map?_of_mem hw hm, hg⟩
  · rintro ⟨m, hm, hg⟩
    exact ⟨m, ⟨mem_of_map? hm, hg⟩, id_of_map? hm⟩

theorem nodup_holders (hw : (w.maps.map (·.id)).Nodup) : (w.holders g).Nodup :=
  hw.sublist (List.filter_sublist.map _)

/-- If no guid has two placements, every object is on one map at most. -/
theorem length_holders_le (h : (w.maps.flatMap fun m => m.placements.keys).Nodup) (g : Guid) :
    (w.holders g).length ≤ 1 := by
  rw [holders, List.length_map]
  generalize w.maps = maps at h
  induction maps with
  | nil => exact Nat.zero_le _
  | cons m maps ih =>
    rw [List.flatMap_cons, List.nodup_append] at h
    obtain ⟨-, hmaps, hdisjoint⟩ := h
    rw [List.filter_cons]
    split
    · rename_i hm
      have hnone : maps.filter (·.contains g) = [] := by
        rw [List.filter_eq_nil_iff]
        intro x hx hxg
        have hkey {y : WorldMap} (hy : y.contains g = true) : g ∈ y.placements.keys :=
          Std.ExtTreeMap.mem_keys.2 (Std.ExtTreeMap.contains_iff_mem.1 hy)
        exact hdisjoint g (hkey hm) g (List.mem_flatMap.2 ⟨x, hx, hkey hxg⟩) rfl
      rw [hnone]
      exact Nat.le_refl 1
    · exact ih hmaps

/-! ## Changing one map -/

theorem ids_setMap (m : WorldMap) : (w.setMap m).maps.map (·.id) = w.maps.map (·.id) := by
  rw [setMap, List.map_map]
  refine List.map_congr_left fun x _ => ?_
  simp only [Function.comp_apply]
  split
  · rename_i h; exact h.symm
  · rfl

theorem map?_setMap (m : WorldMap) : (w.setMap m).map? id =
    if id = m.id then (w.map? id).map fun _ => m else w.map? id := by
  rw [map?, setMap, find?_map fun x _ => by split; exacts [(‹x.id = m.id›).symm, rfl], ← map?]
  cases hx : w.map? id with
  | none => split <;> rfl
  | some x =>
    rw [Option.map_some, id_of_map? hx]
    split <;> rfl

theorem map?_setMap_self (hm : w.map? id = some m) (m' : WorldMap) (hid : m'.id = m.id)
    (id' : MapId) :
    (w.setMap m').map? id' = if id' = id then some m' else w.map? id' := by
  rw [map?_setMap, hid, id_of_map? hm]
  split
  · rename_i he; rw [he, hm]; rfl
  · rfl

theorem mem_setMap (hx : m' ∈ (w.setMap m).maps) : m' = m ∨ m' ∈ w.maps := by
  rw [setMap, List.mem_map] at hx
  obtain ⟨x, hx, rfl⟩ := hx
  split
  · exact .inl rfl
  · exact .inr hx

/-! ## Ticks -/

theorem maps_tick (w : World) (diff : Duration) :
    (w.tick diff).2.maps = w.maps.map fun m => (m.update diff).1 := by
  rw [tick, updateMaps, List.map_map]
  rfl

theorem map?_tick (hw : ∀ m ∈ w.maps, (m.update diff).1.id = m.id) :
    (w.tick diff).2.map? id = (w.map? id).map fun m => (m.update diff).1 := by
  rw [map?, maps_tick, find?_map hw]
  rfl

end Realm.World
