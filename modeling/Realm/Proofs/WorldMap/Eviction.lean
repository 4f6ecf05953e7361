import Realm.Proofs.WorldMap.Objects

/-! # Dropping grids with their objects

A grid that is dropped by force takes the objects in it off the map. -/

namespace Realm

/-! ## Values of a table -/

theorem values_eq_map_toList {α β : Type} {cmp : α → α → Ordering} [Std.TransCmp cmp]
    (t : Std.ExtTreeMap α β cmp) : t.values = t.toList.map (·.2) := by
  have hvalues : t.values = t.foldr (fun _ v l => v :: l) [] := by
    obtain ⟨t⟩ := t
    induction t using Std.ExtDTreeMap.inductionOn with
    | _ t => rfl
  rw [hvalues, Std.ExtTreeMap.foldr_eq_foldr_toList]
  induction t.toList with
  | nil => rfl
  | cons e es ih => rw [List.foldr_cons, ih, List.map_cons]

theorem mem_values {α β : Type} {cmp : α → α → Ordering} [Std.TransCmp cmp]
    [Std.LawfulEqCmp cmp] {t : Std.ExtTreeMap α β cmp} {v : β} :
    v ∈ t.values ↔ ∃ k : α, t[k]? = some v := by
  simp [values_eq_map_toList, Std.ExtTreeMap.mem_toList_iff_getElem?_eq_some]

namespace WorldMap

variable {m : WorldMap} {c : GridCoord} {g : Guid}

/-! ## The evicted -/

/-- The objects placed in a grid. -/
def occupants (m : WorldMap) (c : GridCoord) : List Guid :=
  (m.placements.values.filter fun p => p.gridCoord = c).map (·.guid)

theorem Filed.map_guid_values (h : m.Filed) :
    m.placements.values.map (·.guid) = m.placements.keys := by
  rw [values_eq_map_toList, List.map_map, ← Std.ExtTreeMap.map_fst_toList_eq_keys]
  refine List.map_congr_left fun e he => ?_
  exact (h.fits (Std.ExtTreeMap.mem_toList_iff_getElem?_eq_some.1 he)).1

theorem Filed.nodup_occupants (h : m.Filed) : (m.occupants c).Nodup := by
  refine List.Nodup.sublist (List.filter_sublist.map _) ?_
  rw [h.map_guid_values]
  exact Std.ExtTreeMap.nodup_keys

theorem Filed.mem_occupants (h : m.Filed) :
    g ∈ m.occupants c ↔ ∃ p, m.placement? g = some p ∧ p.gridCoord = c := by
  simp only [occupants, List.mem_map, List.mem_filter, mem_values, decide_eq_true_eq]
  constructor
  · rintro ⟨p, ⟨⟨g', hp⟩, hc⟩, rfl⟩
    obtain ⟨rfl, -⟩ := h.fits hp
    exact ⟨p, hp, hc⟩
  · rintro ⟨p, hp, hc⟩
    exact ⟨p, ⟨⟨g, hp⟩, hc⟩, (h.fits hp).1⟩

theorem Indexed.mem_occupants (h : m.Indexed) :
    g ∈ m.occupants c ↔ ∃ p, m.placement? g = some p ∧ p.gridCoord = c :=
  h.filed.mem_occupants

theorem foldl_displace (gs : List Guid) :
    ∃ ps, gs.foldl displace m = { m with placements := ps } ∧
      ∀ g, ps[g]? = if g ∈ gs then none else m.placement? g := by
  induction gs generalizing m with
  | nil => exact ⟨_, rfl, fun g => by simp [placement?]⟩
  | cons g gs ih =>
    obtain ⟨ps, hps, hget⟩ := ih (m := m.displace g)
    refine ⟨ps, hps, fun g' => ?_⟩
    rw [hget, placement?_displace, Function.update_apply]
    by_cases hg : g' = g
    · simp [hg]
    · simp [hg]

/-- A map without a grid and the objects in it. -/
def evict (m : WorldMap) (c : GridCoord) : WorldMap :=
  ((m.occupants c).foldl displace m).dropGrid c

theorem evict_eq (m : WorldMap) (c : GridCoord) :
    ∃ ps, m.evict c = { m.dropGrid c with placements := ps } ∧
      ∀ g, ps[g]? = if g ∈ m.occupants c then none else m.placement? g := by
  obtain ⟨ps, hps, hget⟩ := foldl_displace (m := m) (m.occupants c)
  exact ⟨ps, by rw [evict, hps]; rfl, hget⟩

theorem listed_evict (m : WorldMap) (c : GridCoord) :
    (m.evict c).listed = (m.dropGrid c).listed := by
  obtain ⟨ps, hps, -⟩ := m.evict_eq c
  rw [hps]
  rfl

theorem grid?_evict (m : WorldMap) (c : GridCoord) :
    (m.evict c).grid? = (m.dropGrid c).grid? := by
  obtain ⟨ps, hps, -⟩ := m.evict_eq c
  rw [hps]
  rfl

theorem placement?_evict (m : WorldMap) (c : GridCoord) (g : Guid) :
    (m.evict c).placement? g = if g ∈ m.occupants c then none else m.placement? g := by
  obtain ⟨ps, hps, hget⟩ := m.evict_eq c
  rw [hps]
  exact hget g

theorem id_evict (m : WorldMap) (c : GridCoord) : (m.evict c).id = m.id := by
  obtain ⟨ps, hps, -⟩ := m.evict_eq c
  rw [hps]
  rfl

theorem Filed.evict (h : m.Filed) (c : GridCoord) : (m.evict c).Filed := by
  refine ⟨fun {g p} hp => ?_⟩
  rw [placement?_evict, Option.ite_none_left_eq_some] at hp
  exact h.fits hp.2

/-- What is left of a map when a grid and the objects in it are gone. -/
theorem Indexed.evict (h : m.Indexed) {grid : Grid} (hg : m.grid? c = some grid) :
    m.Becomes (m.evict c) fun g => if g ∈ m.occupants c then none else m.placement? g := by
  have hpl := funext (m.placement?_evict c)
  have hfiled := h.filed.evict c
  have hlisted := m.listed_evict c
  obtain ⟨ps, hps, -⟩ := m.evict_eq c
  rw [hps] at hpl hfiled hlisted ⊢
  refine ⟨rfl, rfl, rfl, hpl, (h.toShelved.dropGrid hg).congr rfl rfl, hfiled.fits, ?_⟩
  intro d s k l g
  rw [hlisted, listed_dropGrid (grid?_eq_some.1 hg).1, hpl]
  constructor
  · intro hl
    split at hl
    · exact nomatch hl
    · rename_i hd
      obtain ⟨p, hp, rfl, hrest⟩ := h.entry.1 hl
      refine ⟨p, ?_, rfl, hrest⟩
      have hout : g ∉ m.occupants c := fun hm => by
        obtain ⟨q, hq, hc⟩ := h.mem_occupants.1 hm
        rw [hp] at hq
        cases hq
        exact hd hc
      simp only [if_neg hout, hp]
  · rintro ⟨p, hp, rfl, hrest⟩
    obtain ⟨hout, hp⟩ := Option.ite_none_left_eq_some.1 hp
    have hd : CellCoord.gridCoord p.cell ≠ c := fun hd => hout (h.mem_occupants.2 ⟨p, hp, hd⟩)
    rw [if_neg hd]
    exact h.entry.2 ⟨p, hp, rfl, hrest⟩

/-! ## Unloading -/

/-- An unload changes nothing, or it drops an empty grid, or one with the objects in it. -/
theorem unload_cases (m : WorldMap) (c : GridCoord) (force : Bool) :
    (∃ b, m.unload c force = { result := .ok b, map := m } ∧ (force = true → m.grid? c = none)) ∨
      ∃ grid, m.grid? c = some grid ∧
        (grid.isEmpty = true ∧ m.unload c force = { result := .ok true, map := m.dropGrid c } ∨
          force = true ∧ m.unload c force =
            { result := .ok true, map := m.evict c, notes := (m.occupants c).map .gone }) := by
  rw [WorldMap.unload]
  split
  · rename_i hg
    exact .inl ⟨false, rfl, fun _ => hg⟩
  · rename_i grid hg
    dsimp only
    split
    · rename_i he
      exact .inr ⟨grid, hg, .inl ⟨he, rfl⟩⟩
    · cases force with
      | false => exact .inl ⟨false, rfl, fun h => absurd h Bool.false_ne_true⟩
      | true => exact .inr ⟨grid, hg, .inr ⟨rfl, rfl⟩⟩

/-- An unload leaves the objects alone, or else those of the grid are gone and the directory is
told of each of them once. -/
theorem Indexed.unload (h : m.Indexed) (c : GridCoord) (force : Bool) :
    ((m.unload c force).notes = [] ∧ m.Keeps (m.unload c force).map) ∨
      ((m.unload c force).notes = (m.occupants c).map .gone ∧
        m.Becomes (m.unload c force).map
          fun g => if g ∈ m.occupants c then none else m.placement? g) := by
  obtain ⟨b, hu, -⟩ | ⟨grid, hg, ⟨he, hu⟩ | ⟨-, hu⟩⟩ := m.unload_cases c force
  · rw [hu]
    exact .inl ⟨rfl, .refl m⟩
  · rw [hu]
    exact .inl ⟨rfl, .dropGrid hg he⟩
  · rw [hu]
    exact .inr ⟨rfl, h.evict hg⟩

/-- An unload lets no cell list anything new. -/
theorem listed_unload (m : WorldMap) (c : GridCoord) (force : Bool) (d : CellCoord) (s : Scope)
    (k : Kind) : ((m.unload c force).map.listed d s k).Sublist (m.listed d s k) := by
  have hdropped {grid : Grid} (hg : m.grid? c = some grid) :
      ((m.dropGrid c).listed d s k).Sublist (m.listed d s k) := by
    rw [listed_dropGrid (grid?_eq_some.1 hg).1]
    split
    · exact List.nil_sublist _
    · exact .refl _
  obtain ⟨b, hu, -⟩ | ⟨grid, hg, ⟨-, hu⟩ | ⟨-, hu⟩⟩ := m.unload_cases c force
  · rw [hu]
  · rw [hu]
    exact hdropped hg
  · rw [hu, listed_evict]
    exact hdropped hg

end WorldMap
end Realm
