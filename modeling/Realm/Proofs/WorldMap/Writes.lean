import Mathlib.Logic.Relation
import Realm.Proofs.Grid.Ageing
import Realm.Proofs.WorldMap.Reach

/-! # Writes

Whatever is done to the objects of a map is a run of elementary writes: a grid is loaded, an entry
is made or taken out in a loaded grid, or a placement is set or dropped. So what each of these
leaves alone no task changes. -/

namespace Realm

/-! ## Contents and age of a grid -/

namespace Grid

variable {g g' : Grid} {d : CellCoord} {s : Scope} {k : Kind} {guid : Guid} {l : Link}

/-- The same grid but for its contents. -/
structure SameAge (g g' : Grid) : Prop where
  state : g'.state = g.state
  retention : g'.retention = g.retention

theorem SameAge.refl (g : Grid) : g.SameAge g := ⟨rfl, rfl⟩

theorem SameAge.trans {g'' : Grid} (h : g.SameAge g') (h' : g'.SameAge g'') : g.SameAge g'' :=
  ⟨h'.state.trans h.state, h'.retention.trans h.retention⟩

theorem SameAge.setCount (g : Grid) (s : Scope) (n : Nat) : g.SameAge (g.setCount s n) := by
  cases s <;> exact ⟨rfl, rfl⟩

theorem SameAge.setCell (g : Grid) (d : CellCoord) (new : Cell) : g.SameAge (g.setCell d new) :=
  ⟨rfl, rfl⟩

theorem SameAge.insert? (h : g.insert? d s guid = some (l, g')) : g.SameAge g' := by
  obtain ⟨⟨l', new⟩, -, he⟩ := Option.map_eq_some_iff.1 h
  cases he
  exact (setCell g d new).trans (setCount ..)

theorem SameAge.add (g : Grid) (d : CellCoord) (s : Scope) (k : Kind) (guid : Guid) :
    g.SameAge (g.add d s k guid).2 :=
  (setCount g s _).trans (setCell ..)

theorem SameAge.erase? (h : g.erase? d s k l = some g') : g.SameAge g' := by
  obtain ⟨new, -, rfl⟩ := Option.map_eq_some_iff.1 h
  exact (setCell g d new).trans (setCount ..)

theorem SameAge.clock (h : g.SameAge g') : g.SameClock g' :=
  ⟨h.state, congrArg Retention.delay h.retention, congrArg Retention.remaining h.retention⟩

theorem SameClock.refl (g : Grid) : g.SameClock g := ⟨rfl, rfl, rfl⟩

theorem SameClock.trans {g'' : Grid} (h : g.SameClock g') (h' : g'.SameClock g'') :
    g.SameClock g'' :=
  ⟨h'.state.trans h.state, h'.delay.trans h.delay, h'.remaining.trans h.remaining⟩

/-- Whether a change of a grid is a change of its locks. -/
def Tweak.IsLock : Tweak → Prop
  | .retention (.pin _) | .retention .hold | .retention .release => True
  | _ => False

theorem SameClock.tweaks {tweaks : List Tweak} (h : ∀ t ∈ tweaks, t.IsLock) (g : Grid) :
    g.SameClock (tweaks.foldl tweak g) := by
  induction tweaks generalizing g with
  | nil => exact .refl g
  | cons t tweaks ih =>
    obtain ⟨ht, htweaks⟩ := List.forall_mem_cons.1 h
    refine SameClock.trans ?_ (ih htweaks _)
    cases t with
    | state => exact ht.elim
    | retention step =>
      cases step with
      | restart | advance => exact ht.elim
      | pin | hold | release => exact ⟨rfl, rfl, rfl⟩

end Grid

namespace WorldMap

variable {m m' m'' : WorldMap} {c : GridCoord} {d : CellCoord} {s : Scope} {k : Kind} {g : Guid}
  {grid grid' : Grid} {p : Position} {pl : Placement}

/-! ## Elementary writes -/

/-- A write that drops no grid, lets none age and locks none. -/
inductive Write : WorldMap → WorldMap → Prop
  | load {m m' : WorldMap} {c : GridCoord} {grid : Grid} (h : m.load c = .ok (grid, m')) :
      Write m m'
  | grid {m : WorldMap} {c : GridCoord} {grid grid' : Grid} (hg : m.grid? c = some grid)
      (hs : grid.SameAge grid') : Write m (m.setGrid c grid')
  | place {m : WorldMap} (pl : Placement) : Write m (m.place pl)
  | displace {m : WorldMap} (g : Guid) : Write m (m.displace g)
  | requeue {m : WorldMap} (queue : TaskQueue) : Write m (m.requeue queue)

/-- `m'` has come from `m` by such writes. -/
abbrev Writes : WorldMap → WorldMap → Prop := Relation.ReflTransGen Write

/-- A grid that was not loaded is new. -/
theorem load_eq_ok (h : m.load c = .ok (grid, m')) :
    grid = (m.grid? c).getD (m.freshGrid c) ∧
      ∀ c', m'.grid? c' = if c' = c then some grid else m.grid? c' := by
  by_cases hc : c.IsValid
  · cases hg : m.grid? c with
    | some g =>
      rw [load_of_loaded hg] at h
      cases h
      refine ⟨rfl, fun c' => ?_⟩
      split
      · rename_i he; rw [he, hg]
      · rfl
    | none =>
      rw [load_of_missing hc hg] at h
      cases h
      exact ⟨rfl, fun c' => grid?_setGrid (m := m) hc c'⟩
  · rw [load, if_pos hc] at h
    cases h

theorem grid?_load (h : m.load c = .ok (grid, m')) : m'.grid? c = some grid := by
  rw [(load_eq_ok h).2, if_pos rfl]

theorem grid?_modifyGrid {f : Grid → Grid} (h : m.modifyGrid c f = .ok m') (c' : GridCoord) :
    m'.grid? c' =
      if c' = c then some (f ((m.grid? c).getD (m.freshGrid c))) else m.grid? c' := by
  rw [modifyGrid] at h
  cases hload : m.load c with
  | error =>
    rw [hload] at h
    cases h
  | ok gm =>
    obtain ⟨grid, m₁⟩ := gm
    obtain ⟨hnew, hgrid⟩ := load_eq_ok hload
    rw [hload] at h
    cases h
    rw [grid?_setGrid (grid?_eq_some.1 (grid?_load hload)).1, hgrid, hnew]
    split <;> rfl

theorem modifyGrid_congr {f f' : Grid → Grid}
    (h : f ((m.grid? c).getD (m.freshGrid c)) = f' ((m.grid? c).getD (m.freshGrid c))) :
    m.modifyGrid c f = m.modifyGrid c f' := by
  rw [modifyGrid, modifyGrid]
  cases hload : m.load c with
  | error => rfl
  | ok gm =>
    rw [← (load_eq_ok hload).1] at h
    simp only [Except.map, h]

theorem writes_link (m : WorldMap) (d : CellCoord) (s : Scope) (g : Guid) :
    m.Writes (m.link d s g).2 := by
  rw [link]
  split
  · exact .refl
  · rename_i grid m₁ hload
    have hloaded : m.Writes m₁ := .single (.load hload)
    split
    · exact hloaded
    · rename_i hins
      exact hloaded.tail (.grid (grid?_load hload) (.insert? hins))

theorem writes_linkKind (m : WorldMap) (d : CellCoord) (s : Scope) (k : Kind) (g : Guid) :
    m.Writes (m.linkKind d s k g).2 := by
  rw [linkKind]
  split
  · exact .refl
  · rename_i grid m₁ hload
    have hloaded : m.Writes m₁ := .single (.load hload)
    exact hloaded.tail (.grid (grid?_load hload) (.add grid d s k g))

theorem writes_unlink (h : m.unlink pl = .ok m') : m.Writes m' := by
  rw [unlink] at h
  split at h
  · cases h
  · rename_i hg
    split at h
    · cases h
    · rename_i hera
      cases h
      exact .single (.grid hg (.erase? hera))

theorem writes_enroll {linked : Except Fault Link × WorldMap} (h : m.Writes linked.2) (g : Guid)
    (p : Position) (s : Scope) (d : CellCoord) : m.Writes (enroll linked g p s d).map := by
  obtain ⟨result, m₁⟩ := linked
  cases result with
  | error f => exact h
  | ok link => exact h.tail (.place _)

/-! ## Operations -/

theorem writes_add (m : WorldMap) (g : Guid) (p : Position) (s : Scope) :
    m.Writes (m.add g p s).map := by
  rw [add]
  split
  · exact .refl
  · split
    · exact .refl
    · exact writes_enroll (writes_link ..) ..

theorem writes_addKind (m : WorldMap) (k : Kind) (g : Guid) (p : Position) (s : Scope) :
    m.Writes (m.addKind k g p s).map := by
  rw [addKind]
  split
  · exact .refl
  · split
    · exact .refl
    · exact writes_enroll (writes_linkKind ..) ..

theorem writes_remove (m : WorldMap) (g : Guid) : m.Writes (m.remove g).map := by
  rw [remove]
  split
  · exact .refl
  · have hdropped : m.Writes (m.displace g) := .single (.displace g)
    dsimp only
    split
    · exact hdropped
    · rename_i hun
      exact hdropped.trans (writes_unlink hun)

theorem writes_relocate (m : WorldMap) (g : Guid) (p : Position) :
    m.Writes (m.relocate g p).map := by
  rw [relocate]
  split
  · exact .refl
  · rename_i current _
    split
    · exact .refl
    · rename_i cell _
      dsimp only
      split
      · exact .single (.place _)
      · split
        · exact .refl
        · rename_i m₁ hun
          have hlink := (writes_unlink hun).trans (writes_link m₁ cell current.scope g)
          split
          · rename_i h
            rw [h] at hlink
            exact hlink.tail (.displace g)
          · rename_i h
            rw [h] at hlink
            exact hlink.tail (.place _)

theorem writes_apply (m : WorldMap) (t : Task) : m.Writes (m.apply t).map := by
  cases t with
  | add g p s => exact writes_add m g p s
  | remove g => exact writes_remove m g
  | relocate g p => exact writes_relocate m g p

theorem writes_applyAll (r : TaskRun) (ts : List Task) :
    r.map.Writes (ts.foldl TaskRun.next r).map := by
  induction ts generalizing r with
  | nil => exact .refl
  | cons t ts ih =>
    refine (writes_apply r.map t).trans ?_
    rw [← map_next]
    exact ih (r.next t)

theorem writes_served (m : WorldMap) : m.Writes m.served :=
  .trans (.single (.requeue m.restQueue)) (writes_applyAll { map := m.requeue m.restQueue } m.batch)

/-! ## What writes leave alone -/

theorem sameRecords_load (h : m.load c = .ok (grid, m')) : m.SameRecords m' := by
  rw [load] at h
  split at h
  · cases h
  · split at h
    · cases h; exact .refl m
    · cases h; exact ⟨rfl, rfl, rfl, rfl⟩

theorem sameRecords_link (m : WorldMap) (d : CellCoord) (s : Scope) (g : Guid) :
    m.SameRecords (m.link d s g).2 := by
  rw [link]
  split
  · exact .refl m
  · rename_i hload
    split
    · exact sameRecords_load hload
    · exact (sameRecords_load hload).trans (.setGrid ..)

theorem sameRecords_unlink (h : m.unlink pl = .ok m') : m.SameRecords m' := by
  rw [unlink] at h
  split at h
  · cases h
  · split at h
    · cases h
    · cases h
      exact .setGrid ..

theorem Write.id (h : m.Write m') : m'.id = m.id := by
  cases h with
  | load h => exact (sameRecords_load h).id
  | grid | place | displace | requeue => rfl

theorem Writes.id (h : m.Writes m') : m'.id = m.id := by
  induction h with
  | refl => rfl
  | tail _ hw ih => exact hw.id.trans ih

/-- No grid has gone, aged or been locked, and those that have come are new. -/
structure Spares (m m' : WorldMap) : Prop where
  config : m'.config = m.config
  loaded : ∀ {c : GridCoord} {grid : Grid}, m.grid? c = some grid →
    ∃ grid', m'.grid? c = some grid' ∧ grid.SameAge grid'
  fresh : ∀ {c : GridCoord} {grid' : Grid}, m.grid? c = none → m'.grid? c = some grid' →
    (m.freshGrid c).SameAge grid'

theorem Spares.of_grid? (hconfig : m'.config = m.config) (h : m'.grid? = m.grid?) :
    m.Spares m' where
  config := hconfig
  loaded hg := ⟨_, by rw [h]; exact hg, .refl _⟩
  fresh hg hg' := by rw [h, hg] at hg'; exact nomatch hg'

theorem Spares.refl (m : WorldMap) : m.Spares m := .of_grid? rfl rfl

theorem Spares.getD (h : m.Spares m') (hg : m'.grid? c = some grid) :
    ((m.grid? c).getD (m.freshGrid c)).SameAge grid := by
  cases hold : m.grid? c with
  | none => exact h.fresh hold hg
  | some old =>
    obtain ⟨_, hsome, hs⟩ := h.loaded hold
    rw [hg] at hsome
    cases hsome
    exact hs

theorem Spares.trans (h : m.Spares m') (h' : m'.Spares m'') : m.Spares m'' where
  config := h'.config.trans h.config
  loaded hg := by
    obtain ⟨grid', hg', hs⟩ := h.loaded hg
    obtain ⟨grid'', hg'', hs'⟩ := h'.loaded hg'
    exact ⟨grid'', hg'', hs.trans hs'⟩
  fresh {c grid''} hg hg'' := by
    cases hg' : m'.grid? c with
    | none =>
      have hnew := h'.fresh hg' hg''
      rwa [freshGrid, h.config, ← freshGrid] at hnew
    | some grid' =>
      obtain ⟨_, hsome, hs⟩ := h'.loaded hg'
      rw [hg''] at hsome
      cases hsome
      exact (h.fresh hg hg').trans hs

/-- One grid is put in place of one as old, or is as old as a new one. -/
theorem Spares.of_change {new : Grid} (hconfig : m'.config = m.config)
    (hgrid : ∀ c', m'.grid? c' = if c' = c then some new else m.grid? c')
    (hnew : ((m.grid? c).getD (m.freshGrid c)).SameAge new) : m.Spares m' where
  config := hconfig
  loaded {c' old} hold := by
    rw [hgrid]
    split
    · rename_i he
      rw [← he, hold] at hnew
      exact ⟨new, rfl, hnew⟩
    · exact ⟨old, hold, .refl old⟩
  fresh {c' grid'} hnone hg' := by
    rw [hgrid] at hg'
    split at hg'
    · rename_i he
      cases hg'
      rw [← he, hnone] at hnew
      exact hnew
    · rw [hnone] at hg'
      exact nomatch hg'

theorem Write.spares (h : m.Write m') : m.Spares m' := by
  cases h with
  | load h =>
    obtain ⟨hnew, hgrid⟩ := load_eq_ok h
    exact .of_change (sameRecords_load h).config hgrid (hnew ▸ .refl _)
  | grid hg hs =>
    exact .of_change rfl (grid?_setGrid (grid?_eq_some.1 hg).1) (by rw [hg]; exact hs)
  | place | displace | requeue => exact .of_grid? rfl rfl

theorem Writes.spares (h : m.Writes m') : m.Spares m' := by
  induction h with
  | refl => exact .refl m
  | tail _ hw ih => exact ih.trans hw.spares

end WorldMap
end Realm
