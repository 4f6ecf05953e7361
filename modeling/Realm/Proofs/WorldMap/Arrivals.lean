import Mathlib.Data.List.Dedup
import Realm.Proofs.WorldMap.Range
import Realm.Proofs.WorldMap.Register

/-! # Arrivals

A visit comes to the objects of an area cell by cell and kind by kind, and inside a kind in the
order in which they last entered the cell. That order is read off the answers that the map gave. -/

namespace Realm

/-! ## What the answers tell -/

/-- An object has entered a cell. -/
structure Arrival where
  cell : CellCoord
  guid : Guid
  deriving DecidableEq, Repr

/-- Who entered a cell, once for every time. -/
def Arrival.into (d : CellCoord) (log : List Arrival) : List Guid :=
  (log.filter (·.cell = d)).map (·.guid)

/-- Of several occurrences the last one counts. -/
theorem dedup_concat {α : Type} [DecidableEq α] (l : List α) (x : α) :
    (l ++ [x]).dedup = l.dedup.filter (· ≠ x) ++ [x] := by
  induction l with
  | nil => rfl
  | cons y l ih =>
    rw [List.cons_append]
    by_cases hy : y ∈ l
    · rw [List.dedup_cons_of_mem (List.mem_append_left _ hy), ih, List.dedup_cons_of_mem hy]
    · rw [List.dedup_cons_of_notMem hy]
      rcases eq_or_ne y x with rfl | hyx
      · rw [List.dedup_cons_of_mem (List.mem_append_right _ (List.mem_singleton_self y)), ih,
          List.filter_cons_of_neg (by simp)]
      · have hnew : y ∉ l ++ [x] := by simp [hy, hyx]
        rw [List.dedup_cons_of_notMem hnew, ih, List.filter_cons_of_pos (by simpa using hyx),
          List.cons_append]

theorem Arrival.into_concat (d : CellCoord) (log : List Arrival) (e : Arrival) :
    into d (log ++ [e]) = into d log ++ if e.cell = d then [e.guid] else [] := by
  rw [into, List.filter_append, List.map_append, into]
  congr 1
  split
  · rename_i he
    simp [he]
  · rename_i he
    simp [he]

namespace WorldMap

variable {m m' : WorldMap} {d : CellCoord} {s : Scope} {k : Kind} {g g' : Guid} {p : Position}
  {log new : List Arrival} {a : Area} {mask : KindMask}

/-- An addition answers with the cell that the object has entered. -/
def arrivalOfAdd (g : Guid) : Except Fault CellCoord → List Arrival
  | .ok d => [⟨d, g⟩]
  | .error _ => []

/-- A move inside a cell is no arrival. -/
def arrivalOfMove (g : Guid) : Except Fault Relocation → List Arrival
  | .ok r => if r.changedCell then [⟨r.target, g⟩] else []
  | .error _ => []

def arrivalOfTask (m : WorldMap) : Task → List Arrival
  | .add g p s => arrivalOfAdd g (m.add g p s).result
  | .remove _ => []
  | .relocate g p => arrivalOfMove g (m.relocate g p).result

def arrivalsOfTasks (m : WorldMap) : List Task → List Arrival
  | [] => []
  | t :: ts => m.arrivalOfTask t ++ (m.apply t).map.arrivalsOfTasks ts

def Op.arrivals (m : WorldMap) : Op → List Arrival
  | .add g p s => arrivalOfAdd g (m.add g p s).result
  | .addKind k s _ g p => arrivalOfAdd g (m.addKind k g p s).result
  | .relocate g p => arrivalOfMove g (m.relocate g p).result
  | .apply t => m.arrivalOfTask t
  | .update _ => (m.requeue m.restQueue).arrivalsOfTasks m.batch
  | .remove _ | .load .. | .unload .. | .lock .. | .requeue _ => []

/-- All arrivals during a sequence of operations, the last one at the end. -/
def arrivals (m : WorldMap) : List Op → List Arrival
  | [] => []
  | op :: ops => op.arrivals m ++ (op.run m).map.arrivals ops

/-! ## Order of arrival -/

/-- Every cell lists its objects in the order in which they last entered it. -/
def InOrder (m : WorldMap) (log : List Arrival) : Prop :=
  ∀ d s k, (m.guids d s k).Sublist (Arrival.into d log).dedup

/-- The cells of `m'` list what those of `m` list, or less, and at the end what has arrived. -/
inductive Admits (m m' : WorldMap) : List Arrival → Prop
  | none (h : ∀ d s k, (m'.guids d s k).Sublist (m.guids d s k)) : Admits m m' []
  | one {e : Arrival} (h : ∀ d s k, (m'.guids d s k).Sublist
      ((m.guids d s k).filter (· ≠ e.guid) ++ if e.cell = d then [e.guid] else [])) :
      Admits m m' [e]

theorem Admits.refl (m : WorldMap) : m.Admits m [] := .none fun _ _ _ => .refl _

theorem Admits.keeps (hm : m.Shelved) (h : m.Keeps m') : m.Admits m' [] :=
  .none fun d s k => by
    rw [guids, h.listed hm]
    exact .refl _

/-- An object that enters the end of one list arrives in one cell. -/
theorem Admits.enters (h : ∀ d' t q, m'.guids d' t q = (m.guids d' t q).filter (· ≠ g) ++
    if some (d, s) = some (d', t) ∧ g.kind = q then [g] else []) : m.Admits m' [⟨d, g⟩] := by
  refine .one fun d' t q => ?_
  rw [h]
  refine List.Sublist.append_left ?_ _
  split
  · rename_i he
    rw [if_pos (Prod.mk.inj (Option.some.inj he.1)).1]
  · exact List.nil_sublist _

theorem InOrder.admits (hlog : m.InOrder log) (h : m.Admits m' new) : m'.InOrder (log ++ new) := by
  intro d s k
  cases h with
  | none h =>
    rw [List.append_nil]
    exact (h d s k).trans (hlog d s k)
  | @one e h =>
    refine (h d s k).trans ?_
    rw [Arrival.into_concat]
    split
    · -- in the log, as in the list, an earlier arrival gives way to the new one
      rw [dedup_concat]
      exact ((hlog d s k).filter _).append_right _
    · rw [List.append_nil, List.append_nil]
      exact List.filter_sublist.trans (hlog d s k)

theorem inOrder_new (id : MapId) (config : MapConfig) : InOrder { id, config } [] := by
  intro d s k
  simp [guids, listed, grid?]

/-! ## Single operations -/

theorem Indexed.admits_enter (h : m.Indexed) (hg : m.placement? g = none) (hs : s.Holds g.kind)
    (hp : p.IsValid) : m.Admits (m.enter g p s p.cellCoord).map
      (arrivalOfAdd g (m.enter g p s p.cellCoord).result) := by
  obtain ⟨l, m', henter, -⟩ := h.enter hg hs hp
  have hlog : arrivalOfAdd g (m.enter g p s p.cellCoord).result = [⟨p.cellCoord, g⟩] := by
    rw [henter]
    rfl
  rw [hlog]
  refine .enters (s := s) fun d t q => ?_
  rw [h.guids_enter hs hp, h.filter_guids hg]

theorem Indexed.admits_add (h : m.Indexed) (g : Guid) (p : Position) (s : Scope) :
    m.Admits (m.add g p s).map (arrivalOfAdd g (m.add g p s).result) := by
  by_cases hok : m.placement? g = none ∧ s.Holds g.kind ∧ p.IsValid
  · obtain ⟨hg, hs, hp⟩ := hok
    rw [add_eq_enter hg hs hp]
    exact h.admits_enter hg hs hp
  · obtain ⟨f, hf⟩ := add_refused hok
    rw [hf]
    exact .refl m

theorem Indexed.admits_addKind (h : m.Indexed) (hs : s.Holds k) (g : Guid) (p : Position) :
    m.Admits (m.addKind k g p s).map (arrivalOfAdd g (m.addKind k g p s).result) := by
  by_cases hok : g.kind = k ∧ m.placement? g = none ∧ p.IsValid
  · obtain ⟨rfl, hg, hp⟩ := hok
    rw [addKind_eq_enter hs rfl hg hp]
    exact h.admits_enter hg hs hp
  · obtain ⟨f, hf⟩ := addKind_refused (s := s) hok
    rw [hf]
    exact .refl m

theorem Indexed.admits_remove (h : m.Indexed) (g : Guid) : m.Admits (m.remove g).map [] := by
  cases hg : m.placement? g with
  | none =>
    obtain ⟨f, hf⟩ := remove_refused hg
    rw [hf]
    exact .refl m
  | some pl =>
    refine .none fun d t q => ?_
    rw [h.guids_remove hg]
    exact List.filter_sublist

theorem Indexed.admits_relocate (h : m.Indexed) (g : Guid) (p : Position) :
    m.Admits (m.relocate g p).map (arrivalOfMove g (m.relocate g p).result) := by
  by_cases hok : (m.placement? g).isSome ∧ p.IsValid
  · obtain ⟨hsome, hp⟩ := hok
    obtain ⟨pl, hg⟩ := Option.isSome_iff_exists.1 hsome
    have hguids := h.guids_relocate hg hp
    have hlog : arrivalOfMove g (m.relocate g p).result =
        if pl.cell = p.cellCoord then [] else [⟨p.cellCoord, g⟩] := by
      obtain ⟨l, m', hmove, -⟩ := h.relocate hg hp
      rw [hmove]
      by_cases hcell : pl.cell = p.cellCoord <;> simp [arrivalOfMove, Relocation.changedCell, hcell]
    rw [hlog]
    split
    · rename_i hcell
      refine .none fun d t q => ?_
      rw [hguids, if_pos hcell.symm]
    · rename_i hcell
      refine .enters (s := pl.scope) fun d t q => ?_
      rw [hguids, if_neg (Ne.symm hcell)]
  · obtain ⟨f, hf⟩ := relocate_refused hok
    rw [hf]
    exact .refl m

/-! ## Tasks and updates -/

theorem Indexed.admits_apply (h : m.Indexed) (t : Task) :
    m.Admits (m.apply t).map (m.arrivalOfTask t) := by
  cases t with
  | add g p s => exact h.admits_add g p s
  | remove g => exact h.admits_remove g
  | relocate g p => exact h.admits_relocate g p

theorem InOrder.tasks {r : TaskRun} (h : r.map.Indexed) (hlog : r.map.InOrder log)
    (ts : List Task) :
    (ts.foldl TaskRun.next r).map.InOrder (log ++ r.map.arrivalsOfTasks ts) := by
  induction ts generalizing r log with
  | nil => rwa [arrivalsOfTasks, List.append_nil]
  | cons t ts ih =>
    rw [List.foldl_cons, arrivalsOfTasks, ← List.append_assoc, ← map_next]
    refine ih ?_ ?_
    · rw [map_next]
      exact (Follows.apply h t).indexed
    · rw [map_next]
      exact hlog.admits (h.admits_apply t)

theorem InOrder.update (h : m.Indexed) (hlog : m.InOrder log) (diff : Duration) :
    (m.update diff).1.InOrder (log ++ (m.requeue m.restQueue).arrivalsOfTasks m.batch) := by
  have hserved := InOrder.tasks (r := { map := m.requeue m.restQueue }) (h.requeue m.restQueue)
    hlog m.batch
  have hhouse := hserved.admits (.keeps h.served.toShelved (.served m diff))
  rwa [List.append_nil] at hhouse

/-! ## Runs -/

theorem InOrder.run (h : m.Indexed) (hlog : m.InOrder log) (op : Op) :
    (op.run m).map.InOrder (log ++ op.arrivals m) := by
  cases op with
  | add g p s => exact hlog.admits (h.admits_add g p s)
  | addKind k s held g p => exact hlog.admits (h.admits_addKind held g p)
  | remove g => exact hlog.admits (h.admits_remove g)
  | relocate g p => exact hlog.admits (h.admits_relocate g p)
  | load c tweaks =>
    refine hlog.admits ?_
    simp only [Op.run]
    split
    · rename_i m' hm
      exact .keeps h.toShelved (.modifyGrid (.tweaks tweaks) hm)
    · exact .refl m
  | unload c force =>
    exact hlog.admits (.none fun d s k => (listed_unload m c force d s k).map _)
  | lock c on => exact hlog.admits (.keeps h.toShelved (.lockGrid m c on))
  | apply t => exact hlog.admits (h.admits_apply t)
  | requeue queue => exact hlog.admits (.none fun _ _ _ => .refl _)
  | update diff => exact hlog.update h diff

theorem InOrder.runAll (h : m.Indexed) (hlog : m.InOrder log) (ops : List Op) :
    (m.runAll ops).InOrder (log ++ m.arrivals ops) := by
  induction ops generalizing m log with
  | nil => rwa [arrivals, List.append_nil]
  | cons op ops ih =>
    rw [arrivals, ← List.append_assoc]
    exact ih (Follows.run h op).indexed (hlog.run h op)

/-! ## Visits -/

/-- `g` comes before `g'` in visits of a scope: its cell comes first, row by row, or in one cell its
kind does, or it is of the same kind and has entered the cell first. -/
def Precedes (m : WorldMap) (log : List Arrival) (s : Scope) (g g' : Guid) : Prop :=
  ∃ p p', m.placement? g = some p ∧ m.placement? g' = some p' ∧
    (p.cell.RowMajor p'.cell ∨ p.cell = p'.cell ∧
      ([g.kind, g'.kind].Sublist s.kinds ∨
        g.kind = g'.kind ∧ [g, g'].Sublist (Arrival.into p.cell log).dedup))

theorem Indexed.ordered_visitCell (h : m.Indexed) (hlog : m.InOrder log) (d : CellCoord) (s : Scope)
    (mask : KindMask) : (m.visitCell d s mask).Pairwise (m.Precedes log s) := by
  have hlisted {k : Kind} {g : Guid} (hg : g ∈ m.guids d s k) :
      ∃ p, m.placement? g = some p ∧ p.cell = d ∧ g.kind = k := by
    obtain ⟨⟨l, g⟩, hl, rfl⟩ := List.mem_map.1 hg
    obtain ⟨p, hp, hd, -, hk, -⟩ := h.entry.1 hl
    exact ⟨p, hp, hd, hk⟩
  have hkinds : (Compartment.kinds s mask).Pairwise fun k k' => [k, k'].Sublist s.kinds :=
    List.pairwise_iff_forall_sublist.2 fun hsub => hsub.trans List.filter_sublist
  rw [visitCell_eq]
  refine List.pairwise_flatMap.2 ⟨fun k _ => ?_, hkinds.imp fun {k k'} hkk g hg g' hg' => ?_⟩
  · -- two objects of one list stand in the order of arrival, as the list does
    refine List.pairwise_iff_forall_sublist.2 fun {g g'} hsub => ?_
    obtain ⟨p, hp, rfl, hk⟩ := hlisted (g := g) (hsub.subset (by simp))
    obtain ⟨p', hp', hd', hk'⟩ := hlisted (g := g') (hsub.subset (by simp))
    exact ⟨p, p', hp, hp', .inr ⟨hd'.symm, .inr ⟨hk.trans hk'.symm, hsub.trans (hlog ..)⟩⟩⟩
  · obtain ⟨p, hp, rfl, rfl⟩ := hlisted hg
    obtain ⟨p', hp', hd', rfl⟩ := hlisted hg'
    exact ⟨p, p', hp, hp', .inr ⟨hd'.symm, .inl hkk⟩⟩

theorem Indexed.ordered_visit (h : m.Indexed) (hlog : m.InOrder log) (a : Area) (s : Scope)
    (mask : KindMask) : (m.visit a s mask).Pairwise (m.Precedes log s) := by
  refine List.pairwise_flatMap.2
    ⟨fun d _ => h.ordered_visitCell hlog d s mask, a.ordered_cells.imp fun hlt g hg g' hg' => ?_⟩
  obtain ⟨p, hp, rfl, -⟩ := h.mem_visitCell.1 hg
  obtain ⟨p', hp', rfl, -⟩ := h.mem_visitCell.1 hg'
  exact ⟨p, p', hp, hp', .inl hlt⟩

/-- What a visit of an area comes to: each object that is placed there once, in order. -/
structure Visits (m : WorldMap) (log : List Arrival) (a : Area) (s : Scope) (mask : KindMask)
    (seen : List Guid) : Prop where
  once : seen.Nodup
  placed : ∀ g, g ∈ seen ↔ ∃ p, m.placement? g = some p ∧ a.Contains p.cell ∧ p.scope = s ∧
    mask.has g.kind = true
  ordered : seen.Pairwise (m.Precedes log s)

theorem Indexed.visits (h : m.Indexed) (hlog : m.InOrder log) (a : Area) (s : Scope)
    (mask : KindMask) : m.Visits log a s mask (m.visit a s mask) where
  once := h.nodup_visit_area a s mask
  placed _ := h.mem_visit
  ordered := h.ordered_visit hlog a s mask

/-- On a map after any operations, a visit is exact, and the order in it is that of the cells, of
the kinds and of the arrivals during these operations. -/
theorem visits_runAll (id : MapId) (config : MapConfig) (ops : List Op) (a : Area) (s : Scope)
    (mask : KindMask) :
    (runAll { id, config } ops).Visits (arrivals { id, config } ops) a s mask
      ((runAll { id, config } ops).visit a s mask) :=
  have hnew := indexed_new id config
  (hnew.runAll ops).visits (InOrder.runAll hnew (inOrder_new id config) ops) a s mask

/-- Who leaves a cell and comes back is visited last. -/
example :
    let home := Position.flat 0 0
    let ops : List Op := [.add ⟨.creature, 1⟩ home .grid, .add ⟨.creature, 2⟩ home .grid,
      .relocate ⟨.creature, 1⟩ (.flat 600 0), .relocate ⟨.creature, 1⟩ home]
    (runAll { id := 0, config := {} } ops).visit ⟨home.cellCoord, home.cellCoord⟩ .grid .all =
      [⟨.creature, 2⟩, ⟨.creature, 1⟩] := by
  decide +kernel

end WorldMap
end Realm
