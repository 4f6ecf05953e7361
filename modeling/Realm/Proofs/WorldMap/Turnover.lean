import Realm.Proofs.WorldMap.Coverage
import Realm.Proofs.WorldMap.Writes

/-! # Turnover of grids

An update loads grids in two places: its tasks load the grids that they lead into, and then the
grids near world-scoped objects are loaded. Last it drops the grids that are due. The statistics of
an update count what was loaded and dropped after the tasks. So they account for the grids of a map
up to those that tasks loaded. -/

namespace Realm

/-- The grid into which a task leads its object. -/
def Task.target? : Task → Option GridCoord
  | .add _ p _ | .relocate _ p => some (CellCoord.gridCoord p.cellCoord)
  | .remove _ => none

namespace WorldMap

variable {m m' : WorldMap} {c : GridCoord} {d : CellCoord} {s : Scope} {g : Guid} {pl : Placement}
  {p : Position} {t : Task} {diff : Duration}

/-! ## Loaded grids compared -/

def loadedCoords (m : WorldMap) : List GridCoord := m.loadedGrids.map (·.coord)

theorem isLoaded_iff : m.isLoaded c ↔ ∃ grid, m.grid? c = some grid := Option.isSome_iff_exists

theorem Indexed.mem_loadedCoords (h : m.Indexed) : c ∈ m.loadedCoords ↔ m.isLoaded c := by
  rw [loadedCoords, List.mem_map, isLoaded_iff]
  constructor
  · rintro ⟨grid, hgrid, rfl⟩
    exact ⟨grid, h.grid? hgrid⟩
  · rintro ⟨grid, hgrid⟩
    exact ⟨grid, mem_loadedGrids.2 ⟨_, (grid?_eq_some.1 hgrid).2⟩, h.coord_eq hgrid⟩

theorem Indexed.nodup_loadedCoords (h : m.Indexed) : m.loadedCoords.Nodup := by
  refine List.Nodup.of_map (·.id.toNat) ?_
  rw [loadedCoords, List.map_map]
  exact h.map_id_loadedGrids ▸ Std.ExtTreeMap.nodup_keys

theorem Indexed.length_loadedCoords (h : m.Indexed) : m.loadedCoords.length = m.loadedCount := by
  rw [h.counted, ← Std.ExtTreeMap.length_keys, ← h.map_id_loadedGrids, loadedCoords,
    List.length_map, List.length_map]

/-- The grids that `m'` has and `m` has not. -/
def gains (m m' : WorldMap) : List GridCoord := m'.loadedCoords.filter fun c => !m.isLoaded c

theorem Indexed.mem_gains (h' : m'.Indexed) :
    c ∈ m.gains m' ↔ m'.isLoaded c ∧ m.isLoaded c = false := by
  rw [gains, List.mem_filter, h'.mem_loadedCoords, Bool.not_eq_true']

theorem Indexed.nodup_gains (h' : m'.Indexed) : (m.gains m').Nodup := h'.nodup_loadedCoords.filter _

theorem Indexed.gains_eq_nil (h' : m'.Indexed) (hle : ∀ c, m'.isLoaded c → m.isLoaded c) :
    m.gains m' = [] := by
  rw [List.eq_nil_iff_forall_not_mem]
  intro c hc
  obtain ⟨hin, hout⟩ := h'.mem_gains.1 hc
  rw [hle c hin] at hout
  exact nomatch hout

/-- What one of two maps has more is what the other one has not. -/
theorem Indexed.balance (h : m.Indexed) (h' : m'.Indexed) :
    m'.loadedCount + (m'.gains m).length = m.loadedCount + (m.gains m').length := by
  have hboth : (m'.loadedCoords.filter m.isLoaded).Perm (m.loadedCoords.filter m'.isLoaded) := by
    refine (List.perm_ext_iff_of_nodup (h'.nodup_loadedCoords.filter _)
      (h.nodup_loadedCoords.filter _)).2 fun c => ?_
    rw [List.mem_filter, List.mem_filter, h.mem_loadedCoords, h'.mem_loadedCoords, and_comm]
  have hsplit := m.loadedCoords.length_eq_length_filter_add m'.isLoaded
  have hsplit' := m'.loadedCoords.length_eq_length_filter_add m.isLoaded
  rw [h.length_loadedCoords] at hsplit
  rw [h'.length_loadedCoords, hboth.length_eq] at hsplit'
  rw [hsplit, hsplit', gains, gains]
  omega

/-! ## Grids that tasks load -/

theorem isLoaded_setGrid {grid : Grid} (hc : c.IsValid) (c' : GridCoord) :
    (m.setGrid c grid).isLoaded c' ↔ c' = c ∨ m.isLoaded c' := by
  rw [isLoaded, grid?_setGrid hc]
  split <;> simp_all [isLoaded]

theorem isLoaded_link (hd : d.IsValid) (c : GridCoord) :
    (m.link d s g).2.isLoaded c ↔ c = CellCoord.gridCoord d ∨ m.isLoaded c := by
  have hc := CellCoord.gridCoord_isValid.2 hd
  obtain ⟨grid, m₁, hload, -⟩ := load_spec (m := m) hc
  have hloaded (c' : GridCoord) :
      m₁.isLoaded c' ↔ c' = CellCoord.gridCoord d ∨ m.isLoaded c' := by
    rw [isLoaded, (load_eq_ok hload).2]
    split <;> simp_all [isLoaded]
  rw [link, hload]
  dsimp only
  split
  · exact hloaded c
  · rw [isLoaded_setGrid hc, hloaded, or_self_left]

theorem isLoaded_unlink (h : m.unlink pl = .ok m') (c : GridCoord) :
    m'.isLoaded c ↔ m.isLoaded c := by
  rw [unlink] at h
  split at h
  · cases h
  · rename_i grid hgrid
    split at h
    · cases h
    · cases h
      rw [isLoaded_setGrid (grid?_eq_some.1 hgrid).1, or_iff_right_iff_imp]
      rintro rfl
      exact isLoaded_iff.2 ⟨grid, hgrid⟩

/-- The grid of a placement is loaded. -/
theorem Indexed.isLoaded_gridCoord (h : m.Indexed) (hg : m.placement? g = some pl) :
    m.isLoaded (CellCoord.gridCoord pl.cell) := by
  obtain ⟨grid, hgrid, -⟩ := mem_listed.1 (h.listed_self hg)
  exact isLoaded_iff.2 ⟨grid, hgrid⟩

theorem Indexed.isLoaded_add (h : m.Indexed) (hg : m.placement? g = none) (hs : s.Holds g.kind)
    (hp : p.IsValid) (c : GridCoord) : (m.add g p s).map.isLoaded c ↔
      c = CellCoord.gridCoord p.cellCoord ∨ m.isLoaded c := by
  obtain ⟨l, m', hlink, -⟩ := h.link hg hp.cellCoord hs hp rfl
  have hloaded := isLoaded_link (m := m) (s := s) (g := g) hp.cellCoord c
  rw [hlink] at hloaded
  rw [add_eq_enter hg hs hp, enter_of_link hlink]
  exact hloaded

theorem Indexed.isLoaded_remove (h : m.Indexed) (g : Guid) (c : GridCoord) :
    (m.remove g).map.isLoaded c ↔ m.isLoaded c := by
  cases hg : m.placement? g with
  | none =>
    obtain ⟨f, hf⟩ := remove_refused hg
    rw [hf]
    rfl
  | some pl =>
    obtain ⟨m', hun, -⟩ := h.unlink hg
    rw [remove_of_unlink hg hun]
    exact isLoaded_unlink hun c

theorem Indexed.isLoaded_relocate (h : m.Indexed) (hg : m.placement? g = some pl) (hp : p.IsValid)
    (c : GridCoord) : (m.relocate g p).map.isLoaded c ↔
      c = CellCoord.gridCoord p.cellCoord ∨ m.isLoaded c := by
  by_cases hcell : pl.cell = p.cellCoord
  · rw [relocate_within hg hp hcell, ← hcell]
    refine (or_iff_right_of_imp ?_).symm
    rintro rfl
    exact h.isLoaded_gridCoord hg
  · obtain ⟨m₁, hrem, hout⟩ := h.remove hg
    have hfits := (h.fits hg).2
    have hself := (h.fits hg).1
    have hgone : m₁.placement? g = none := by rw [hout.placement?, Function.update_self]
    have hrest := h.isLoaded_remove g c
    rw [h.relocate_across hg hp hcell]
    rw [hrem] at hrest ⊢
    rw [hout.indexed.isLoaded_add hgone (hself ▸ hfits.held) hp, hrest]

/-- A task that is accepted loads the grid into which it leads, and no task does more to what is
loaded. -/
theorem Indexed.isLoaded_apply (h : m.Indexed) (t : Task) (c : GridCoord) :
    (m.apply t).map.isLoaded c ↔
      ((m.apply t).result.isOk ∧ t.target? = some c) ∨ m.isLoaded c := by
  cases t with
  | add g p s =>
    by_cases hok : m.placement? g = none ∧ s.Holds g.kind ∧ p.IsValid
    · obtain ⟨hg, hs, hp⟩ := hok
      have hloaded := h.isLoaded_add hg hs hp c
      obtain ⟨l, m', hadd, -⟩ := h.add hg hs hp
      rw [hadd] at hloaded
      simpa [apply, hadd, Outcome.map', Task.target?, Except.map, Except.isOk, Except.toBool,
        eq_comm (a := c)] using hloaded
    · obtain ⟨f, hf⟩ := add_refused hok
      simp [apply, hf, refuse, Outcome.map', Except.map, Except.isOk, Except.toBool]
  | remove g =>
    have hloaded := h.isLoaded_remove g c
    simpa [apply, Outcome.map', Task.target?] using hloaded
  | relocate g p =>
    by_cases hok : (m.placement? g).isSome ∧ p.IsValid
    · obtain ⟨hsome, hp⟩ := hok
      obtain ⟨pl, hg⟩ := Option.isSome_iff_exists.1 hsome
      have hloaded := h.isLoaded_relocate hg hp c
      obtain ⟨l, m', hmove, -⟩ := h.relocate hg hp
      rw [hmove] at hloaded
      simpa [apply, hmove, Outcome.map', Task.target?, Except.map, Except.isOk, Except.toBool,
        eq_comm (a := c)] using hloaded
    · obtain ⟨f, hf⟩ := relocate_refused hok
      simp [apply, hf, refuse, Outcome.map', Except.map, Except.isOk, Except.toBool]

/-- The grids into which tasks lead, one after the other, those tasks left out that are refused. -/
def entered (m : WorldMap) : List Task → List GridCoord
  | [] => []
  | t :: ts =>
    let o := m.apply t
    (if o.result.isOk then t.target?.toList else []) ++ o.map.entered ts

theorem TaskRun.isLoaded_foldl {r : TaskRun} (h : r.map.Indexed) (ts : List Task) (c : GridCoord) :
    (ts.foldl next r).map.isLoaded c ↔ c ∈ r.map.entered ts ∨ r.map.isLoaded c := by
  induction ts generalizing r with
  | nil => simp [entered]
  | cons t ts ih =>
    have hnext : (r.next t).map.Indexed := by
      rw [map_next]
      exact (Follows.apply h t).indexed
    have hhead : c ∈ (if (r.map.apply t).result.isOk then t.target?.toList else []) ↔
        (r.map.apply t).result.isOk ∧ t.target? = some c := by
      split <;> simp_all
    rw [List.foldl_cons, ih hnext, map_next, h.isLoaded_apply, entered, List.mem_append, hhead,
      or_assoc]
    exact or_left_comm

/-- The grids into which the tasks of the next update lead. -/
def opened (m : WorldMap) : List GridCoord := (m.requeue m.restQueue).entered m.batch

theorem Indexed.isLoaded_served (h : m.Indexed) (c : GridCoord) :
    m.served.isLoaded c ↔ c ∈ m.opened ∨ m.isLoaded c :=
  TaskRun.isLoaded_foldl (r := { map := m.requeue m.restQueue }) (h.requeue m.restQueue) m.batch c

/-! ## Grids that an update loads and drops after its tasks -/

theorem isLoaded_warmed (m : WorldMap) (c : GridCoord) :
    m.warmed.isLoaded c ↔ m.Near c ∨ m.isLoaded c := by
  by_cases hc : c.IsValid
  · have hnear : c.id.toNat ∈ m.covered ↔ m.Near c := (and_iff_right hc).symm
    rw [isLoaded, warmed, grid?_foldl_activate m.exists_of_mem_covered hc]
    simp only [Std.ExtTreeSet.mem_toList, hnear]
    split <;> simp_all [isLoaded]
  · have hfar : ¬m.Near c := fun h => hc h.1
    simp [isLoaded, grid?_of_not_valid hc, hfar]

/-- After the tasks a grid comes if it is near and was not loaded. -/
theorem Indexed.mem_gains_update (h : m.Indexed) : c ∈ m.served.gains (m.update diff).1 ↔
    m.served.Near c ∧ m.served.isLoaded c = false := by
  rw [(Follows.update h diff).indexed.mem_gains, h.isLoaded_update]
  refine and_congr_left fun hout => or_iff_left ?_
  rintro ⟨grid, hgrid, -⟩
  rw [isLoaded, hgrid] at hout
  exact Bool.false_ne_true hout.symm

/-- A grid goes if it is not near and has aged enough. -/
theorem Indexed.mem_gains_served (h : m.Indexed) : c ∈ (m.update diff).1.gains m.served ↔
    ∃ grid, m.served.grid? c = some grid ∧ ¬m.served.Near c ∧ grid.age diff = none := by
  rw [h.served.mem_gains, ← Bool.not_eq_true, h.isLoaded_update, isLoaded_iff]
  constructor
  · rintro ⟨⟨grid, hgrid⟩, hout⟩
    refine ⟨grid, hgrid, fun hnear => hout (.inl hnear), ?_⟩
    rw [← Option.not_isSome_iff_eq_none]
    exact fun hage => hout (.inr ⟨grid, hgrid, hage⟩)
  · rintro ⟨grid, hgrid, hfar, hage⟩
    refine ⟨⟨grid, hgrid⟩, ?_⟩
    rintro (hnear | ⟨grid', hgrid', hage'⟩)
    · exact hfar hnear
    · rw [hgrid] at hgrid'
      cases hgrid'
      rw [hage] at hage'
      exact nomatch hage'

/-- The unloads that are counted are the grids that the map has less. -/
theorem Shelved.count_unloadAll (h : m.Shelved) (cs : List GridCoord) :
    (m.unloadAll cs).1 + (m.unloadAll cs).2.loadedCount = m.loadedCount := by
  induction cs generalizing m with
  | nil => exact Nat.zero_add _
  | cons c cs ih =>
    rw [unloadAll]
    obtain ⟨grid, hgrid, -, hu⟩ | ⟨-, hu⟩ := m.unload_unforced c
    · have hrest := ih (h.dropGrid hgrid)
      have hone : (m.dropGrid c).loadedCount + 1 = m.loadedCount := h.loadedCount_dropGrid hgrid
      rw [hu]
      simp only [Except.toOption, Option.getD_some, if_true]
      omega
    · rw [hu]
      exact ih h

theorem Shelved.count_unloads (h : m.Shelved) (diff : Duration) :
    (m.unloads diff).1 + (m.keepHouse diff).loadedCount = m.warmed.loadedCount := by
  have hwaited : (m.warmed.waitGrids m.covered diff).2.Shelved :=
    (Keeps.waitGrids m.warmed m.covered diff).shelved ((Keeps.warmed m).shelved h)
  have hcount := hwaited.count_unloadAll (m.warmed.waitGrids m.covered diff).1
  rw [keepHouse, unloads, hcount]
  rfl

theorem length_gains_congr {n n' : WorldMap} (h : m'.Indexed) (h' : n'.Indexed)
    (heq : ∀ c, c ∈ m.gains m' ↔ c ∈ n.gains n') : (m.gains m').length = (n.gains n').length :=
  ((List.perm_ext_iff_of_nodup h.nodup_gains h'.nodup_gains).2 heq).length_eq

/-- The statistics count the grids that come and go after the tasks. -/
theorem Indexed.counts_update (h : m.Indexed) (diff : Duration) :
    (m.update diff).2.1.loaded = (m.served.gains (m.update diff).1).length ∧
      (m.update diff).2.1.unloaded = ((m.update diff).1.gains m.served).length := by
  have hserved := h.served
  have hwarm := hserved.keeps (.warmed m.served)
  have hafter := (Follows.update h diff).indexed
  have hcame := hserved.balance hwarm
  have hwent := hwarm.balance hafter
  have hnone : m.served.warmed.gains m.served = [] :=
    hserved.gains_eq_nil fun c hc => (isLoaded_warmed ..).2 (.inr hc)
  have hnone' : m.served.warmed.gains (m.update diff).1 = [] := by
    refine hafter.gains_eq_nil fun c hc => (isLoaded_warmed ..).2 ?_
    obtain hnear | ⟨grid, hgrid, -⟩ := (h.isLoaded_update ..).1 hc
    · exact .inl hnear
    · exact .inr (isLoaded_iff.2 ⟨grid, hgrid⟩)
  have hcame' : (m.served.gains m.served.warmed).length =
      (m.served.gains (m.update diff).1).length := by
    refine length_gains_congr hwarm hafter fun c => ?_
    rw [h.mem_gains_update, hwarm.mem_gains, isLoaded_warmed]
    cases m.served.isLoaded c <;> simp
  have hwent' : ((m.update diff).1.gains m.served.warmed).length =
      ((m.update diff).1.gains m.served).length := by
    refine length_gains_congr hwarm hserved fun c => ?_
    rw [hwarm.mem_gains, hserved.mem_gains, isLoaded_warmed, ← Bool.not_eq_true,
      h.isLoaded_update]
    exact and_congr_left fun hout => or_iff_right fun hnear => hout (.inl hnear)
  have hstats : (m.update diff).2.1.loaded =
      m.served.warmed.loadedCount - m.served.loadedCount := by
    rw [stats_update]
  have hstats' : (m.update diff).2.1.unloaded + (m.update diff).1.loadedCount =
      m.served.warmed.loadedCount := by
    rw [stats_update, update_eq]
    dsimp only
    exact hserved.toShelved.count_unloads diff
  rw [hnone, List.length_nil] at hcame
  rw [hnone', List.length_nil] at hwent
  omega

/-! ## The balance of one update -/

/-- How an update changes what is loaded, and what it tells of that. -/
structure Turnover (m : WorldMap) (diff : Duration) : Prop where
  /-- No task drops a grid, and those that come are those into which accepted tasks lead. -/
  served : ∀ c, m.served.isLoaded c ↔ c ∈ m.opened ∨ m.isLoaded c
  loaded : (m.update diff).2.1.loaded = (m.served.gains (m.update diff).1).length
  unloaded : (m.update diff).2.1.unloaded = ((m.update diff).1.gains m.served).length
  come : ∀ c, c ∈ m.served.gains (m.update diff).1 ↔
    m.served.Near c ∧ m.served.isLoaded c = false
  gone : ∀ c, c ∈ (m.update diff).1.gains m.served ↔
    ∃ grid, m.served.grid? c = some grid ∧ ¬m.served.Near c ∧ grid.age diff = none
  total : (m.update diff).2.1.total = (m.update diff).1.loadedCount
  balance : (m.update diff).1.loadedCount + (m.update diff).2.1.unloaded =
    m.loadedCount + (m.gains m.served).length + (m.update diff).2.1.loaded
  /-- The statistics alone account for the grids if no task leads into a grid that is not loaded. -/
  even : (m.update diff).1.loadedCount + (m.update diff).2.1.unloaded =
    m.loadedCount + (m.update diff).2.1.loaded ↔ ∀ c ∈ m.opened, m.isLoaded c

theorem Indexed.turnover (h : m.Indexed) (diff : Duration) : m.Turnover diff := by
  obtain ⟨hloaded, hunloaded⟩ := h.counts_update diff
  have htasks := h.balance h.served
  have hhouse := h.served.balance (Follows.update h diff).indexed
  have hnone : m.served.gains m = [] :=
    h.gains_eq_nil fun c hc => (h.isLoaded_served c).2 (.inr hc)
  rw [hnone, List.length_nil] at htasks
  rw [← hloaded, ← hunloaded] at hhouse
  have hbalance : (m.update diff).1.loadedCount + (m.update diff).2.1.unloaded =
      m.loadedCount + (m.gains m.served).length + (m.update diff).2.1.loaded := by omega
  refine ⟨h.isLoaded_served, hloaded, hunloaded, fun _ => h.mem_gains_update,
    fun _ => h.mem_gains_served, ?_, hbalance, ?_⟩
  · rw [stats_update]
  have heven : (m.gains m.served).length = 0 ↔ ∀ c ∈ m.opened, m.isLoaded c := by
    simp only [List.length_eq_zero_iff, List.eq_nil_iff_forall_not_mem, h.served.mem_gains,
      h.isLoaded_served, ← Bool.not_eq_true]
    exact ⟨fun hno c hc => by_contra fun hout => hno c ⟨.inl hc, hout⟩,
      fun hall c hin => hin.2 (hin.1.elim (hall c) fun hc => hc)⟩
  rw [hbalance, ← heven]
  omega

/-! ## Runs of updates -/

/-- An update, and the queue that it finds. -/
structure Round where
  queue : TaskQueue
  diff : Duration

/-- A map after a round. -/
def play (m : WorldMap) (r : Round) : WorldMap := ((m.requeue r.queue).update r.diff).1

/-- What an update yields, summed over the rounds. -/
def sumOver (f : WorldMap → Duration → Nat) (m : WorldMap) : List Round → Nat
  | [] => 0
  | r :: rounds => f (m.requeue r.queue) r.diff + (m.play r).sumOver f rounds

/-- The rounds account for the grids of a map. -/
def Reckons (m : WorldMap) (rounds : List Round) : Prop :=
  (rounds.foldl play m).loadedCount +
      m.sumOver (fun m diff => (m.update diff).2.1.unloaded) rounds =
    m.loadedCount + m.sumOver (fun m _ => (m.gains m.served).length) rounds +
      m.sumOver (fun m diff => (m.update diff).2.1.loaded) rounds

theorem Indexed.reckons (h : m.Indexed) (rounds : List Round) : m.Reckons rounds := by
  induction rounds generalizing m with
  | nil => rfl
  | cons r rounds ih =>
    have hround := h.requeue r.queue
    have hrest : (m.play r).Reckons rounds := ih (Follows.update hround r.diff).indexed
    have hfirst := (hround.turnover r.diff).balance
    rw [Reckons] at hrest ⊢
    simp only [List.foldl_cons, sumOver]
    change (m.play r).loadedCount + _ = m.loadedCount + _ + _ at hfirst
    omega

/-- On a map after any operations, an update tells of all grids that come and go after its tasks, and
so updates account for the grids up to those that tasks load. -/
theorem turnover_runAll (id : MapId) (config : MapConfig) (ops : List Op) :
    (∀ diff, (runAll { id, config } ops).Turnover diff) ∧
      ∀ rounds, (runAll { id, config } ops).Reckons rounds :=
  have h := (indexed_new id config).runAll ops
  ⟨h.turnover, h.reckons⟩

/-- The first task of a map loads a grid that the update does not tell of. -/
theorem turnover_untold :
    let m := runAll { id := 0, config := {} }
      [.requeue ⟨#[.add ⟨.creature, 1⟩ (.flat 0 0) .grid]⟩]
    let (m', stats, _) := m.update (.ofMillis 50)
    m.loadedCount = 0 ∧ m'.loadedCount = 1 ∧ stats.loaded = 0 ∧ stats.unloaded = 0 := by
  decide +kernel

end WorldMap
end Realm
