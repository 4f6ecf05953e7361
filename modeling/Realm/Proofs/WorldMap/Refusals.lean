import Realm.Proofs.WorldMap.Reach

/-! # Refusals

Some operations of a map change it before they are through: a removal drops the placement first, a
move takes the entry out of its cell first, and an addition loads a grid first. On an indexed map no
step after the checks can fail, so the first check that an operation fails tells its fault, and a
refused operation leaves everything as it was. -/

namespace Realm

/-- The map contradicts itself. -/
def Fault.Internal : Fault → Prop
  | .gridLost .. | .linkLost .. => True
  | _ => False

/-! ## Checks -/

/-- A condition of an operation, and its fault if it does not hold. -/
structure Check where
  holds : Bool
  fault : Fault

/-- The fault of the first check that fails. -/
def Check.firstFault? (checks : List Check) : Option Fault :=
  (checks.find? (!·.holds)).map (·.fault)

namespace Check

variable {c : Check} {checks : List Check} {f : Fault}

theorem firstFault?_nil : firstFault? [] = none := rfl

theorem firstFault?_cons :
    firstFault? (c :: checks) = if c.holds then firstFault? checks else some c.fault := by
  rw [firstFault?, List.find?_cons]
  cases c.holds <;> rfl

theorem exists_of_firstFault? (h : firstFault? checks = some f) : ∃ c ∈ checks, c.fault = f := by
  obtain ⟨c, hc, hf⟩ := Option.map_eq_some_iff.1 h
  exact ⟨c, List.mem_of_find?_eq_some hc, hf⟩

end Check

namespace WorldMap

open Check (firstFault? firstFault?_nil firstFault?_cons)

variable {m : WorldMap} {g : Guid} {p : Position} {s : Scope} {k : Kind} {f : Fault} {op : Op}

def entryChecks (m : WorldMap) (g : Guid) (p : Position) : List Check :=
  [⟨!m.contains g, .stale g .placedAlready⟩, ⟨p.IsValid, .badPosition p⟩]

def taskChecks (m : WorldMap) : Task → List Check
  | .add g p s => ⟨s.Holds g.kind, .scopeMismatch g.kind s⟩ :: m.entryChecks g p
  | .remove g => [⟨m.contains g, .stale g .notPlaced⟩]
  | .relocate g p =>
    [⟨m.contains g, .stale g .relocatingUnplaced⟩, ⟨p.IsValid, .badPosition p⟩]

/-- All that can speak against an operation, in the order in which it is checked. -/
def Op.checks (m : WorldMap) : Op → List Check
  | .add g p s => m.taskChecks (.add g p s)
  | .addKind k _ _ g p => ⟨g.kind = k, .kindMismatch g k⟩ :: m.entryChecks g p
  | .remove g => m.taskChecks (.remove g)
  | .relocate g p => m.taskChecks (.relocate g p)
  | .load c _ => [⟨c.IsValid, .gridOffMap c m.id⟩]
  | .lock c _ => [⟨m.isLoaded c, .gridNotLoaded c m.id⟩]
  | .apply t => m.taskChecks t
  | .unload .. | .requeue .. | .update .. => []

theorem not_internal_of_mem_taskChecks {t : Task} {c : Check} (h : c ∈ m.taskChecks t) :
    ¬c.fault.Internal := by
  cases t <;> simp only [taskChecks, entryChecks, List.mem_cons, List.not_mem_nil, or_false] at h
  case add => rcases h with rfl | rfl | rfl <;> exact not_false
  case remove => subst h; exact not_false
  case relocate => rcases h with rfl | rfl <;> exact not_false

/-- No check asks whether the map contradicts itself. -/
theorem Op.not_internal_of_mem_checks {c : Check} (h : c ∈ op.checks m) : ¬c.fault.Internal := by
  cases op with
  | add g p s => exact not_internal_of_mem_taskChecks (t := .add g p s) h
  | remove g => exact not_internal_of_mem_taskChecks (t := .remove g) h
  | relocate g p => exact not_internal_of_mem_taskChecks (t := .relocate g p) h
  | apply t => exact not_internal_of_mem_taskChecks (t := t) h
  | addKind =>
    simp only [checks, entryChecks, List.mem_cons, List.not_mem_nil, or_false] at h
    rcases h with rfl | rfl | rfl <;> exact not_false
  | load => cases List.mem_singleton.1 h; exact not_false
  | lock => cases List.mem_singleton.1 h; exact not_false
  | unload | requeue | update => exact (List.not_mem_nil h).elim

/-! ## What the checks before an entry mean -/

theorem firstFault?_entryChecks_eq_none :
    firstFault? (m.entryChecks g p) = none ↔ m.placement? g = none ∧ p.IsValid := by
  simp only [entryChecks, firstFault?_cons, firstFault?_nil, contains_eq_isSome]
  cases m.placement? g <;> simp

theorem checks_eq (m : WorldMap) (g : Guid) (p : Position) :
    (m.checkUnplaced g *> locate g p) =
      match firstFault? (m.entryChecks g p) with
      | some f => .error f
      | none => .ok p.cellCoord := by
  simp only [checkUnplaced, entryChecks, firstFault?_cons, firstFault?_nil]
  cases m.contains g with
  | true => rfl
  | false =>
    by_cases hp : p.IsValid
    · rw [locate_of_valid hp]
      simp only [hp]
      rfl
    · rw [locate, if_pos hp]
      simp only [hp]
      rfl

/-! ## Operations heed their checks -/

/-- An outcome is a refusal if a check fails, and a success if none does. -/
def Heeds {α : Type} (m : WorldMap) (checks : List Check) (o : Outcome α) : Prop :=
  match firstFault? checks with
  | some f => o = m.refuse f
  | none => o.result.isOk = true

section

variable {α β : Type} {o : Outcome α} {c : Check} {checks : List Check}

theorem Heeds.map' (h : m.Heeds checks o) (e : α → β) : m.Heeds checks (o.map' e) := by
  rw [Heeds] at h ⊢
  split
  · rename_i f hf
    rw [hf] at h
    exact congrArg (Outcome.map' e) h
  · rename_i hf
    rw [hf] at h
    obtain ⟨r, m', notes⟩ := o
    cases r with
    | ok a => rfl
    | error f => exact nomatch h

theorem Heeds.nil (h : o.result.isOk = true) : m.Heeds [] o := h

theorem Heeds.fails (hc : c.holds = false) (h : o = m.refuse c.fault) :
    m.Heeds (c :: checks) o := by
  rw [Heeds, firstFault?_cons, hc]
  exact h

theorem Heeds.holds (hc : c.holds = true) (h : m.Heeds checks o) : m.Heeds (c :: checks) o := by
  rwa [Heeds, firstFault?_cons, if_pos hc]

end

/-- After the checks before an entry, the object enters. -/
theorem Heeds.entry {o : Outcome CellCoord} (hm : m.Indexed) (hs : s.Holds g.kind)
    (hfail : ∀ f, (m.checkUnplaced g *> locate g p) = .error f → o = m.refuse f)
    (hpass : ∀ d, (m.checkUnplaced g *> locate g p) = .ok d → o = m.enter g p s d) :
    m.Heeds (m.entryChecks g p) o := by
  rw [checks_eq] at hfail hpass
  rw [Heeds]
  split
  · rename_i f hf
    rw [hf] at hfail
    exact hfail f rfl
  · rename_i hf
    rw [hf] at hpass
    obtain ⟨hg, hp⟩ := firstFault?_entryChecks_eq_none.1 hf
    obtain ⟨l, m', henter, -⟩ := hm.enter hg hs hp
    rw [hpass p.cellCoord rfl, henter]
    rfl

theorem Indexed.heeds_add (h : m.Indexed) (g : Guid) (p : Position) (s : Scope) :
    m.Heeds (m.taskChecks (.add g p s)) (m.add g p s) := by
  by_cases hs : s.Holds g.kind
  · refine .holds (decide_eq_true hs) (.entry h hs (fun f hf => ?_) fun d hd => ?_)
    · rw [WorldMap.add, if_neg (not_not_intro hs), hf]
    · rw [WorldMap.add, if_neg (not_not_intro hs), hd]
  · refine .fails (decide_eq_false hs) ?_
    rw [WorldMap.add, if_pos hs]

theorem Indexed.heeds_addKind (h : m.Indexed) (hs : s.Holds k) (g : Guid) (p : Position) :
    m.Heeds ((Op.addKind k s hs g p).checks m) (m.addKind k g p s) := by
  by_cases hk : g.kind = k
  · refine .holds (decide_eq_true hk) (.entry h (hk ▸ hs) (fun f hf => ?_) fun d hd => ?_)
    · rw [WorldMap.addKind, if_neg (not_not_intro hk), hf]
    · rw [WorldMap.addKind, if_neg (not_not_intro hk), hd]
      dsimp only
      rw [linkKind_eq_link hs hk, WorldMap.enter]
  · refine .fails (decide_eq_false hk) ?_
    rw [WorldMap.addKind, if_pos hk]

theorem Indexed.heeds_remove (h : m.Indexed) (g : Guid) :
    m.Heeds (m.taskChecks (.remove g)) (m.remove g) := by
  cases hg : m.placement? g with
  | none =>
    refine .fails (by rw [contains_eq_isSome, hg]; rfl) ?_
    rw [WorldMap.remove, hg]
  | some pl =>
    refine .holds (by rw [contains_eq_isSome, hg]; rfl) (.nil ?_)
    obtain ⟨m', hrem, -⟩ := h.remove hg
    rw [hrem]
    rfl

theorem Indexed.heeds_relocate (h : m.Indexed) (g : Guid) (p : Position) :
    m.Heeds (m.taskChecks (.relocate g p)) (m.relocate g p) := by
  cases hg : m.placement? g with
  | none =>
    refine .fails (by rw [contains_eq_isSome, hg]; rfl) ?_
    rw [WorldMap.relocate, hg]
  | some pl =>
    refine .holds (by rw [contains_eq_isSome, hg]; rfl) ?_
    by_cases hp : p.IsValid
    · refine .holds (decide_eq_true hp) (.nil ?_)
      obtain ⟨l, m', hrel, -⟩ := h.relocate hg hp
      rw [hrel]
      rfl
    · exact .fails (decide_eq_false hp) (relocate_of_not_valid hg hp)

theorem Indexed.heeds_apply (h : m.Indexed) (t : Task) :
    m.Heeds (m.taskChecks t) (m.apply t) := by
  cases t with
  | add g p s => exact (h.heeds_add g p s).map' _
  | remove g => exact (h.heeds_remove g).map' _
  | relocate g p => exact (h.heeds_relocate g p).map' _

theorem heeds_load (c : GridCoord) (tweaks : List Grid.Tweak) :
    m.Heeds ((Op.load c tweaks).checks m) ((Op.load c tweaks).run m) := by
  rw [Op.run]
  by_cases hc : c.IsValid
  · obtain ⟨m', hm, -⟩ := modifyGrid_spec (m := m) hc (.tweaks tweaks)
    rw [hm]
    exact .holds (decide_eq_true hc) (.nil rfl)
  · rw [modifyGrid, WorldMap.load, if_pos hc]
    exact .fails (decide_eq_false hc) rfl

theorem heeds_lock (c : GridCoord) (on : Bool) :
    m.Heeds ((Op.lock c on).checks m) (m.lockGrid c on) := by
  rw [lockGrid]
  cases hg : m.grid? c with
  | none => exact .fails (by rw [isLoaded, hg]; rfl) rfl
  | some grid => exact .holds (by rw [isLoaded, hg]; rfl) (.nil rfl)

theorem isOk_unload (c : GridCoord) (force : Bool) : (m.unload c force).result.isOk = true := by
  obtain ⟨b, hu, -⟩ | ⟨grid, -, ⟨-, hu⟩ | ⟨-, hu⟩⟩ := m.unload_cases c force
  all_goals rw [hu]; rfl

/-- An operation is refused by its first check that fails, and carried out if none does. -/
theorem Indexed.heeds_run (h : m.Indexed) (op : Op) : m.Heeds (op.checks m) (op.run m) := by
  cases op with
  | add g p s => exact (h.heeds_add g p s).map' _
  | addKind k s held g p => exact (h.heeds_addKind held g p).map' _
  | remove g => exact (h.heeds_remove g).map' _
  | relocate g p => exact (h.heeds_relocate g p).map' _
  | load c tweaks => exact heeds_load c tweaks
  | lock c on => exact heeds_lock c on
  | apply t => exact h.heeds_apply t
  | unload c force => exact (Heeds.nil (isOk_unload c force)).map' _
  | requeue queue => exact .nil rfl
  | update diff => exact .nil rfl

/-! ## Refused operations -/

/-- Whether an operation is to move an object. -/
def Op.Moves : Op → Prop
  | .relocate .. | .apply (.relocate ..) => True
  | _ => False

theorem Op.Moves.fault_ne (h : op.Moves) {c : Check} (hc : c ∈ op.checks m) (k : Kind)
    (s : Scope) : c.fault ≠ .scopeMismatch k s := by
  obtain ⟨g, p, hc⟩ : ∃ g p, c ∈ m.taskChecks (.relocate g p) := by
    cases op with
    | relocate g p => exact ⟨g, p, hc⟩
    | apply t =>
      cases t with
      | relocate g p => exact ⟨g, p, hc⟩
      | add | remove => exact h.elim
    | _ => exact h.elim
  simp only [taskChecks, List.mem_cons, List.not_mem_nil, or_false] at hc
  rcases hc with rfl | rfl <;> exact nofun

/-- An operation was refused by its first check that fails, and nothing has changed. -/
structure Refused (m : WorldMap) (op : Op) (f : Fault) : Prop where
  fault : firstFault? (op.checks m) = some f
  map : (op.run m).map = m
  directory : ∀ d : Directory, d.notes m.id (op.run m).notes = d
  notInternal : ¬f.Internal
  /-- No object was taken out of its cell and found no place in another. -/
  notDropped : op.Moves → ∀ k s, f ≠ .scopeMismatch k s

theorem Indexed.refused (h : m.Indexed) (hf : (op.run m).result = .error f) : m.Refused op f := by
  have hheeds := h.heeds_run op
  rw [Heeds] at hheeds
  split at hheeds
  · rename_i f' hfault
    rw [hheeds] at hf
    cases hf
    obtain ⟨c, hc, hcf⟩ := Check.exists_of_firstFault? hfault
    subst hcf
    exact ⟨hfault, by rw [hheeds]; rfl, fun d => by rw [hheeds]; rfl,
      Op.not_internal_of_mem_checks hc, fun hmoves => hmoves.fault_ne hc⟩
  · rw [hf] at hheeds
    exact nomatch hheeds

/-- On a map after any operations, an operation that fails changes nothing. -/
theorem refused_runAll (id : MapId) (config : MapConfig) (ops : List Op) (op : Op) (f : Fault)
    (hf : (op.run (runAll { id, config } ops)).result = .error f) :
    (runAll { id, config } ops).Refused op f :=
  ((indexed_new id config).runAll ops).refused hf

/-- A move off the map leaves its object where it was. -/
theorem refused_strayMove :
    let m := runAll { id := 0, config := {} } [.add ⟨.creature, 1⟩ (.flat 0 0) .grid]
    let stray := Position.flat 18000 0
    m.objectCount = 1 ∧ m.Refused (.relocate ⟨.creature, 1⟩ stray) (.badPosition stray) :=
  ⟨by decide +kernel, refused_runAll _ _ _ _ _ (by decide +kernel)⟩

end WorldMap
end Realm
