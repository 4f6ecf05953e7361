import Realm.Proofs.WorldMap.Tasks

/-! # The register of a map

All that a task can tell of a map is where the objects are and in which order the cells list them.
Tasks change this register by a rule of its own, in which no grids and no links occur. -/

namespace Realm

/-- The cell and the scope under which an object is listed. -/
def Spot.heading (x : Spot) : CellCoord × Scope := (x.position.cellCoord, x.scope)

/-- Where objects are, and how the cells list them. -/
structure Register where
  spot? : Guid → Option Spot
  /-- The guids of a cell, scope and kind, in the order in which they came. -/
  guids : CellCoord → Scope → Kind → List Guid

/-- A register after one task more. An object that stays under its heading keeps its place in the
list, and any other one enters at the end. -/
def Register.next (r : Register) (t : Task) : Register :=
  let old := (r.spot? t.guid).map Spot.heading
  let new := (t.next (r.spot? t.guid)).map Spot.heading
  { spot? := Function.update r.spot? t.guid (t.next (r.spot? t.guid))
    guids := fun d s k =>
      if new = old then r.guids d s k
      else (r.guids d s k).filter (· ≠ t.guid) ++
        if new = some (d, s) ∧ t.guid.kind = k then [t.guid] else [] }

theorem Register.guids_next {r : Register} {t : Task} {old new : Option (CellCoord × Scope)}
    (hold : (r.spot? t.guid).map Spot.heading = old)
    (hnew : (t.next (r.spot? t.guid)).map Spot.heading = new) (d : CellCoord) (s : Scope)
    (k : Kind) : (r.next t).guids d s k =
      if new = old then r.guids d s k
      else (r.guids d s k).filter (· ≠ t.guid) ++
        if new = some (d, s) ∧ t.guid.kind = k then [t.guid] else [] := by
  subst hold hnew
  rfl

namespace WorldMap

variable {m m' : WorldMap} {d : CellCoord} {s : Scope} {k : Kind} {g : Guid} {p : Position}
  {pl : Placement}

def guids (m : WorldMap) (d : CellCoord) (s : Scope) (k : Kind) : List Guid :=
  (m.listed d s k).map (·.2)

def register (m : WorldMap) : Register := ⟨m.spot?, m.guids⟩

theorem Keeps.register (h : m.Keeps m') (hm : m.Shelved) : m'.register = m.register := by
  have hguids : m'.guids = m.guids := by
    funext d s k
    rw [guids, h.listed hm, guids]
  rw [WorldMap.register, h.spot?, hguids, WorldMap.register]

/-! ## Lists -/

theorem Indexed.heading_of_placement? (h : m.Indexed) (hg : m.placement? g = some pl) :
    pl.spot.heading = (pl.cell, pl.scope) := by
  rw [Spot.heading, Placement.spot, (h.fits hg).2.cell]

/-- An object is listed under its heading alone. -/
theorem Indexed.mem_guids (h : m.Indexed) :
    g ∈ m.guids d s k ↔ (m.spot? g).map Spot.heading = some (d, s) ∧ g.kind = k := by
  have hmem : g ∈ m.guids d s k ↔ ∃ l, (l, g) ∈ m.listed d s k := by simp [guids]
  rw [hmem, spot?]
  cases hg : m.placement? g with
  | none => simp [h.entry, hg]
  | some pl =>
    simp [h.entry, hg, h.heading_of_placement? hg, and_assoc]

/-- A link enters its guid at the end of one list. -/
theorem Shelved.guids_link (h : m.Shelved) (hd : d.IsValid) (hs : s.Holds g.kind) :
    ∃ l m', m.link d s g = (.ok l, m') ∧ ∀ d' t q, m'.guids d' t q =
      m.guids d' t q ++ if some (d, s) = some (d', t) ∧ g.kind = q then [g] else [] := by
  obtain ⟨l, m', hlink, -, -, hlist⟩ := link_spec h hd hs
  refine ⟨l, m', hlink, fun d' t q => ?_⟩
  rw [guids, hlist, guids]
  by_cases he : d' = d ∧ t = s ∧ q = g.kind
  · obtain ⟨rfl, rfl, rfl⟩ := he
    simp
  · have hne : ¬(some (d, s) = some (d', t) ∧ g.kind = q) := by
      rintro ⟨hds, rfl⟩
      cases hds
      exact he ⟨rfl, rfl, rfl⟩
    rw [if_neg he, if_neg hne, List.append_nil]

/-- When an entry is taken out, its guid is listed no more. -/
theorem Indexed.guids_unlink (h : m.Indexed) (hg : m.placement? g = some pl) :
    ∃ m', m.unlink pl = .ok m' ∧ m'.Shelved ∧
      ∀ d s k, m'.guids d s k = (m.guids d s k).filter (· ≠ g) := by
  obtain ⟨rfl, -⟩ := h.fits hg
  have hself := h.listed_self hg
  obtain ⟨m', hun, -, hshelf, hlist⟩ := unlink_spec h.toShelved hself
  refine ⟨m', hun, hshelf, fun d s k => ?_⟩
  rw [guids, hlist, guids, List.filter_map]
  split
  · rename_i he
    obtain ⟨rfl, rfl, rfl⟩ := he
    -- in this list the link and the guid mean the same entry
    refine congrArg _ (List.filter_congr fun e hmem => decide_eq_decide.2 (not_congr ?_))
    constructor
    · rintro hl
      refine h.eq_of_link (l := pl.link) ?_ hself
      rw [← hl]
      exact hmem
    · intro hguid
      obtain ⟨q, hq, -, -, -, hl⟩ := h.entry.1 hmem
      rw [show e.2 = pl.guid from hguid, hg] at hq
      cases hq
      exact hl.symm
  · rename_i he
    rw [List.filter_eq_self.2]
    intro e hmem
    refine decide_eq_true fun hguid => ?_
    obtain ⟨q, hq, rfl, rfl, rfl, -⟩ := h.entry.1 hmem
    rw [show e.2 = pl.guid from hguid, hg] at hq
    cases hq
    exact he ⟨rfl, rfl, congrArg _ hguid⟩

/-! ## Operations -/

/-- An object without a placement is not listed. -/
theorem Indexed.filter_guids (h : m.Indexed) (hg : m.placement? g = none) (d : CellCoord)
    (t : Scope) (q : Kind) : (m.guids d t q).filter (· ≠ g) = m.guids d t q := by
  refine List.filter_eq_self.2 fun g' hmem => decide_eq_true ?_
  rintro rfl
  have hheading := (h.mem_guids.1 hmem).1
  rw [spot?, hg] at hheading
  cases hheading

theorem Indexed.guids_enter (h : m.Indexed) (hs : s.Holds g.kind) (hp : p.IsValid) (d : CellCoord)
    (t : Scope) (q : Kind) : (m.enter g p s p.cellCoord).map.guids d t q =
      m.guids d t q ++ if some (p.cellCoord, s) = some (d, t) ∧ g.kind = q then [g] else [] := by
  obtain ⟨l, m', hlink, hguids⟩ := h.toShelved.guids_link hp.cellCoord hs
  rw [enter_of_link hlink]
  exact hguids d t q

theorem Indexed.guids_add (h : m.Indexed) (hg : m.placement? g = none) (hs : s.Holds g.kind)
    (hp : p.IsValid) (d : CellCoord) (t : Scope) (q : Kind) :
    (m.add g p s).map.guids d t q =
      m.guids d t q ++ if some (p.cellCoord, s) = some (d, t) ∧ g.kind = q then [g] else [] := by
  rw [add_eq_enter hg hs hp]
  exact h.guids_enter hs hp d t q

theorem Indexed.guids_remove (h : m.Indexed) (hg : m.placement? g = some pl) (d : CellCoord)
    (t : Scope) (q : Kind) : (m.remove g).map.guids d t q = (m.guids d t q).filter (· ≠ g) := by
  obtain ⟨m', hun, -, hguids⟩ := h.guids_unlink hg
  rw [remove_of_unlink hg hun]
  exact hguids d t q

theorem Indexed.guids_relocate (h : m.Indexed) (hg : m.placement? g = some pl) (hp : p.IsValid)
    (d : CellCoord) (t : Scope) (q : Kind) : (m.relocate g p).map.guids d t q =
      if p.cellCoord = pl.cell then m.guids d t q
      else (m.guids d t q).filter (· ≠ g) ++
        if some (p.cellCoord, pl.scope) = some (d, t) ∧ g.kind = q then [g] else [] := by
  obtain ⟨rfl, hfits⟩ := h.fits hg
  split
  · rename_i hcell
    rw [relocate_within hg hp hcell.symm]
    rfl
  · rename_i hcell
    obtain ⟨m₁, hrem, hout⟩ := h.remove hg
    have hgone : m₁.placement? pl.guid = none := by rw [hout.placement?, Function.update_self]
    have hguids := h.guids_remove hg d t q
    rw [hrem] at hguids
    rw [h.relocate_across hg hp (Ne.symm hcell), hrem, ← hguids]
    exact hout.indexed.guids_add hgone hfits.held hp d t q

/-! ## Tasks -/

theorem Indexed.guids_refused (h : m.Indexed) {t : Task} {f : Fault}
    (hf : m.apply t = m.refuse f) : (m.apply t).map.guids = (m.register.next t).guids := by
  have hnone : t.effect (m.spot? t.guid) = none := by
    have haccepted := (h.obeys t).accepted
    rw [hf] at haccepted
    exact Option.not_isSome_iff_eq_none.1 (Bool.eq_false_iff.1 haccepted.symm)
  have hsame : t.next (m.spot? t.guid) = m.spot? t.guid := by
    rw [Task.next, hnone, Option.getD_none]
  funext d s k
  rw [hf, Register.guids_next rfl (congrArg (Option.map Spot.heading) hsame)]
  exact (if_pos rfl).symm

theorem Indexed.guids_apply (h : m.Indexed) (t : Task) :
    (m.apply t).map.guids = (m.register.next t).guids := by
  cases t with
  | add g p s =>
    by_cases hok : m.placement? g = none ∧ s.Holds g.kind ∧ p.IsValid
    · obtain ⟨hg, hs, hp⟩ := hok
      have hspot : m.spot? g = none := by rw [spot?, hg, Option.map_none]
      have hnew : ((Task.add g p s).next (m.spot? g)).map Spot.heading = some (p.cellCoord, s) := by
        simp [Task.next, Task.effect, hspot, hs, hp, Spot.heading]
      funext d t q
      have hmoves : some (p.cellCoord, s) ≠ Option.map Spot.heading none := Option.some_ne_none _
      rw [Register.guids_next (congrArg (Option.map Spot.heading) hspot) hnew, if_neg hmoves]
      refine (h.guids_add hg hs hp d t q).trans ?_
      rw [← h.filter_guids hg d t q]
      rfl
    · obtain ⟨f, hf⟩ := add_refused hok
      exact h.guids_refused (f := f) (by rw [apply, hf]; rfl)
  | remove g =>
    cases hg : m.placement? g with
    | none =>
      obtain ⟨f, hf⟩ := remove_refused hg
      exact h.guids_refused (f := f) (by rw [apply, hf]; rfl)
    | some pl =>
      have hspot : m.spot? g = some pl.spot := by rw [spot?, hg, Option.map_some]
      have hnew : ((Task.remove g).next (m.spot? g)).map Spot.heading = none := by
        simp [Task.next, Task.effect, hspot]
      funext d t q
      have hleaves : none ≠ Option.map Spot.heading (some pl.spot) := (Option.some_ne_none _).symm
      rw [Register.guids_next (congrArg (Option.map Spot.heading) hspot) hnew, if_neg hleaves,
        if_neg fun he => Option.some_ne_none _ he.1.symm]
      exact (h.guids_remove hg d t q).trans (List.append_nil _).symm
  | relocate g p =>
    by_cases hok : (m.placement? g).isSome ∧ p.IsValid
    · obtain ⟨hsome, hp⟩ := hok
      obtain ⟨pl, hg⟩ := Option.isSome_iff_exists.1 hsome
      have hspot : (m.spot? g).map Spot.heading = some (pl.cell, pl.scope) := by
        rw [spot?, hg, Option.map_some, Option.map_some, h.heading_of_placement? hg]
      have hnew : ((Task.relocate g p).next (m.spot? g)).map Spot.heading =
          some (p.cellCoord, pl.scope) := by
        simp [Task.next, Task.effect, spot?, hg, hp, Spot.heading, Placement.spot]
      funext d t q
      rw [Register.guids_next hspot hnew]
      simp only [Option.some.injEq, Prod.mk.injEq, and_true]
      refine (h.guids_relocate hg hp d t q).trans ?_
      simp only [Option.some.injEq, Prod.mk.injEq]
      rfl
    · obtain ⟨f, hf⟩ := relocate_refused hok
      exact h.guids_refused (f := f) (by rw [apply, hf]; rfl)

/-- On an indexed map a task follows the rule of the register. -/
theorem Indexed.register_apply (h : m.Indexed) (t : Task) :
    (m.apply t).map.register = m.register.next t := by
  have hspot : (m.apply t).map.spot? = (m.register.next t).spot? := by
    funext g
    change _ = Function.update m.spot? t.guid (t.next (m.spot? t.guid)) g
    rw [(h.obeys t).spot? g, Function.update_apply]
    rcases eq_or_ne g t.guid with rfl | hg
    · simp
    · rw [if_neg hg.symm, if_neg hg]
  rw [register, hspot, h.guids_apply]

end WorldMap
end Realm
