import Realm.Proofs.Position
import Realm.Proofs.WorldMap.Index

/-! # Operations on objects

On an indexed map an operation either meets its conditions, succeeds and changes the placement of
its object, or is refused and changes nothing. -/

namespace Realm.WorldMap

variable {m m' : WorldMap} {d : CellCoord} {s : Scope} {k : Kind} {g : Guid} {p : Position}
  {pl : Placement} {l : Link}

/-! ## The conditions -/

theorem locate_of_valid (hp : p.IsValid) : locate g p = .ok p.cellCoord := by
  rw [locate, if_neg (not_not_intro hp), if_neg (not_not_intro hp.cellCoord)]

theorem locate_eq_ok (h : locate g p = .ok d) : p.IsValid := by
  rw [locate] at h
  split at h
  · exact nomatch h
  · split at h
    · exact nomatch h
    · rename_i hp _
      exact not_not.1 hp

theorem locate_eq (h : locate g p = .ok d) : d = p.cellCoord := by
  rw [locate_of_valid (locate_eq_ok h)] at h
  exact (Except.ok.inj h).symm

/-- A valid position has its cell on the map, so this is the only fault. -/
theorem locate_eq_error {f : Fault} (h : locate g p = .error f) : f = .badPosition p := by
  by_cases hp : p.IsValid
  · rw [locate_of_valid hp] at h
    cases h
  · rw [locate, if_pos hp] at h
    exact (Except.error.inj h).symm

theorem contains_eq_isSome (m : WorldMap) (g : Guid) :
    m.contains g = (m.placement? g).isSome :=
  Std.ExtTreeMap.contains_eq_isSome_getElem?

/-- The checks that come before an object is entered. -/
theorem checks_of_ok (hg : m.placement? g = none) (hp : p.IsValid) :
    (m.checkUnplaced g *> locate g p) = .ok p.cellCoord := by
  rw [checkUnplaced, contains_eq_isSome, hg, if_neg (by simp), locate_of_valid hp]
  rfl

theorem checks_eq_ok (h : (m.checkUnplaced g *> locate g p) = .ok d) :
    m.placement? g = none ∧ p.IsValid := by
  rw [checkUnplaced, contains_eq_isSome] at h
  cases hg : m.placement? g with
  | none =>
    rw [hg, if_neg (by simp)] at h
    exact ⟨rfl, locate_eq_ok h⟩
  | some pl =>
    rw [hg, if_pos (by simp)] at h
    exact nomatch h

/-! ## Adding -/

theorem enter_of_link (h : m.link d s g = (.ok l, m')) : m.enter g p s d =
    { result := .ok d, map := m'.place ⟨g, d, s, p, l⟩, notes := [.placed g] } := by
  rw [WorldMap.enter, h]
  rfl

/-- An entry of the kind that a guid has is the same, whether the kind is known beforehand or not. -/
theorem linkKind_eq_link (hs : s.Holds k) (hk : g.kind = k) : m.linkKind d s k g = m.link d s g := by
  subst hk
  rw [linkKind, WorldMap.link]
  cases m.load (CellCoord.gridCoord d) with
  | error f => rfl
  | ok loaded =>
    dsimp only
    rw [Grid.insert?_eq_add hs]

theorem add_eq_enter (hg : m.placement? g = none) (hs : s.Holds g.kind) (hp : p.IsValid) :
    m.add g p s = m.enter g p s p.cellCoord := by
  rw [WorldMap.add, if_neg (not_not_intro hs), checks_of_ok hg hp]

theorem addKind_eq_enter (hs : s.Holds k) (hk : g.kind = k) (hg : m.placement? g = none)
    (hp : p.IsValid) : m.addKind k g p s = m.enter g p s p.cellCoord := by
  rw [WorldMap.addKind, if_neg (not_not_intro hk), checks_of_ok hg hp]
  dsimp only
  rw [linkKind_eq_link hs hk, WorldMap.enter]

/-- An object enters where it should, under a link of its own. -/
theorem Indexed.enter (h : m.Indexed) (hg : m.placement? g = none) (hs : s.Holds g.kind)
    (hp : p.IsValid) :
    ∃ l m', m.enter g p s p.cellCoord =
        { result := .ok p.cellCoord, map := m', notes := [.placed g] } ∧
      m.Becomes m' (Function.update m.placement? g (some ⟨g, p.cellCoord, s, p, l⟩)) := by
  obtain ⟨l, m', hlink, hbec⟩ := h.link hg hp.cellCoord hs hp rfl
  exact ⟨l, _, enter_of_link hlink, hbec⟩

theorem Indexed.add (h : m.Indexed) (hg : m.placement? g = none) (hs : s.Holds g.kind)
    (hp : p.IsValid) :
    ∃ l m', m.add g p s = { result := .ok p.cellCoord, map := m', notes := [.placed g] } ∧
      m.Becomes m' (Function.update m.placement? g (some ⟨g, p.cellCoord, s, p, l⟩)) := by
  rw [add_eq_enter hg hs hp]
  exact h.enter hg hs hp

theorem add_refused
    (h : ¬(m.placement? g = none ∧ s.Holds g.kind ∧ p.IsValid)) :
    ∃ f, m.add g p s = m.refuse f := by
  rw [WorldMap.add]
  split
  · exact ⟨_, rfl⟩
  · rename_i hs
    split
    · exact ⟨_, rfl⟩
    · rename_i hd
      obtain ⟨hg, hp⟩ := checks_eq_ok hd
      exact absurd ⟨hg, not_not.1 hs, hp⟩ h

theorem Indexed.addKind (h : m.Indexed) (hk : g.kind = k) (hg : m.placement? g = none)
    (hs : s.Holds g.kind) (hp : p.IsValid) :
    ∃ l m', m.addKind k g p s =
        { result := .ok p.cellCoord, map := m', notes := [.placed g] } ∧
      m.Becomes m' (Function.update m.placement? g (some ⟨g, p.cellCoord, s, p, l⟩)) := by
  rw [addKind_eq_enter (hk ▸ hs) hk hg hp]
  exact h.enter hg hs hp

theorem addKind_refused
    (h : ¬(g.kind = k ∧ m.placement? g = none ∧ p.IsValid)) :
    ∃ f, m.addKind k g p s = m.refuse f := by
  rw [WorldMap.addKind]
  split
  · exact ⟨_, rfl⟩
  · rename_i hk
    split
    · exact ⟨_, rfl⟩
    · rename_i hd
      obtain ⟨hg, hp⟩ := checks_eq_ok hd
      exact absurd ⟨not_not.1 hk, hg, hp⟩ h

/-! ## Placements and entries do not meet -/

/-- A placement may be dropped before or after an entry is taken out. -/
theorem unlink_displace : (m.displace g).unlink pl = (m.unlink pl).map (·.displace g) := by
  have hgrid : (m.displace g).grid? pl.gridCoord = m.grid? pl.gridCoord := rfl
  rw [WorldMap.unlink, WorldMap.unlink, hgrid]
  cases m.grid? pl.gridCoord with
  | none => rfl
  | some grid =>
    dsimp only
    cases grid.erase? pl.cell pl.scope pl.guid.kind pl.link <;> rfl

theorem load_displace {c : GridCoord} :
    (m.displace g).load c = (m.load c).map fun (grid, m) => (grid, m.displace g) := by
  have hgrids : (m.displace g).grids = m.grids := rfl
  rw [WorldMap.load, WorldMap.load, hgrids]
  split
  · rfl
  · cases m.grids[c.id.toNat]? <;> rfl

/-- A placement may be dropped before or after an entry is made. -/
theorem link_displace {g' : Guid} :
    (m.displace g).link d s g' = ((m.link d s g').1, (m.link d s g').2.displace g) := by
  unfold WorldMap.link
  dsimp only
  rw [load_displace]
  cases m.load (CellCoord.gridCoord d) with
  | error f => rfl
  | ok gm =>
    obtain ⟨grid, m'⟩ := gm
    simp only [Except.map]
    cases grid.insert? d s g' <;> rfl

theorem place_displace (pl : Placement) : (m.displace pl.guid).place pl = m.place pl := by
  rw [place, displace]
  congr 1
  apply Std.ExtTreeMap.ext_getElem?
  intro g
  rw [Std.ExtTreeMap.getElem?_insert, Std.ExtTreeMap.getElem?_insert,
    Std.ExtTreeMap.getElem?_erase]
  split <;> rfl

/-! ## Removing -/

theorem remove_of_unlink (hg : m.placement? g = some pl) (h : m.unlink pl = .ok m') :
    m.remove g = { result := .ok pl, map := m'.displace g, notes := [.gone g] } := by
  rw [WorldMap.remove, hg]
  simp only [unlink_displace, h, Except.map]

theorem remove_of_unlink_error {f : Fault} (hg : m.placement? g = some pl)
    (h : m.unlink pl = .error f) : m.remove g = (m.displace g).refuse f := by
  rw [WorldMap.remove, hg]
  simp only [unlink_displace, h, Except.map]

theorem Indexed.remove (h : m.Indexed) (hg : m.placement? g = some pl) :
    ∃ m', m.remove g = { result := .ok pl, map := m', notes := [.gone g] } ∧
      m.Becomes m' (Function.update m.placement? g none) := by
  obtain ⟨m', hun, hbec⟩ := h.unlink hg
  exact ⟨_, remove_of_unlink hg hun, hbec⟩

theorem remove_refused (h : m.placement? g = none) :
    ∃ f, m.remove g = m.refuse f :=
  ⟨_, by rw [WorldMap.remove, h]⟩

/-! ## Moving -/

/-- Another placement behind the same entry. -/
theorem Indexed.replace {q : Placement} (h : m.Indexed) (hg : m.placement? pl.guid = some pl)
    (hq : q.Fits) (hguid : q.guid = pl.guid) (hcell : q.cell = pl.cell)
    (hscope : q.scope = pl.scope) (hlink : q.link = pl.link) :
    m.Becomes (m.place q) (Function.update m.placement? q.guid (some q)) := by
  refine ⟨rfl, rfl, rfl, placement?_place q, h.toShelved.congr rfl rfl,
    (h.filed.update (placement?_place q) ?_).fits, ?_⟩
  · rintro _ ⟨⟩
    exact ⟨rfl, hq⟩
  · intro d s k l g
    rw [listed_place, placement?_place, h.entry, Function.update_apply]
    split
    · rename_i he
      subst he
      simp only [hguid, hg, Option.some.injEq, exists_eq_left', hcell, hscope, hlink]
    · rfl

theorem relocate_within (hg : m.placement? g = some pl) (hp : p.IsValid)
    (hcell : pl.cell = p.cellCoord) : m.relocate g p =
      { result := .ok ⟨pl.cell, p.cellCoord⟩, map := m.place { pl with position := p } } := by
  rw [WorldMap.relocate, hg]
  simp only [locate_of_valid hp, Relocation.changedCell, hcell, ne_eq, not_true_eq_false,
    decide_false, Bool.not_false, if_true]

/-- A move into another cell leaves the map that is left when the object is removed and added
again. -/
theorem Indexed.relocate_across (h : m.Indexed) (hg : m.placement? g = some pl) (hp : p.IsValid)
    (hcell : pl.cell ≠ p.cellCoord) : m.relocate g p =
      { result := .ok ⟨pl.cell, p.cellCoord⟩
        map := ((m.remove g).map.add g p pl.scope).map } := by
  obtain ⟨rfl, hfits⟩ := h.fits hg
  obtain ⟨m₁, hun, hout⟩ := h.unlink hg
  have hgone : (m₁.displace pl.guid).placement? pl.guid = none := by
    rw [hout.placement?, Function.update_self]
  obtain ⟨l, m₂, hlink, -⟩ := hout.indexed.link hgone hp.cellCoord hfits.held hp rfl
  have hadd := add_eq_enter hgone hfits.held hp
  rw [enter_of_link hlink] at hadd
  -- the placement that the removal drops first is replaced by the move in the end
  rw [link_displace] at hlink
  obtain ⟨hl, rfl⟩ := Prod.mk.inj hlink
  rw [remove_of_unlink hg hun, hadd, WorldMap.relocate, hg]
  have hmoved : m₁.link p.cellCoord pl.scope pl.guid =
      (.ok l, (m₁.link p.cellCoord pl.scope pl.guid).2) := Prod.ext hl rfl
  simp only [locate_of_valid hp, Relocation.changedCell, hcell, ne_eq, not_false_eq_true,
    decide_true, Bool.not_true, Bool.false_eq_true, if_false, hun]
  rw [hmoved]
  exact congrArg (Outcome.mk _ · _) (place_displace ⟨pl.guid, _, _, _, _⟩).symm

theorem Indexed.relocate (h : m.Indexed) (hg : m.placement? g = some pl) (hp : p.IsValid) :
    ∃ l m', m.relocate g p = { result := .ok ⟨pl.cell, p.cellCoord⟩, map := m' } ∧
      m.Becomes m' (Function.update m.placement? g (some ⟨g, p.cellCoord, pl.scope, p, l⟩)) := by
  obtain ⟨rfl, hfits⟩ := h.fits hg
  by_cases hcell : pl.cell = p.cellCoord
  · refine ⟨pl.link, _, relocate_within hg hp hcell, ?_⟩
    rw [← hcell]
    exact h.replace hg ⟨hp, hcell, hfits.onMap, hfits.held⟩ rfl rfl rfl rfl
  · obtain ⟨m₁, hrem, hout⟩ := h.remove hg
    have hgone : m₁.placement? pl.guid = none := by rw [hout.placement?, Function.update_self]
    obtain ⟨l, m₂, hadd, hin⟩ := hout.indexed.add hgone hfits.held hp
    refine ⟨l, m₂, ?_, hout.update hin⟩
    rw [h.relocate_across hg hp hcell, hrem, hadd]

theorem relocate_of_not_valid (hg : m.placement? g = some pl) (hp : ¬p.IsValid) :
    m.relocate g p = m.refuse (.badPosition p) := by
  rw [WorldMap.relocate, hg]
  simp only [locate, if_pos hp]

theorem relocate_refused
    (h : ¬((m.placement? g).isSome ∧ p.IsValid)) :
    ∃ f, m.relocate g p = m.refuse f := by
  rw [WorldMap.relocate]
  split
  · exact ⟨_, rfl⟩
  · rename_i hg
    split
    · exact ⟨_, rfl⟩
    · rename_i hd
      exact absurd ⟨by rw [hg]; rfl, locate_eq_ok hd⟩ h

/-- A move never writes to the directory. -/
theorem Indexed.notes_relocate (h : m.Indexed) (g : Guid) (p : Position) :
    (m.relocate g p).notes = [] := by
  by_cases hok : (m.placement? g).isSome ∧ p.IsValid
  · obtain ⟨hg, hp⟩ := hok
    obtain ⟨old, hg⟩ := Option.isSome_iff_exists.1 hg
    obtain ⟨l, m', hmove, -⟩ := h.relocate hg hp
    rw [hmove]
  · obtain ⟨f, hmove⟩ := relocate_refused hok
    rw [hmove]
    rfl

end Realm.WorldMap
