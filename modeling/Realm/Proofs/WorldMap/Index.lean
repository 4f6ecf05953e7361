import Mathlib.Logic.Function.Basic
import Realm.Proofs.WorldMap.Housekeeping

/-! # The index of a map

Placements and entries answer each other: every placement is listed in its cell, and nothing else is
listed anywhere. Each operation on objects either is refused and changes nothing, or changes the
placement of its one object. -/

namespace Realm

/-- A placement agrees with itself: its cell is the cell of its position, and its scope may hold
its object. -/
structure Placement.Fits (p : Placement) : Prop where
  valid : p.position.IsValid
  cell : p.cell = p.position.cellCoord
  onMap : p.cell.IsValid
  held : p.scope.Holds p.guid.kind

namespace WorldMap

variable {m m' : WorldMap} {d : CellCoord} {s : Scope} {k : Kind}
  {g : Guid} {l : Link} {p : Position} {pl : Placement}

theorem listed_place : (m.place pl).listed = m.listed := rfl

theorem listed_displace : (m.displace g).listed = m.listed := rfl

theorem Shelved.congr (h : m.Shelved) (hg : m'.grids = m.grids)
    (hc : m'.loadedCount = m.loadedCount) : m'.Shelved :=
  ⟨hg ▸ h.keyed, hg ▸ h.sound, by rw [hc, hg, h.counted]⟩

/-! ## Links -/

/-- A link puts one entry more at the end of one list. -/
theorem link_spec (h : m.Shelved) (hd : d.IsValid) (hs : s.Holds g.kind) :
    ∃ l m', m.link d s g = (.ok l, m') ∧ m.SameRecords m' ∧ m'.Shelved ∧
      ∀ d' t q, m'.listed d' t q =
        if d' = d ∧ t = s ∧ q = g.kind then m.listed d' t q ++ [(l, g)] else m.listed d' t q := by
  have hc := CellCoord.gridCoord_isValid.2 hd
  obtain ⟨grid, m₁, hload, hkeep, hgrid⟩ := load_spec (m := m) hc
  have h₁ := hkeep.shelved h
  obtain ⟨l, grid', hins, hsound, hcoord, hlist⟩ :=
    (h₁.sound (grid?_eq_some.1 hgrid).2).insert? hs d
  refine ⟨l, m₁.setGrid (CellCoord.gridCoord d) grid', by rw [link, hload]; simp only [hins],
    hkeep.toSameRecords.trans (.setGrid ..),
    h₁.setGrid hgrid hsound (hcoord.trans (h₁.coord_eq hgrid)), fun d' t q => ?_⟩
  rw [← hkeep.listed h]
  exact listed_change (f := (· ++ [(l, g)])) hgrid hlist d' t q

/-- A listed entry can be taken out, and no other goes with it. -/
theorem unlink_spec (h : m.Shelved) (hl : (pl.link, g) ∈ m.listed pl.cell pl.scope pl.guid.kind) :
    ∃ m', m.unlink pl = .ok m' ∧ m.SameRecords m' ∧ m'.Shelved ∧
      ∀ d' t q, m'.listed d' t q =
        if d' = pl.cell ∧ t = pl.scope ∧ q = pl.guid.kind
        then (m.listed d' t q).filter (·.1 ≠ pl.link) else m.listed d' t q := by
  obtain ⟨grid, hgrid, hl⟩ := mem_listed.1 hl
  obtain ⟨grid', hera, hsound, hcoord, hlist⟩ := (h.sound (grid?_eq_some.1 hgrid).2).erase? hl
  refine ⟨m.setGrid (CellCoord.gridCoord pl.cell) grid', ?_, .setGrid ..,
    h.setGrid hgrid hsound (hcoord.trans (h.coord_eq hgrid)), ?_⟩
  · simp only [unlink, Placement.gridCoord, hgrid, hera]
  · exact listed_change (f := List.filter (·.1 ≠ pl.link)) hgrid hlist

/-! ## The invariant -/

/-- Placements fit, and the entries of the cells are their links. -/
structure Indexed (m : WorldMap) : Prop extends Shelved m where
  fits : ∀ {g : Guid} {p : Placement}, m.placement? g = some p → p.guid = g ∧ p.Fits
  entry : ∀ {d : CellCoord} {s : Scope} {k : Kind} {l : Link} {g : Guid},
    (l, g) ∈ m.listed d s k ↔
      ∃ p, m.placement? g = some p ∧ p.cell = d ∧ p.scope = s ∧ g.kind = k ∧ p.link = l

/-- Every placement stands under its own guid and fits, whatever the cells list. -/
structure Filed (m : WorldMap) : Prop where
  fits : ∀ {g : Guid} {p : Placement}, m.placement? g = some p → p.guid = g ∧ p.Fits

theorem Filed.congr (h : m.Filed) (hp : m'.placement? = m.placement?) : m'.Filed :=
  ⟨fun hg => h.fits (by rwa [← hp])⟩

theorem Filed.update (h : m.Filed) {x : Option Placement}
    (hp : m'.placement? = Function.update m.placement? g x)
    (hx : ∀ pl, x = some pl → pl.guid = g ∧ pl.Fits) : m'.Filed := by
  refine ⟨fun {g' pl} hg' => ?_⟩
  rw [hp] at hg'
  rcases eq_or_ne g' g with rfl | hne
  · rw [Function.update_self] at hg'
    exact hx pl hg'
  · rw [Function.update_of_ne hne] at hg'
    exact h.fits hg'

theorem Indexed.filed (h : m.Indexed) : m.Filed := ⟨h.fits⟩

theorem Indexed.keeps (h : m.Indexed) (hk : m.Keeps m') : m'.Indexed where
  toShelved := hk.shelved h.toShelved
  fits := (h.filed.congr hk.placement?).fits
  entry := by
    intro d s k l g
    rw [hk.listed h.toShelved, h.entry, hk.placement?]

theorem Indexed.listed_self (h : m.Indexed) (hg : m.placement? g = some pl) :
    (pl.link, g) ∈ m.listed pl.cell pl.scope g.kind :=
  h.entry.2 ⟨pl, hg, rfl, rfl, rfl, rfl⟩

theorem indexed_new (id : MapId) (config : MapConfig) : Indexed { id, config } where
  keyed h := by simp at h
  sound h := by simp at h
  counted := rfl
  fits h := by simp [placement?] at h
  entry := by simp [listed, grid?, placement?]

/-! ## Changes of one placement -/

theorem placement?_place (pl : Placement) :
    (m.place pl).placement? = Function.update m.placement? pl.guid (some pl) := by
  funext g
  rw [placement?, place, Std.ExtTreeMap.getElem?_insert, Function.update_apply, placement?]
  simp only [Std.LawfulEqCmp.compare_eq_iff_eq, eq_comm (a := g)]

theorem placement?_displace (g : Guid) :
    (m.displace g).placement? = Function.update m.placement? g none := by
  funext g'
  rw [placement?, displace, Std.ExtTreeMap.getElem?_erase, Function.update_apply, placement?]
  simp only [Std.LawfulEqCmp.compare_eq_iff_eq, eq_comm (a := g')]

/-- `m'` has come from `m` by changes to its objects: the placements are given, the index is whole,
and the rest is as before. -/
structure Becomes (m m' : WorldMap) (placement? : Guid → Option Placement) : Prop where
  id : m'.id = m.id
  config : m'.config = m.config
  queue : m'.queue = m.queue
  placement? : m'.placement? = placement?
  indexed : m'.Indexed

/-- Of two changes of one placement the second counts. -/
theorem Becomes.update {m'' : WorldMap} {x y : Option Placement}
    (h : m.Becomes m' (Function.update m.placement? g x))
    (h' : m'.Becomes m'' (Function.update m'.placement? g y)) :
    m.Becomes m'' (Function.update m.placement? g y) where
  id := h'.id.trans h.id
  config := h'.config.trans h.config
  queue := h'.queue.trans h.queue
  placement? := by rw [h'.placement?, h.placement?, Function.update_idem]
  indexed := h'.indexed

theorem Indexed.becomes (h : m.Indexed) (hk : m.Keeps m') : m.Becomes m' m.placement? :=
  ⟨hk.id, hk.config, hk.queue, hk.placement?, h.keeps hk⟩

/-- A new placement, listed where it says. -/
theorem Indexed.link (h : m.Indexed) (hg : m.placement? g = none) (hd : d.IsValid)
    (hs : s.Holds g.kind) (hp : p.IsValid) (hcell : d = p.cellCoord) :
    ∃ l m', m.link d s g = (.ok l, m') ∧
      m.Becomes (m'.place ⟨g, d, s, p, l⟩)
        (Function.update m.placement? g (some ⟨g, d, s, p, l⟩)) := by
  obtain ⟨l, m', hlink, hsame, hshelf, hlist⟩ := link_spec h.toShelved hd hs
  have hpl : (m'.place ⟨g, d, s, p, l⟩).placement? =
      Function.update m.placement? g (some ⟨g, d, s, p, l⟩) := by
    rw [placement?_place, hsame.placement?]
  refine ⟨l, m', hlink, hsame.id, hsame.config, hsame.queue, hpl, hshelf.congr rfl rfl,
    (h.filed.update hpl ?_).fits, ?_⟩
  · rintro _ ⟨⟩
    exact ⟨rfl, hp, hcell, hd, hs⟩
  · intro d' t q l' g'
    rw [listed_place, hlist, hpl]
    rcases eq_or_ne g' g with rfl | hg'
    · -- nothing was listed for the guid before, as it had no placement
      have hnone : (l', g') ∉ m.listed d' t q := fun hm => by
        obtain ⟨_, hp', _⟩ := h.entry.1 hm
        rw [hg] at hp'
        exact nomatch hp'
      simp only [Function.update_self, Option.some.injEq, exists_eq_left']
      split
      · rename_i he
        obtain ⟨rfl, rfl, rfl⟩ := he
        simp [hnone, eq_comm]
      · rename_i he
        simp only [hnone, false_iff]
        rintro ⟨rfl, rfl, rfl, rfl⟩
        exact he ⟨rfl, rfl, rfl⟩
    · rw [Function.update_of_ne hg', ← h.entry]
      split <;> simp [hg']

/-- A placement goes, and its entry with it. -/
theorem Indexed.unlink (h : m.Indexed) (hg : m.placement? g = some pl) :
    ∃ m', m.unlink pl = .ok m' ∧
      m.Becomes (m'.displace g) (Function.update m.placement? g none) := by
  obtain ⟨rfl, hfits⟩ := h.fits hg
  obtain ⟨m', hun, hsame, hshelf, hlist⟩ := unlink_spec h.toShelved (h.listed_self hg)
  have hpl : (m'.displace pl.guid).placement? = Function.update m.placement? pl.guid none := by
    rw [placement?_displace, hsame.placement?]
  refine ⟨m', hun, hsame.id, hsame.config, hsame.queue, hpl, hshelf.congr rfl rfl,
    (h.filed.update hpl ?_).fits, ?_⟩
  · rintro _ ⟨⟩
  · intro d' t q l' g'
    rw [listed_displace, hlist, hpl]
    rcases eq_or_ne g' pl.guid with rfl | hg'
    · simp only [Function.update_self, reduceCtorEq, false_and, exists_false, iff_false]
      split
      · rename_i he
        obtain ⟨rfl, rfl, rfl⟩ := he
        simp only [List.mem_filter, decide_eq_true_eq, not_and, not_not]
        intro hm
        obtain ⟨q, hq, -, -, -, rfl⟩ := h.entry.1 hm
        rw [hg] at hq
        cases hq
        rfl
      · intro hm
        obtain ⟨q, hq, rfl, rfl, rfl, rfl⟩ := h.entry.1 hm
        rw [hg] at hq
        cases hq
        rename_i he
        exact he ⟨rfl, rfl, rfl⟩
    · rw [Function.update_of_ne hg', ← h.entry]
      split
      · rename_i he
        obtain ⟨rfl, rfl, rfl⟩ := he
        rw [List.mem_filter, and_iff_left_iff_imp, decide_eq_true_eq]
        rintro hm rfl
        exact hg' (h.eq_of_link hm (h.listed_self hg))
      · rfl

end WorldMap
end Realm
