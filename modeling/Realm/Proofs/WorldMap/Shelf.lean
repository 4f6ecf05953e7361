import Realm.Proofs.Coord
import Realm.Proofs.Grid.Ageing
import Realm.Proofs.Grid.Contents

/-! # The grids of a map

A map is seen through the entries that its cells list. Loading, locking, ageing and unloading grids
never changes what is listed, and a link changes it in one cell. -/

namespace Realm

/-- Whether it is to be unloaded or not, a grid that waits keeps its contents. -/
theorem Grid.SameContents.wait (g : Grid) (diff : Duration) : g.SameContents (g.wait diff).1 := by
  obtain ⟨state, retention, -, -, he⟩ := g.wait_eq diff
  rw [he]
  exact ⟨rfl, rfl, rfl, rfl⟩

theorem Grid.SameContents.age {g g' : Grid} {diff : Duration} (h : g.age diff = some g') :
    g.SameContents g' := by
  obtain ⟨-, rfl⟩ := Grid.age_eq_wait h
  exact .wait g diff

namespace WorldMap

variable {m m' m'' : WorldMap} {c : GridCoord} {d : CellCoord} {s : Scope} {k : Kind} {i : Nat}
  {g g' : Grid} {guid : Guid} {l : Link}

/-! ## Loaded grids -/

theorem grid?_eq_some : m.grid? c = some g ↔ c.IsValid ∧ m.grids[c.id.toNat]? = some g := by
  rw [grid?, Option.ite_none_right_eq_some]

theorem grid?_of_valid (hc : c.IsValid) : m.grid? c = m.grids[c.id.toNat]? := if_pos hc

/-- The entries of a cell for a scope and kind. There are none if the cell's grid is not loaded. -/
def listed (m : WorldMap) (d : CellCoord) (s : Scope) (k : Kind) : List (Link × Guid) :=
  match m.grid? (CellCoord.gridCoord d) with
  | some g => (g.roster (CellCoord.localIndex d) s k).toList
  | none => []

theorem listed_of_grid? (h : m.grid? (CellCoord.gridCoord d) = some g) :
    m.listed d s k = (g.roster (CellCoord.localIndex d) s k).toList := by
  rw [listed, h]

theorem mem_listed {e : Link × Guid} : e ∈ m.listed d s k ↔
    ∃ g, m.grid? (CellCoord.gridCoord d) = some g ∧
      e ∈ (g.roster (CellCoord.localIndex d) s k).toList := by
  cases hg : m.grid? (CellCoord.gridCoord d) with
  | none => simp [listed, hg]
  | some g => simp [listed_of_grid? hg]

/-- Every loaded grid is sound and stands under its own number, and the map counts them. -/
structure Shelved (m : WorldMap) : Prop where
  keyed : ∀ {i : Nat} {g : Grid}, m.grids[i]? = some g → g.coord.IsValid ∧ g.coord.id.toNat = i
  sound : ∀ {i : Nat} {g : Grid}, m.grids[i]? = some g → g.Sound
  counted : m.loadedCount = m.grids.size

theorem Shelved.coord_eq (h : m.Shelved) (hg : m.grid? c = some g) : g.coord = c := by
  obtain ⟨hc, hg⟩ := grid?_eq_some.1 hg
  obtain ⟨hv, hi⟩ := h.keyed hg
  exact GridCoord.id_inj hv hc hi

theorem Shelved.kinds (h : m.Shelved) {e : Link × Guid} (he : e ∈ m.listed d s k) :
    e.2.kind = k ∧ s.Holds k := by
  obtain ⟨g, hg, he⟩ := mem_listed.1 he
  exact (h.sound (grid?_eq_some.1 hg).2).kinds he

/-- In one list a link leads to one guid. -/
theorem Shelved.eq_of_link (h : m.Shelved) {guid' : Guid} (hl : (l, guid) ∈ m.listed d s k)
    (hl' : (l, guid') ∈ m.listed d s k) : guid = guid' := by
  obtain ⟨g, hg, hl⟩ := mem_listed.1 hl
  have hr := (h.sound (grid?_eq_some.1 hg).2).rosters (CellCoord.localIndex d) s k
  rw [Roster.mem_toList hr] at hl
  rw [listed_of_grid? hg, Roster.mem_toList hr] at hl'
  exact Option.some.inj (hl.symm.trans hl')

/-! ## Maps that differ in their grids alone -/

structure SameRecords (m m' : WorldMap) : Prop where
  id : m'.id = m.id
  config : m'.config = m.config
  placements : m'.placements = m.placements
  queue : m'.queue = m.queue

theorem SameRecords.refl (m : WorldMap) : m.SameRecords m := ⟨rfl, rfl, rfl, rfl⟩

theorem SameRecords.trans (h : m.SameRecords m') (h' : m'.SameRecords m'') : m.SameRecords m'' :=
  ⟨h'.id.trans h.id, h'.config.trans h.config, h'.placements.trans h.placements,
    h'.queue.trans h.queue⟩

theorem SameRecords.placement? (h : m.SameRecords m') : m'.placement? = m.placement? := by
  funext g
  rw [WorldMap.placement?, h.placements, WorldMap.placement?]

theorem SameRecords.contains (h : m.SameRecords m') : m'.contains = m.contains := by
  funext g
  rw [WorldMap.contains, h.placements, WorldMap.contains]

/-- What may become of the grid under a number while its objects are left alone. -/
inductive Kept (i : Nat) : Option Grid → Option Grid → Prop
  | none : Kept i none none
  | same {g g' : Grid} (h : g.SameContents g') : Kept i (some g) (some g')
  | loaded {g : Grid} (hkey : g.coord.IsValid ∧ g.coord.id.toNat = i) (hg : g.Sound)
      (he : g.isEmpty = true) : Kept i none (some g)
  | dropped {g : Grid} (he : g.isEmpty = true) : Kept i (some g) none

theorem Kept.refl (i : Nat) (o : Option Grid) : Kept i o o := by
  cases o with
  | none => exact .none
  | some g => exact .same (.refl g)

/-- `m'` is `m` with other grids that list the same entries. -/
structure Keeps (m m' : WorldMap) : Prop extends SameRecords m m' where
  shelved : m.Shelved → m'.Shelved
  listed : m.Shelved → m'.listed = m.listed

theorem Keeps.refl (m : WorldMap) : m.Keeps m := ⟨.refl m, fun h => h, fun _ => rfl⟩

theorem Keeps.trans (h : m.Keeps m') (h' : m'.Keeps m'') : m.Keeps m'' :=
  ⟨h.toSameRecords.trans h'.toSameRecords, fun hm => h'.shelved (h.shelved hm),
    fun hm => (h'.listed (h.shelved hm)).trans (h.listed hm)⟩

theorem Keeps.foldl {α : Type} {f : WorldMap → α → WorldMap} (h : ∀ m a, Keeps m (f m a))
    (items : List α) (m : WorldMap) : m.Keeps (items.foldl f m) := by
  induction items generalizing m with
  | nil => exact .refl m
  | cons a items ih => exact (h m a).trans (ih _)

theorem Keeps.of_kept (hsame : m.SameRecords m')
    (hcount : m.Shelved → m'.loadedCount = m'.grids.size)
    (hkept : ∀ i, Kept i m.grids[i]? m'.grids[i]?) : m.Keeps m' := by
  refine ⟨hsame, fun h => ⟨?_, ?_, hcount h⟩, ?_⟩
  · intro i g' hg'
    have hi := hkept i
    rw [hg'] at hi
    generalize hg : m.grids[i]? = o at hi
    cases hi with
    | same hs => rw [hs.coord]; exact h.keyed hg
    | loaded hkey => exact hkey
  · intro i g' hg'
    have hi := hkept i
    rw [hg'] at hi
    generalize hg : m.grids[i]? = o at hi
    cases hi with
    | same hs => exact (h.sound hg).sameContents hs
    | loaded _ hs => exact hs
  · intro h
    funext d s k
    unfold WorldMap.listed
    by_cases hc : (CellCoord.gridCoord d).IsValid
    · rw [grid?_of_valid hc, grid?_of_valid hc]
      have hi := hkept (CellCoord.gridCoord d).id.toNat
      generalize hg : m.grids[(CellCoord.gridCoord d).id.toNat]? = o at hi
      generalize m'.grids[(CellCoord.gridCoord d).id.toNat]? = o' at hi
      cases hi with
      | none => rfl
      | same hs => simp only [hs.roster]
      | loaded _ hs he => simp only [Grid.toList_of_isEmpty hs he]
      | dropped he => simp only [Grid.toList_of_isEmpty (h.sound hg) he]
    · simp only [grid?, if_neg hc]

/-! ## Putting a grid in place of another -/

theorem getElem?_setGrid (c : GridCoord) (g : Grid) (i : Nat) :
    (m.setGrid c g).grids[i]? = if i = c.id.toNat then some g else m.grids[i]? := by
  rw [setGrid, Std.ExtTreeMap.getElem?_insert]
  simp only [Std.LawfulEqCmp.compare_eq_iff_eq, eq_comm (a := i)]

theorem size_setGrid (hg : m.grid? c = some g) :
    (m.setGrid c g').grids.size = m.grids.size := by
  have hmem : m.grids.contains c.id.toNat = true := by
    rw [Std.ExtTreeMap.contains_eq_isSome_getElem?, (grid?_eq_some.1 hg).2]
    rfl
  rw [setGrid, Std.ExtTreeMap.size_insert, if_pos hmem]

theorem SameRecords.setGrid (m : WorldMap) (c : GridCoord) (g : Grid) :
    m.SameRecords (m.setGrid c g) :=
  ⟨rfl, rfl, rfl, rfl⟩

theorem Keeps.setGrid (hg : m.grid? c = some g) (h : g.SameContents g') :
    m.Keeps (m.setGrid c g') := by
  refine .of_kept (.setGrid m c g') (fun hm => ?_) fun i => ?_
  · rw [size_setGrid hg]; exact hm.counted
  · rw [getElem?_setGrid]
    split
    · subst i
      rw [(grid?_eq_some.1 hg).2]
      exact .same h
    · exact .refl ..

theorem Shelved.setGrid (h : m.Shelved) (hg : m.grid? c = some g) (hs : g'.Sound)
    (hc : g'.coord = c) : (m.setGrid c g').Shelved where
  keyed {i x} hx := by
    rw [getElem?_setGrid] at hx
    split at hx
    · cases hx
      subst i
      rw [hc]
      exact ⟨(grid?_eq_some.1 hg).1, rfl⟩
    · exact h.keyed hx
  sound {i x} hx := by
    rw [getElem?_setGrid] at hx
    split at hx
    · cases hx; exact hs
    · exact h.sound hx
  counted := by rw [size_setGrid hg]; exact h.counted

theorem grid?_setGrid (hc : c.IsValid) (c' : GridCoord) :
    (m.setGrid c g').grid? c' = if c' = c then some g' else m.grid? c' := by
  rcases eq_or_ne c' c with rfl | hne
  · rw [if_pos rfl, grid?_of_valid hc, getElem?_setGrid, if_pos rfl]
  · rw [if_neg hne, grid?, grid?, getElem?_setGrid]
    split
    · rename_i hc'
      rw [if_neg fun hi => hne (GridCoord.id_inj hc' hc hi)]
    · rfl

theorem listed_setGrid (hc : c.IsValid) : (m.setGrid c g').listed d s k =
    if CellCoord.gridCoord d = c then (g'.roster (CellCoord.localIndex d) s k).toList
    else m.listed d s k := by
  rcases eq_or_ne (CellCoord.gridCoord d) c with hd | hd
  · rw [if_pos hd, listed_of_grid? (g := g') (by rw [grid?_setGrid hc, if_pos hd])]
  · rw [if_neg hd, listed, listed, grid?_setGrid hc, if_neg hd]

/-- One list of the grid changes, and so one list of the map does. -/
theorem listed_change {f : List (Link × Guid) → List (Link × Guid)}
    (hg : m.grid? (CellCoord.gridCoord d) = some g)
    (hlist : ∀ i t q, (g'.roster i t q).toList =
      if i = CellCoord.localIndex d ∧ t = s ∧ q = k then f (g.roster i t q).toList
      else (g.roster i t q).toList)
    (d' : CellCoord) (t : Scope) (q : Kind) :
    (m.setGrid (CellCoord.gridCoord d) g').listed d' t q =
      if d' = d ∧ t = s ∧ q = k then f (m.listed d' t q) else m.listed d' t q := by
  rw [listed_setGrid (grid?_eq_some.1 hg).1]
  split
  · rename_i hd'
    have hi : CellCoord.localIndex d' = CellCoord.localIndex d ↔ d' = d :=
      ⟨CellCoord.eq_of_gridCoord_of_localIndex hd', fun e => e ▸ rfl⟩
    rw [hlist, listed_of_grid? (hd' ▸ hg)]
    simp only [hi]
  · rename_i hd'
    rw [if_neg fun he => hd' (congrArg _ he.1)]

end WorldMap
end Realm
