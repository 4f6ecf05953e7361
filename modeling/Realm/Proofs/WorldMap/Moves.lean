import Realm.Proofs.WorldMap.Reach

/-! # Moves

A move has a path of its own through the map: the entry goes straight from one cell to the other, and
the directory hears nothing of it. Into another cell it leaves the very map that is left when the
object is removed and added again. -/

namespace Realm

/-- A map that takes its registration of a guid back and makes it again is registered as before,
though now as the latest. -/
theorem Directory.perm_registrations_again {d : Directory} {g : Guid} {id : MapId}
    (h : id ∈ d.registrations g) (g' : Guid) :
    ((d.notes id [.gone g, .placed g]).registrations g').Perm (d.registrations g') := by
  change (((d.unregister g id).register g id).registrations g').Perm _
  rw [registrations_register, registrations_unregister, registrations_unregister, if_pos rfl]
  split
  · rename_i hg
    rw [hg]
    exact List.perm_append_comm.trans (List.perm_cons_erase h).symm
  · exact .refl _

namespace WorldMap

variable {m : WorldMap} {g : Guid} {p : Position} {old new : Placement}

/-- A move into another cell comes out like a removal and an addition. -/
structure Crosses (m : WorldMap) (g : Guid) (old new : Placement) (p : Position) : Prop where
  removed : (m.remove g).result = .ok old
  added : ((m.remove g).map.add g p old.scope).result = .ok new.cell
  moved : (m.relocate g p).result = .ok ⟨old.cell, new.cell⟩
  changedGrid : Relocation.changedGrid ⟨old.cell, new.cell⟩ = true ↔ old.gridCoord ≠ new.gridCoord
  /-- The same placements with the same links, the same grids with the same lists and counts. -/
  map : (m.relocate g p).map = ((m.remove g).map.add g p old.scope).map
  placement? : (m.relocate g p).map.placement? = Function.update m.placement? g (some new)
  lands : new.guid = g ∧ new.cell = p.cellCoord ∧ new.scope = old.scope ∧ new.position = p
  /-- The removal and the addition tell the directory what the move need not tell. -/
  registered : ∀ d : Directory, m.id ∈ d.registrations g → ∀ g',
    ((d.notes m.id ((m.remove g).notes ++
      ((m.remove g).map.add g p old.scope).notes)).registrations g').Perm (d.registrations g')

/-- A move inside a cell changes the position of its object and nothing else. -/
structure Stays (m : WorldMap) (g : Guid) (old : Placement) (p : Position) : Prop where
  moved : (m.relocate g p).result = .ok ⟨old.cell, old.cell⟩
  map : (m.relocate g p).map = { m with placements := (m.relocate g p).map.placements }
  placement? : (m.relocate g p).map.placement? =
    Function.update m.placement? g (some { old with position := p })
  listed : (m.relocate g p).map.listed = m.listed

/-- How a move of an object comes out that has the placement `old`. -/
structure Moves (m : WorldMap) (g : Guid) (old : Placement) (p : Position) : Prop where
  across : p.IsValid → p.cellCoord ≠ old.cell → ∃ new, m.Crosses g old new p
  within : p.IsValid → p.cellCoord = old.cell → m.Stays g old p
  refused : ¬p.IsValid → m.relocate g p = m.refuse (.badPosition p)
  directory : ∀ d : Directory, d.notes m.id (m.relocate g p).notes = d

theorem Indexed.crosses (h : m.Indexed) (hg : m.placement? g = some old) (hp : p.IsValid)
    (hcell : p.cellCoord ≠ old.cell) : ∃ new, m.Crosses g old new p := by
  obtain ⟨rfl, hfits⟩ := h.fits hg
  have hmove := h.relocate_across hg hp hcell.symm
  obtain ⟨m₁, hrem, hout⟩ := h.remove hg
  have hgone : m₁.placement? old.guid = none := by rw [hout.placement?, Function.update_self]
  obtain ⟨l, m₂, hadd, hin⟩ := hout.indexed.add hgone hfits.held hp
  have hadd' : (m.remove old.guid).map.add old.guid p old.scope =
      { result := .ok p.cellCoord, map := m₂, notes := [.placed old.guid] } := by
    rw [hrem]
    exact hadd
  refine ⟨⟨old.guid, p.cellCoord, old.scope, p, l⟩, ?_⟩
  exact
    { removed := by rw [hrem]
      added := by rw [hadd']
      moved := by rw [hmove]
      changedGrid := decide_eq_true_iff
      map := by rw [hmove]
      placement? := by rw [hmove, hadd']; exact (hout.update hin).placement?
      lands := ⟨rfl, rfl, rfl, rfl⟩
      registered := fun d hd g' => by
        rw [hrem, hadd]
        exact Directory.perm_registrations_again hd g' }

theorem Indexed.stays (h : m.Indexed) (hg : m.placement? g = some old) (hp : p.IsValid)
    (hcell : p.cellCoord = old.cell) : m.Stays g old p := by
  obtain ⟨rfl, -⟩ := h.fits hg
  have hmove := relocate_within hg hp hcell.symm
  exact
    { moved := by rw [hmove, hcell]
      map := by rw [hmove]; rfl
      placement? := by rw [hmove]; exact placement?_place _
      listed := by rw [hmove]; rfl }

theorem Indexed.moves (h : m.Indexed) (hg : m.placement? g = some old) (p : Position) :
    m.Moves g old p where
  across := h.crosses hg
  within := h.stays hg
  refused := relocate_of_not_valid hg
  directory d := by
    rw [h.notes_relocate]
    rfl

/-- On a map after any operations, a move of a placed object agrees with a removal and an
addition. -/
theorem moves_runAll (id : MapId) (config : MapConfig) (ops : List Op) (g : Guid)
    (old : Placement) (p : Position) (hg : (runAll { id, config } ops).placement? g = some old) :
    (runAll { id, config } ops).Moves g old p :=
  ((indexed_new id config).runAll ops).moves hg p

/-- A creature leaves another one behind and moves into a grid that is not loaded yet. -/
theorem moves_abroad :
    let m := runAll { id := 0, config := {} }
      [.add ⟨.creature, 1⟩ (.flat 0 0) .grid, .add ⟨.creature, 2⟩ (.flat 0 0) .grid]
    let p := Position.flat 600 0
    ∃ old, m.placement? ⟨.creature, 1⟩ = some old ∧ p.IsValid ∧ p.cellCoord ≠ old.cell ∧
      m.isLoaded (CellCoord.gridCoord p.cellCoord) = false ∧ m.Moves ⟨.creature, 1⟩ old p :=
  ⟨_, (Option.some_get (by decide +kernel)).symm, by decide +kernel, by decide +kernel,
    by decide +kernel, moves_runAll _ _ _ _ _ _ (Option.some_get _).symm⟩

end WorldMap
end Realm
