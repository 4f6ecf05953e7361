import Realm.Proofs.WorldMap.Objects

/-! # Addresses

Every point of a map has a cell and a grid on the map, found axis by axis and in order. So no
operation that takes a position comes to a coordinate off the map: the position is refused
beforehand, or it has its cell. Clamping makes a point of the map of any two numbers. -/

namespace Realm

/-! ## Lookups -/

namespace Geometry

open Binary
open Ruler (sound_cells sound_grids)

variable {c : Single}

/-- A lookup finds a valid coordinate for every point of the map, each component by its own axis and
in order. -/
structure Addresses {limit : UInt32} (lookup : Single → Single → Coord limit) : Prop where
  valid : ∀ {x y}, OnMap x → OnMap y → (lookup x y).IsValid
  ownX : ∀ x y y', (lookup x y).x = (lookup x y').x
  ownY : ∀ x x' y, (lookup x y).y = (lookup x' y).y
  orderX : ∀ {x x'} y, OnMap x → OnMap x' → x ≤ x' → (lookup x y).x ≤ (lookup x' y).x
  orderY : ∀ x {y y'}, OnMap y → OnMap y' → y ≤ y' → (lookup x y).y ≤ (lookup x y').y

theorem addresses_of_axis {limit : UInt32} {axis : Single → UInt32}
    (hlt : ∀ {c}, OnMap c → axis c < limit)
    (hmono : ∀ {c c'}, OnMap c → OnMap c' → c ≤ c' → axis c ≤ axis c') :
    Addresses fun x y => (⟨axis x, axis y⟩ : Coord limit) where
  valid hx hy := ⟨hlt hx, hlt hy⟩
  ownX _ _ _ := rfl
  ownY _ _ _ := rfl
  orderX _ := hmono
  orderY _ _ _ := hmono

theorem addresses_cellCoordAt : Addresses cellCoordAt :=
  addresses_of_axis OnMap.cellAxis_lt sound_cells.axis_mono

theorem addresses_gridCoordAt : Addresses gridCoordAt :=
  addresses_of_axis OnMap.gridAxis_lt sound_grids.axis_mono

/-! ## Clamping -/

theorem clamp_of_onMap (h : OnMap c) : clamp c = c := by
  rw [clamp, if_neg (not_lt_of_le h.between.high), if_neg (not_lt_of_le h.between.low)]

theorem onMap_clamp : OnMap (clamp c) ↔ c ≠ .nan := by
  constructor
  · rintro h rfl
    exact absurd h (by decide +kernel)
  · intro hc
    obtain ⟨a, ha⟩ : ∃ a, c.place? = some a := by
      cases c with
      | nan => exact absurd rfl hc
      | infinite negative => exact ⟨_, rfl⟩
      | finite negative rank => exact ⟨_, rfl⟩
    exact .of_between (clamp_between ha)

end Geometry

/-! ## Operations on positions -/

/-- A coordinate is off the map. -/
def Fault.OffMap : Fault → Prop
  | .cellOffMap .. | .gridOffMap .. => True
  | _ => False

/-- An outcome does not complain of a coordinate off the map. -/
def Outcome.Addressed {α : Type} (o : Outcome α) : Prop := ∀ f, o.result = .error f → ¬f.OffMap

namespace WorldMap

open Realm.Geometry

variable {m : WorldMap} {d : CellCoord} {s : Scope} {k : Kind} {g : Guid} {p : Position}
  {pl : Placement} {f : Fault}

theorem checks_eq_error (h : (m.checkUnplaced g *> locate g p) = .error f) : ¬f.OffMap := by
  rw [checkUnplaced] at h
  split at h
  · cases h
    exact not_false
  · rw [locate_eq_error h]
    exact not_false

theorem link_eq_error (hd : d.IsValid) (h : (m.link d s g).1 = .error f) : ¬f.OffMap := by
  obtain ⟨grid, m', hload, -⟩ := load_spec (m := m) (CellCoord.gridCoord_isValid.2 hd)
  rw [link, hload] at h
  dsimp only at h
  split at h
  · cases h
    exact not_false
  · cases h

theorem linkKind_eq_error (hd : d.IsValid) (h : (m.linkKind d s k g).1 = .error f) :
    ¬f.OffMap := by
  obtain ⟨grid, m', hload, -⟩ := load_spec (m := m) (CellCoord.gridCoord_isValid.2 hd)
  rw [linkKind, hload] at h
  cases h

theorem unlink_eq_error (h : m.unlink pl = .error f) : ¬f.OffMap := by
  rw [unlink] at h
  split at h
  · cases h
    exact not_false
  · split at h
    · cases h
      exact not_false
    · cases h

theorem addressed_refuse {α : Type} (hf : ¬f.OffMap) : (m.refuse f : Outcome α).Addressed := by
  rintro _ ⟨⟩
  exact hf

theorem addressed_of_ok {α : Type} {o : Outcome α} {a : α} (h : o.result = .ok a) :
    o.Addressed := by
  intro f hf
  rw [h] at hf
  exact nomatch hf

theorem addressed_enroll {linked : Except Fault Link × WorldMap}
    (h : ∀ {f : Fault}, linked.1 = .error f → ¬f.OffMap) : (enroll linked g p s d).Addressed := by
  obtain ⟨result, m'⟩ := linked
  cases result with
  | error f => exact addressed_refuse (h rfl)
  | ok link => exact addressed_of_ok rfl

/-- An entry after the checks. -/
theorem addressed_entry {linked : CellCoord → Except Fault Link × WorldMap}
    (h : ∀ {cell : CellCoord} {f : Fault}, cell.IsValid → (linked cell).1 = .error f → ¬f.OffMap) :
    (match m.checkUnplaced g *> locate g p with
      | .error f => m.refuse f
      | .ok cell => enroll (linked cell) g p s cell).Addressed := by
  split
  · rename_i hfail
    exact addressed_refuse (checks_eq_error hfail)
  · rename_i cell hpass
    obtain ⟨hg, hp⟩ := checks_eq_ok hpass
    rw [checks_of_ok hg hp] at hpass
    exact addressed_enroll (h (Except.ok.inj hpass ▸ hp.cellCoord))

theorem addressed_add (m : WorldMap) (g : Guid) (p : Position) (s : Scope) :
    (m.add g p s).Addressed := by
  rw [WorldMap.add]
  split
  · exact addressed_refuse not_false
  · exact addressed_entry link_eq_error

theorem addressed_addKind (m : WorldMap) (k : Kind) (g : Guid) (p : Position) (s : Scope) :
    (m.addKind k g p s).Addressed := by
  rw [WorldMap.addKind]
  split
  · exact addressed_refuse not_false
  · exact addressed_entry linkKind_eq_error

theorem addressed_relocate (m : WorldMap) (g : Guid) (p : Position) :
    (m.relocate g p).Addressed := by
  rw [WorldMap.relocate]
  split
  · exact addressed_refuse not_false
  · split
    · rename_i hfail
      rw [locate_eq_error hfail]
      exact addressed_refuse not_false
    · rename_i cell hpass
      have hcell : cell.IsValid := locate_eq hpass ▸ (locate_eq_ok hpass).cellCoord
      dsimp only
      split
      · exact addressed_of_ok rfl
      · split
        · rename_i hfail
          exact addressed_refuse (unlink_eq_error hfail)
        · split
          · rename_i hlink
            rintro _ ⟨⟩
            exact link_eq_error hcell (congrArg Prod.fst hlink)
          · exact addressed_of_ok rfl

/-- Points of the map are addressed in order, what is clamped is a point of the map, and no position
leads an operation to a coordinate off the map. -/
theorem addressed :
    (Addresses cellCoordAt ∧ Addresses gridCoordAt) ∧
    (∀ c, (OnMap (clamp c) ↔ c ≠ .nan) ∧ (OnMap c → clamp c = c)) ∧
    ∀ (m : WorldMap) (g : Guid) (p : Position),
      (p.IsValid → locate g p = .ok p.cellCoord) ∧
      (∀ s, (m.add g p s).Addressed) ∧ (∀ k s, (m.addKind k g p s).Addressed) ∧
      (m.relocate g p).Addressed :=
  ⟨⟨addresses_cellCoordAt, addresses_gridCoordAt⟩, fun _ => ⟨onMap_clamp, clamp_of_onMap⟩,
    fun m g p => ⟨locate_of_valid, m.addressed_add g p, fun k => m.addressed_addKind k g p,
      m.addressed_relocate g p⟩⟩

end WorldMap
end Realm
