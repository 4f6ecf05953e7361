import Realm.Proofs.Grid.Counters
import Realm.Proofs.WorldMap.Reporting
import Realm.Proofs.WorldMap.Writes

/-! # Registrations and placements

Someone who has a grid of a map at hand may take entries out of its cells behind the map's back. An
operation that misses an entry later on is refused in the middle. A move or an unload leaves the
directory in agreement with the map all the same. A removal does not: the placement is gone by then,
and the registration stays behind. -/

namespace Realm

/-- Each object that was struck is listed once less. -/
theorem Directory.tally_strikes {g : Guid} {gs : List Guid} (hgs : gs.Nodup) (n : Nat) :
    (gs.map Call.strike).foldl (Call.tally g) n = if g ∈ gs then n - 1 else n := by
  induction gs generalizing n with
  | nil => rfl
  | cons g' gs ih =>
    obtain ⟨hg', hgs⟩ := List.nodup_cons.1 hgs
    rw [List.map_cons, List.foldl_cons, ih hgs, Call.tally]
    rcases eq_or_ne g g' with rfl | hg
    · simp [hg']
    · simp [hg]

namespace WorldMap

variable {m m' m'' : WorldMap} {g : Guid} {p : Position} {s : Scope} {k : Kind} {c : GridCoord}
  {d : CellCoord} {pl : Placement} {notes notes' : List Directory.Note} {left left' : Guid → Nat}
  {t : Task}

/-! ## Books -/

/-- `m'` has come from `m`. Notes of placed objects answer new placements and notes of gone ones
those that are dropped, but for as many registrations as `left` says, to which nothing answers. -/
structure Books (m m' : WorldMap) (notes : List Directory.Note) (left : Guid → Nat) : Prop where
  id : m'.id = m.id
  filed : m'.Filed
  told : ∀ g n, (notes.map Directory.Note.call).foldl (Directory.Call.tally g)
    ((m.contains g).toNat + n) = (m'.contains g).toNat + left g + n

theorem Books.same (h : m.Filed) (hs : m.SameRecords m') : Books m m' [] fun _ => 0 where
  id := hs.id
  filed := h.congr hs.placement?
  told g n := by
    rw [hs.contains]
    rfl

theorem Books.trans (h : Books m m' notes left) (h' : Books m' m'' notes' left') :
    Books m m'' (notes ++ notes') fun g => left g + left' g where
  id := h'.id.trans h.id
  filed := h'.filed
  told g n := by
    rw [List.map_append, List.foldl_append, h.told, Nat.add_assoc, h'.told]
    omega

/-- The placement of one object changes. -/
theorem Books.update (h : m.Filed) {x : Option Placement} (hid : m'.id = m.id)
    (hp : m'.placement? = Function.update m.placement? g x)
    (hx : ∀ pl, x = some pl → pl.guid = g ∧ pl.Fits) (hothers : ∀ g', g' ≠ g → left g' = 0)
    (hnotes : ∀ n ∈ notes, n.guid = g)
    (hself : ∀ n, (notes.map Directory.Note.call).foldl (Directory.Call.tally g)
      ((m.placement? g).isSome.toNat + n) = x.isSome.toNat + left g + n) :
    Books m m' notes left where
  id := hid
  filed := h.update hp hx
  told g' n := by
    rw [contains_eq_isSome, contains_eq_isSome, hp]
    rcases eq_or_ne g' g with rfl | hne
    · rw [Function.update_self, hself]
    · rw [Function.update_of_ne hne, hothers g' hne]
      clear hself
      induction notes with
      | nil => rfl
      | cons note notes ih =>
        obtain ⟨hnote, hnotes⟩ := List.forall_mem_cons.1 hnotes
        have hstep (k : Nat) : note.call.tally g' k = k := by
          cases note <;> exact if_neg fun he => hne (he.trans hnote)
        rw [List.map_cons, List.foldl_cons, hstep]
        exact ih hnotes

/-! ## Single operations -/

theorem link_ok (hd : d.IsValid) (hs : s.Holds g.kind) :
    ∃ l m', m.link d s g = (.ok l, m') := by
  obtain ⟨grid, m₁, hload, -, -⟩ := load_spec (m := m) (CellCoord.gridCoord_isValid.2 hd)
  obtain ⟨l, grid', hins⟩ : ∃ l grid', grid.insert? d s g = some (l, grid') :=
    ⟨_, _, Grid.insert?_of_holds hs⟩
  exact ⟨l, m₁.setGrid (CellCoord.gridCoord d) grid', by rw [link, hload]; simp only [hins]⟩

theorem Filed.books_enter (h : m.Filed) (hg : m.placement? g = none) (hs : s.Holds g.kind)
    (hp : p.IsValid) :
    Books m (m.enter g p s p.cellCoord).map (m.enter g p s p.cellCoord).notes fun _ => 0 := by
  obtain ⟨l, m', hlink⟩ := link_ok (m := m) hp.cellCoord hs
  have hsame := sameRecords_link m p.cellCoord s g
  rw [hlink] at hsame
  rw [enter_of_link hlink]
  have hpl : (m'.place ⟨g, p.cellCoord, s, p, l⟩).placement? =
      Function.update m.placement? g (some ⟨g, p.cellCoord, s, p, l⟩) := by
    rw [placement?_place, hsame.placement?]
  refine .update h hsame.id hpl ?_ (fun _ _ => rfl) (by simp [Directory.Note.guid]) fun n => ?_
  · intro _ he
    cases he
    exact ⟨rfl, hp, rfl, hp.cellCoord, hs⟩
  · simp [hg, Directory.Note.call, Directory.Call.tally, Nat.add_comm]

theorem contains_add (h : m.contains g = true) (g' : Guid) (p : Position) (s : Scope) :
    (m.add g' p s).map.contains g = true := by
  by_cases hok : m.placement? g' = none ∧ s.Holds g'.kind ∧ p.IsValid
  · obtain ⟨hg', hs, hp⟩ := hok
    obtain ⟨l, m', hlink⟩ := link_ok (m := m) hp.cellCoord hs
    have hsame := sameRecords_link m p.cellCoord s g'
    rw [hlink] at hsame
    rw [add_eq_enter hg' hs hp, enter_of_link hlink, contains_eq_isSome, placement?_place,
      hsame.placement?, Function.update_apply]
    split
    · rfl
    · rw [← contains_eq_isSome, h]
  · obtain ⟨f, hf⟩ := add_refused hok
    rw [hf]
    exact h

theorem Filed.books_add (h : m.Filed) (g : Guid) (p : Position) (s : Scope) :
    Books m (m.add g p s).map (m.add g p s).notes fun _ => 0 := by
  by_cases hok : m.placement? g = none ∧ s.Holds g.kind ∧ p.IsValid
  · rw [add_eq_enter hok.1 hok.2.1 hok.2.2]
    exact h.books_enter hok.1 hok.2.1 hok.2.2
  · obtain ⟨f, hf⟩ := add_refused hok
    rw [hf]
    exact .same h (.refl m)

theorem Filed.books_addKind (h : m.Filed) (hs : s.Holds k) (g : Guid) (p : Position) :
    Books m (m.addKind k g p s).map (m.addKind k g p s).notes fun _ => 0 := by
  by_cases hok : g.kind = k ∧ m.placement? g = none ∧ p.IsValid
  · rw [addKind_eq_enter hs hok.1 hok.2.1 hok.2.2]
    exact h.books_enter hok.2.1 (hok.1 ▸ hs) hok.2.2
  · obtain ⟨f, hf⟩ := addKind_refused (s := s) hok
    rw [hf]
    exact .same h (.refl m)

/-- The object has a placement, but its entry is missing. -/
def isLoose (m : WorldMap) (g : Guid) : Bool :=
  match m.placement? g with
  | some pl => !(m.unlink pl).isOk
  | none => false

theorem isLoose_iff : m.isLoose g = true ↔
    ∃ pl f, m.placement? g = some pl ∧ m.unlink pl = .error f := by
  rw [isLoose]
  cases hg : m.placement? g with
  | none => simp
  | some pl => cases hun : m.unlink pl <;> simp [hun, Except.isOk, Except.toBool]

/-- How many registrations of a guid a task leaves behind. -/
def orphans (m : WorldMap) : Task → Guid → Nat
  | .remove g', g => if g = g' ∧ m.isLoose g' = true then 1 else 0
  | _, _ => 0

theorem orphans_remove_of_tight (h : m.isLoose g = false) :
    m.orphans (.remove g) = fun _ => 0 := by
  funext g'
  exact if_neg fun he => Bool.false_ne_true (h.symm.trans he.2)

/-- After a removal there is no placement, whatever the answer. -/
theorem placement?_remove (m : WorldMap) (g : Guid) :
    (m.remove g).map.placement? = Function.update m.placement? g none := by
  cases hg : m.placement? g with
  | none =>
    obtain ⟨f, hf⟩ := remove_refused hg
    rw [hf, Function.update_eq_self_iff.2 hg.symm]
    rfl
  | some pl =>
    cases hun : m.unlink pl with
    | error f =>
      rw [remove_of_unlink_error hg hun]
      exact placement?_displace g
    | ok m' =>
      rw [remove_of_unlink hg hun, placement?_displace, (sameRecords_unlink hun).placement?]

theorem contains_remove (m : WorldMap) (g g' : Guid) :
    (m.remove g).map.contains g' = if g' = g then false else m.contains g' := by
  rw [contains_eq_isSome, placement?_remove, Function.update_apply, contains_eq_isSome]
  split <;> rfl

/-- The removal of a loose object is refused, and yet the placement is gone. -/
theorem remove_of_isLoose (h : m.isLoose g = true) :
    ∃ f, m.remove g = (m.displace g).refuse f := by
  obtain ⟨pl, f, hg, hun⟩ := isLoose_iff.1 h
  exact ⟨f, remove_of_unlink_error hg hun⟩

theorem Filed.books_remove (h : m.Filed) (g : Guid) :
    Books m (m.remove g).map (m.remove g).notes (m.orphans (.remove g)) := by
  cases hg : m.placement? g with
  | none =>
    obtain ⟨f, hf⟩ := remove_refused hg
    rw [orphans_remove_of_tight (by rw [isLoose, hg]), hf]
    exact .same h (.refl m)
  | some pl =>
    cases hun : m.unlink pl with
    | error f =>
      have hloose : m.isLoose g = true := isLoose_iff.2 ⟨pl, f, hg, hun⟩
      rw [remove_of_unlink_error hg hun]
      refine .update h rfl (placement?_displace g) (by simp)
        (fun g' hne => if_neg fun he => hne he.1) (fun _ hn => nomatch hn) fun n => ?_
      rw [hg, orphans, if_pos ⟨rfl, hloose⟩]
      exact congrArg (· + n) (Nat.zero_add 1).symm
    | ok m' =>
      have hsame := sameRecords_unlink hun
      have htight : m.isLoose g = false := by
        rw [isLoose, hg]
        simp [hun, Except.isOk, Except.toBool]
      rw [orphans_remove_of_tight htight, remove_of_unlink hg hun]
      refine .update (g := g) (x := none) h hsame.id ?_ (by simp) (fun _ _ => rfl)
        (by simp [Directory.Note.guid]) fun n => ?_
      · rw [placement?_displace, hsame.placement?]
      · simp [hg, Directory.Note.call, Directory.Call.tally, Nat.add_comm]

/-- A move tells the directory nothing. It needs not to: whether it succeeds or is refused, its
object stays on the map. -/
theorem Filed.relocate (h : m.Filed) (g : Guid) (p : Position) :
    (m.relocate g p).notes = [] ∧ Books m (m.relocate g p).map [] fun _ => 0 := by
  have hmoved {m' : WorldMap} {current new : Placement} (hg : m.placement? g = some current)
      (hsame : m.SameRecords m') (hnew : new.guid = g) (hfits : new.Fits) :
      Books m (m'.place new) [] fun _ => 0 := by
    subst hnew
    refine .update (g := new.guid) (x := some new) h hsame.id ?_ ?_ (fun _ _ => rfl)
      (fun _ hn => nomatch hn) fun n => ?_
    · rw [placement?_place, hsame.placement?]
    · intro _ he
      cases he
      exact ⟨rfl, hfits⟩
    · rw [hg]
      rfl
  rw [WorldMap.relocate]
  split
  · exact ⟨rfl, .same h (.refl m)⟩
  · rename_i current hg
    obtain ⟨hguid, hfits⟩ := h.fits hg
    split
    · exact ⟨rfl, .same h (.refl m)⟩
    · rename_i cell hcell
      have hp := locate_eq_ok hcell
      obtain rfl := locate_eq hcell
      dsimp only
      split
      · rename_i hsame
        have hstays : current.cell = p.cellCoord := by
          simpa [Relocation.changedCell] using hsame
        exact ⟨rfl, hmoved hg (.refl m) hguid ⟨hp, hstays, hfits.onMap, hfits.held⟩⟩
      · split
        · exact ⟨rfl, .same h (.refl m)⟩
        · rename_i m₁ hun
          have hheld : current.scope.Holds g.kind := hguid ▸ hfits.held
          obtain ⟨l, m₂, hlink⟩ := link_ok (m := m₁) hp.cellCoord hheld
          have hsame := (sameRecords_unlink hun).trans
            (sameRecords_link m₁ p.cellCoord current.scope g)
          rw [hlink] at hsame ⊢
          exact ⟨rfl, hmoved hg hsame rfl ⟨hp, rfl, hp.cellCoord, hheld⟩⟩

theorem Filed.books_unload (h : m.Filed) (c : GridCoord) (force : Bool) :
    Books m (m.unload c force).map (m.unload c force).notes fun _ => 0 := by
  obtain ⟨b, hu, -⟩ | ⟨grid, -, ⟨-, hu⟩ | ⟨-, hu⟩⟩ := m.unload_cases c force
  · rw [hu]
    exact .same h (.refl m)
  · rw [hu]
    exact .same h ⟨rfl, rfl, rfl, rfl⟩
  · rw [hu]
    refine ⟨m.id_evict c, h.evict c, fun g n => ?_⟩
    rw [List.map_map, contains_eq_isSome, contains_eq_isSome, placement?_evict]
    refine (Directory.tally_strikes h.nodup_occupants _).trans ?_
    split
    · rename_i hmem
      obtain ⟨p, hp, -⟩ := h.mem_occupants.1 hmem
      rw [hp]
      exact (Nat.add_sub_cancel_left ..).trans (Nat.zero_add n).symm
    · rfl

/-! ## Tasks and updates -/

theorem Filed.books_apply (h : m.Filed) (t : Task) :
    Books m (m.apply t).map (m.apply t).notes (m.orphans t) := by
  cases t with
  | add g p s => exact h.books_add g p s
  | remove g => exact h.books_remove g
  | relocate g p =>
    obtain ⟨hnotes, hbooks⟩ := h.relocate g p
    change Books m (m.relocate g p).map (m.relocate g p).notes _
    rw [hnotes]
    exact hbooks

/-- How many registrations of a guid a run of tasks leaves behind. -/
def orphansAll (m : WorldMap) : List Task → Guid → Nat
  | [], _ => 0
  | t :: ts, g => m.orphans t g + (m.apply t).map.orphansAll ts g

theorem Filed.books_applyAll (h : m.Filed) (ts : List Task) :
    Books m (m.applyAll ts).map (m.applyAll ts).notes (m.orphansAll ts) := by
  suffices hrun : ∀ (r : TaskRun) (left : Guid → Nat), Books m r.map r.notes left →
      Books m (ts.foldl TaskRun.next r).map (ts.foldl TaskRun.next r).notes
        fun g => left g + r.map.orphansAll ts g by
    have hall := hrun { map := m } _ (.same h (.refl m))
    simp only [Nat.zero_add] at hall
    exact hall
  induction ts with
  | nil => exact fun r left hr => hr
  | cons t ts ih =>
    intro r left hr
    have hnext : Books m (r.next t).map (r.next t).notes
        fun g => left g + r.map.orphans t g := by
      rw [map_next, notes_next]
      exact hr.trans (hr.filed.books_apply t)
    have hrest := ih (r.next t) _ hnext
    simp only [map_next, Nat.add_assoc] at hrest
    exact hrest

theorem Filed.books_update (h : m.Filed) (diff : Duration) :
    Books m (m.update diff).1 (m.update diff).2.2
      ((m.requeue m.restQueue).orphansAll m.batch) := by
  have hqueue : Books m (m.requeue m.restQueue) [] fun _ => 0 :=
    ⟨rfl, h.congr rfl, fun _ _ => rfl⟩
  have hrun := hqueue.trans (hqueue.filed.books_applyAll m.batch)
  have hall := hrun.trans (.same hrun.filed (Keeps.served m diff).toSameRecords)
  simp only [List.append_nil, List.nil_append, ← notes_update, Nat.zero_add, Nat.add_zero]
    at hall
  exact hall

/-! ## All operations -/

/-- How many registrations of a guid an operation leaves behind. -/
def Op.orphans (m : WorldMap) : Op → Guid → Nat
  | .remove g => m.orphans (.remove g)
  | .apply t => m.orphans t
  | .update _ => (m.requeue m.restQueue).orphansAll m.batch
  | _ => fun _ => 0

theorem Filed.books_run (h : m.Filed) (op : Op) :
    Books m (op.run m).map (op.run m).notes (op.orphans m) := by
  cases op with
  | add g p s => exact h.books_add g p s
  | addKind k s held g p => exact h.books_addKind held g p
  | remove g => exact h.books_remove g
  | relocate g p => exact h.books_apply (.relocate g p)
  | load c tweaks =>
    simp only [Op.run]
    split
    · rename_i m' hm
      exact .same h (Keeps.modifyGrid (.tweaks tweaks) hm).toSameRecords
    · exact .same h (.refl m)
  | unload c force => exact h.books_unload c force
  | lock c on =>
    simp only [Op.run, notes_lockGrid]
    exact .same h (Keeps.lockGrid m c on).toSameRecords
  | apply t => exact h.books_apply t
  | requeue queue => exact ⟨rfl, h.congr rfl, fun _ _ => rfl⟩
  | update diff => exact h.books_update diff

theorem sameRecords_modifyGrid {f : Grid → Grid} (h : m.modifyGrid c f = .ok m') :
    m.SameRecords m' := by
  rw [modifyGrid] at h
  cases hload : m.load c with
  | error =>
    rw [hload] at h
    cases h
  | ok gm =>
    rw [hload] at h
    cases h
    exact (sameRecords_load hload).trans (.setGrid ..)

end WorldMap

/-! ## Stations whose grids are edited -/

namespace Station

open WorldMap (Op Books)

variable {t : Station} {id : MapId} {debt left : Guid → Nat} {α : Type} {o : Outcome α}

/-- The directory lists the map under the objects that are placed there and no others. -/
def Agrees (t : Station) : Prop :=
  ∀ g, t.map.id ∈ t.directory.registrations g ↔ t.map.contains g = true

/-- An event, or an edit of a grid of the map that the map does not hear of. -/
inductive Move (id : MapId) where
  | event (e : Event id)
  | edit (c : GridCoord) (edits : List Grid.Edit)

def move (t : Station) : Move id → Station
  | .event e => t.next e
  | .edit c edits =>
    match t.map.modifyGrid c fun grid => grid.edit edits with
    | .ok map => { t with map }
    | .error _ => t

def course (t : Station) (moves : List (Move id)) : Station := moves.foldl move t

/-- How many registrations of a guid a move leaves behind. -/
def Move.orphans (t : Station) : Move id → Guid → Nat
  | .event (.own op) => op.orphans t.map
  | .event (.other ..) | .edit .. => fun _ => 0

/-- The same for a course. -/
def orphans (t : Station) : List (Move id) → Guid → Nat
  | [], _ => 0
  | mv :: moves, g => mv.orphans t g + (t.move mv).orphans moves g

/-- The map `id` is listed under its objects, and besides as often as `debt` says. -/
structure Booked (id : MapId) (t : Station) (debt : Guid → Nat) : Prop where
  id : t.map.id = id
  filed : t.map.Filed
  listings : ∀ g, t.listings g = (t.map.contains g).toNat + debt g

theorem booked_new (id : MapId) (config : MapConfig) :
    Booked id ⟨{ id, config }, ∅⟩ fun _ => 0 :=
  ⟨rfl, (WorldMap.indexed_new id config).filed, (settled_new id config).listings⟩

theorem Booked.hear (h : Booked id t debt) (ho : Books t.map o.map o.notes left) :
    Booked id (t.hear o) fun g => debt g + left g where
  id := ho.id.trans h.id
  filed := ho.filed
  listings g := by
    rw [listings_hear ho.id, h.listings, ho.told]
    change (o.map.contains g).toNat + left g + debt g = (o.map.contains g).toNat + _
    omega

theorem Booked.next (h : Booked id t debt) (e : Event id) :
    Booked id (t.next e) fun g => debt g + (Move.event e).orphans t g := by
  cases e with
  | own op => exact h.hear (h.filed.books_run op)
  | other id' ne n =>
    have hid : t.map.id ≠ id' := fun he => ne (he.symm.trans h.id)
    exact ⟨h.id, h.filed, fun g => (Directory.count_note_of_ne hid n).trans (h.listings g)⟩

/-- An edit moves no placement, whatever it does to the cells. -/
theorem Booked.edit (h : Booked id t debt) (c : GridCoord) (edits : List Grid.Edit) :
    Booked id (t.move (.edit c edits : Move id)) debt := by
  rw [move]
  split
  · rename_i map hmap
    have hsame := WorldMap.sameRecords_modifyGrid hmap
    refine ⟨hsame.id.trans h.id, h.filed.congr hsame.placement?, fun g => ?_⟩
    have hlisted : Station.listings { t with map } g = t.listings g :=
      congrArg (List.count · (t.directory.registrations g)) hsame.id
    rw [hlisted, h.listings]
    change _ = (map.contains g).toNat + debt g
    rw [hsame.contains]
  · exact h

theorem Booked.move (h : Booked id t debt) (mv : Move id) :
    Booked id (t.move mv) fun g => debt g + mv.orphans t g := by
  cases mv with
  | event e => exact h.next e
  | edit c edits => exact h.edit c edits

theorem Booked.course (h : Booked id t debt) (moves : List (Move id)) :
    Booked id (t.course moves) fun g => debt g + t.orphans moves g := by
  induction moves generalizing t debt with
  | nil => exact h
  | cons mv moves ih =>
    have hrest := ih (h.move mv)
    simp only [Nat.add_assoc] at hrest
    exact hrest

/-! ## Agreement -/

theorem Booked.agrees_iff (h : Booked id t debt) :
    t.Agrees ↔ ∀ g, t.map.contains g = false → debt g = 0 := by
  refine forall_congr' fun g => ?_
  have hlisted : t.map.id ∈ t.directory.registrations g ↔ 0 < t.listings g :=
    List.count_pos_iff.symm
  rw [hlisted, h.listings]
  cases t.map.contains g
  · simp [Nat.pos_iff_ne_zero]
  · simp

theorem Booked.agrees (h : Booked id t debt) (hd : ∀ g, debt g = 0) : t.Agrees :=
  h.agrees_iff.2 fun g _ => hd g

/-- How the directory and the map `t.map` keep up with each other, if `debt` says how many
registrations have been left behind so far. -/
structure Ledger (t : Station) (debt : Guid → Nat) : Prop where
  listings : ∀ g, t.listings g = (t.map.contains g).toNat + debt g
  agrees_iff : t.Agrees ↔ ∀ g, t.map.contains g = false → debt g = 0
  /-- A move parts the two in no case. -/
  relocate : t.Agrees → ∀ g p, (t.hear (t.map.relocate g p)).Agrees
  /-- An unload parts them only over what was left behind before. -/
  unload : t.Agrees → ∀ c force, (t.hear (t.map.unload c force)).Agrees ↔
    ∀ g, (t.map.unload c force).map.contains g = false → debt g = 0
  /-- A removal parts them besides if it misses the entry of its object. -/
  remove : t.Agrees → ∀ g, (t.hear (t.map.remove g)).Agrees ↔
    debt g = 0 ∧ t.map.isLoose g = false
  apply : t.Agrees → ∀ task, (t.hear (t.map.apply task)).Agrees ↔
    ∀ g, task = .remove g → debt g = 0 ∧ t.map.isLoose g = false
  /-- Such a removal is refused, and its object has no placement any more. -/
  refused : ∀ g, t.map.isLoose g = true →
    ∃ f, (t.map.remove g).result = .error f ∧ (t.map.remove g).map.contains g = false

theorem Booked.agrees_remove (h : Booked id t debt) (ht : t.Agrees) (g : Guid) :
    (t.hear (t.map.remove g)).Agrees ↔ debt g = 0 ∧ t.map.isLoose g = false := by
  have hcontains (g' : Guid) := WorldMap.contains_remove t.map g g'
  rw [(h.hear (h.filed.books_remove g)).agrees_iff]
  constructor
  · intro hafter
    obtain ⟨hdebt, hleft⟩ := Nat.add_eq_zero_iff.1 (hafter g ((hcontains g).trans (if_pos rfl)))
    refine ⟨hdebt, Bool.not_eq_true _ ▸ fun hloose => ?_⟩
    exact Nat.one_ne_zero ((if_pos ⟨rfl, hloose⟩).symm.trans hleft)
  · rintro ⟨hdebt, htight⟩ g' hg'
    rw [WorldMap.orphans_remove_of_tight htight, Nat.add_zero]
    rcases eq_or_ne g' g with rfl | hne
    · exact hdebt
    · exact h.agrees_iff.1 ht g' (((hcontains g').trans (if_neg hne)).symm.trans hg')

theorem Booked.agrees_relocate (h : Booked id t debt) (ht : t.Agrees) (g : Guid) (p : Position) :
    (t.hear (t.map.relocate g p)).Agrees := by
  obtain ⟨hnotes, hbooks⟩ := h.filed.relocate g p
  have hkept (g' : Guid) : (t.map.relocate g p).map.contains g' = t.map.contains g' := by
    have htold : (t.map.contains g').toNat = ((t.map.relocate g p).map.contains g').toNat :=
      hbooks.told g' 0
    revert htold
    cases t.map.contains g' <;> cases (t.map.relocate g p).map.contains g' <;> decide
  rw [← hnotes] at hbooks
  refine (h.hear hbooks).agrees_iff.2 fun g' hg' => ?_
  exact h.agrees_iff.1 ht g' ((hkept g').symm.trans hg')

theorem Booked.agrees_add (h : Booked id t debt) (ht : t.Agrees) (g : Guid) (p : Position)
    (s : Scope) : (t.hear (t.map.add g p s)).Agrees := by
  refine (h.hear (h.filed.books_add g p s)).agrees_iff.2 fun g' hg' => ?_
  refine h.agrees_iff.1 ht g' (Bool.eq_false_iff.2 fun hheld => ?_)
  exact Bool.false_ne_true (hg'.symm.trans (WorldMap.contains_add hheld g p s))

theorem Booked.ledger (h : Booked id t debt) : t.Ledger debt where
  listings := h.listings
  agrees_iff := h.agrees_iff
  relocate := h.agrees_relocate
  unload _ c force := (h.hear (h.filed.books_unload c force)).agrees_iff
  remove := h.agrees_remove
  apply ht task := by
    cases task with
    | add g p s =>
      exact iff_of_true (h.agrees_add ht g p s) fun _ he => nomatch he
    | remove g =>
      refine (h.agrees_remove ht g).trans ⟨fun hg g' he => ?_, fun hall => hall g rfl⟩
      cases he
      exact hg
    | relocate g p =>
      exact iff_of_true (h.agrees_relocate ht g p) fun _ he => nomatch he
  refused g hloose := by
    obtain ⟨f, hf⟩ := WorldMap.remove_of_isLoose hloose
    refine ⟨f, by rw [hf]; rfl, ?_⟩
    rw [WorldMap.contains_remove, if_pos rfl]

/-- However a map is used and its grids are edited, the directory lists it under its objects, and
besides under those that a removal has dropped without finding their entries. -/
theorem ledger_course (id : MapId) (config : MapConfig) (moves : List (Move id)) :
    ((⟨{ id, config }, ∅⟩ : Station).course moves).Ledger
      ((⟨{ id, config }, ∅⟩ : Station).orphans moves) := by
  have hcourse := (booked_new id config).course moves
  simp only [Nat.zero_add] at hcourse
  exact hcourse.ledger

namespace Stray

def guid : Guid := ⟨.creature, 1⟩

def cell : CellCoord := ⟨256, 256⟩

/-- A creature is added, and its entry is taken out of the grid behind the map's back. -/
def moves : List (Move 0) :=
  [.event (.own (.add guid (.flat 0 0) .grid)),
    .edit (CellCoord.gridCoord cell) [.erase cell .grid .creature ⟨0, 0⟩]]

def station : Station := (⟨{ id := 0, config := {} }, ∅⟩ : Station).course moves

def after : Station := station.hear (station.map.remove guid)

end Stray

/-- Up to then map and directory agree. The removal of the creature is refused, after which it is on
no map, but the directory still finds it on this one. -/
theorem remove_leaves_registration :
    Stray.station.Agrees ∧
    (Stray.station.map.remove Stray.guid).result = .error (.linkLost Stray.guid Stray.cell) ∧
    Stray.after.map.contains Stray.guid = false ∧
    Stray.after.directory.locate? Stray.guid = some 0 ∧ ¬Stray.after.Agrees := by
  have hagrees := ((booked_new 0 {}).course Stray.moves).agrees fun _ => by
    simp [orphans, Stray.moves, Move.orphans, Op.orphans]
  have hlisted : Stray.after.map.id ∈ Stray.after.directory.registrations Stray.guid := by
    decide +kernel
  have hgone : Stray.after.map.contains Stray.guid = false := by decide +kernel
  refine ⟨hagrees, by decide +kernel, hgone, by decide +kernel, fun hafter => ?_⟩
  exact Bool.false_ne_true (hgone.symm.trans ((hafter Stray.guid).1 hlisted))

end Station
end Realm
