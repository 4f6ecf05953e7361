import Realm.Proofs.Roster.Writing

/-! # Links of a roster

A sound roster is a list of entries, each with a link of its own: an insertion puts one at the end,
a removal takes one away. -/

namespace Realm.Roster

variable {r r' : Roster} {l : Link} {g : Guid} {a : Option Nat} {i : Nat} {is : List Nat}

/-- The slots of the entries are linked in some order. -/
def Sound (r : Roster) : Prop := ∃ is, r.Linked is

theorem Sound.empty : Sound ∅ := ⟨[], .empty⟩

theorem Sound.insert (h : r.Sound) (g : Guid) : (r.insert g).2.Sound :=
  have ⟨_, h⟩ := h
  ⟨_, h.insert g⟩

theorem Sound.clear (h : r.Sound) : r.clear.Sound :=
  have ⟨_, h⟩ := h
  ⟨_, h.clear⟩

/-! ## What a link leads to -/

theorem get?_eq_some : r.get? l = some g ↔
    r.occupant? l.index = some g ∧ r.generationAt l.index = l.generation := by
  rw [get?, occupant?, generationAt]
  cases r.slots[l.index]? with
  | none => simp
  | some s =>
    by_cases h : s.generation = l.generation <;> simp [h]

theorem linkAt_eq (h : r.generationAt l.index = l.generation) : r.linkAt l.index = l := by
  rw [linkAt, h]

theorem get?_linkAt (r : Roster) (i : Nat) : r.get? (r.linkAt i) = r.occupant? i := by
  ext g
  rw [get?_eq_some]
  exact and_iff_left rfl

theorem next?_linkAt (h : (r.occupant? i).isSome) :
    r.next? (r.linkAt i) = (r.after (some i)).map r.linkAt := by
  rw [next?, contains, get?_linkAt, if_pos h]
  rfl

theorem contains_iff : r.contains l = true ↔
    (r.occupant? l.index).isSome ∧ r.generationAt l.index = l.generation := by
  rw [contains, Option.isSome_iff_exists, Option.isSome_iff_exists]
  simp only [get?_eq_some, exists_and_right]

theorem contains_of_get? (h : r.get? l = some g) : r.contains l = true := by
  rw [contains, h]
  rfl

/-! ## The entries of a list of slots -/

def entries (r : Roster) (is : List Nat) : List (Link × Guid) :=
  is.filterMap fun i => (r.occupant? i).map fun g => (r.linkAt i, g)

theorem entries_cons (h : r.occupant? i = some g) :
    r.entries (i :: is) = (r.linkAt i, g) :: r.entries is :=
  List.filterMap_cons_some (by rw [h]; rfl)

/-- From link to link the walk finds the entries of a thread, and there it ends. -/
theorem Thread.entriesFrom (h : r.Thread a is none) (ho : ∀ i ∈ is, (r.occupant? i).isSome)
    (n : Nat) : r.entriesFrom n ((r.after a).map r.linkAt) = (r.entries is).take n := by
  induction is generalizing a n with
  | nil =>
    rw [h.1]
    cases n <;> rfl
  | cons i is ih =>
    obtain ⟨hi, his⟩ := List.forall_mem_cons.1 ho
    obtain ⟨g, hg⟩ := Option.isSome_iff_exists.1 hi
    rw [h.1.1, entries_cons hg]
    cases n with
    | zero => rfl
    | succ n =>
      rw [List.take_succ_cons, Option.map_some, Roster.entriesFrom, get?_linkAt, hg]
      simp only [next?_linkAt hi, ih h.2 his]

theorem Linked.occupied (h : r.Linked is) : ∀ i ∈ is, (r.occupant? i).isSome :=
  fun i hi => (h.mem i).1 hi

theorem Linked.length_entries (h : r.Linked is) : (r.entries is).length = is.length := by
  rw [entries, List.filterMap_length_eq_length]
  intro i hi
  rw [Option.isSome_map]
  exact h.occupied i hi

theorem Linked.toList_eq (h : r.Linked is) : r.toList = r.entries is := by
  rw [toList, first?]
  refine (h.thread.entriesFrom h.occupied _).trans (List.take_of_length_le ?_)
  rw [h.length_entries]
  exact h.length_le

/-! ## The list -/

theorem mem_toList (h : r.Sound) : (l, g) ∈ r.toList ↔ r.get? l = some g := by
  obtain ⟨is, h⟩ := h
  simp only [h.toList_eq, entries, List.mem_filterMap, Option.map_eq_some_iff, Prod.mk.injEq,
    get?_eq_some]
  constructor
  · rintro ⟨i, _, _, ho, rfl, rfl⟩
    exact ⟨ho, rfl⟩
  · rintro ⟨ho, hg⟩
    exact ⟨l.index, (h.mem _).2 (by simp [ho]), g, ho, linkAt_eq hg, rfl⟩

theorem length_toList (h : r.Sound) : r.toList.length = r.size := by
  obtain ⟨is, h⟩ := h
  rw [h.toList_eq, h.length_entries, h.size]

/-- Every entry has a link of its own. -/
theorem nodup_links (h : r.Sound) : (r.toList.map (·.1)).Nodup := by
  obtain ⟨is, h⟩ := h
  rw [h.toList_eq, entries, List.map_filterMap]
  refine h.nodup.filterMap fun i j l hi hj => ?_
  simp only [Option.mem_def, Option.map_map, Option.map_eq_some_iff] at hi hj
  obtain ⟨_, _, rfl⟩ := hi
  obtain ⟨_, _, he⟩ := hj
  exact (congrArg Link.index he).symm

theorem nodup_toList (h : r.Sound) : r.toList.Nodup := .of_map _ (nodup_links h)

theorem toList_empty : (∅ : Roster).toList = [] := rfl

theorem toList_of_size_zero (h : r.Sound) (hr : r.size = 0) : r.toList = [] :=
  List.eq_nil_of_length_eq_zero (by rw [length_toList h, hr])

theorem Walk.take_occupied {n remaining : Nat} (h : r.occupant? i = some g) :
    Walk.take (n + 1) ⟨r, some i, remaining⟩ =
      (g, remaining - 1) :: Walk.take n ⟨r, r.after (some i), remaining - 1⟩ := by
  simp [Walk.take, Walk.next?, h]

/-- A walk from slot to slot sees what the walk from link to link sees. -/
theorem map_fst_take (n : Nat) (cursor : Option Nat) (remaining : Nat) :
    (Walk.take n ⟨r, cursor, remaining⟩).map (·.1) =
      (r.entriesFrom n (cursor.map r.linkAt)).map (·.2) := by
  induction n generalizing cursor remaining with
  | zero => rfl
  | succ n ih =>
    cases cursor with
    | none => rfl
    | some i =>
      rw [Option.map_some, entriesFrom, get?_linkAt]
      cases hg : r.occupant? i with
      | none => simp [Walk.take, Walk.next?, hg]
      | some g =>
        have hnext := next?_linkAt (r := r) (i := i) (by rw [hg]; rfl)
        simp only [Walk.take_occupied hg, hnext, List.map_cons, ih]

theorem guids_eq_map_toList : r.guids = r.toList.map (·.2) :=
  map_fst_take r.slots.size r.head r.size

/-! ## A new entry -/

/-- A new entry comes last. -/
theorem toList_insert (h : r.Sound) (g : Guid) :
    (r.insert g).2.toList = r.toList ++ [((r.insert g).1, g)] := by
  obtain ⟨is, h⟩ := h
  rw [(h.insert g).toList_eq, h.toList_eq, entries, List.filterMap_append]
  congr 1
  · refine List.filterMap_congr fun i hi => ?_
    have hne : i ≠ r.nextSlot := fun e => h.nextSlot_not_mem (e ▸ hi)
    rw [h.occupant?_insert, if_neg hne, linkAt, generationAt_insert, linkAt]
  · simp [h.occupant?_insert, fst_insert, linkAt, generationAt_insert]

/-- A new entry is behind its link. -/
theorem get?_insert (h : r.Sound) (g : Guid) : (r.insert g).2.get? (r.insert g).1 = some g := by
  rw [← mem_toList (h.insert g), toList_insert h]
  exact List.mem_append_right _ List.mem_cons_self

/-! ## A removal -/

theorem erase?_of_stale (h : r.contains l = false) : r.erase? l = none := by
  rw [erase?, h]
  rfl

theorem erase_of_stale (h : r.contains l = false) : r.erase l = r := by
  rw [erase, erase?_of_stale h, Option.getD_none]

theorem erase_of_contains (h : r.contains l = true) : r.erase l = r.detach l.index := by
  rw [erase, erase?, if_pos h, Option.getD_some]

theorem erase?_eq_some :
    r.erase? l = some r' ↔ (r.get? l).isSome ∧ r' = r.detach l.index := by
  rw [erase?, contains, Option.ite_none_right_eq_some, Option.some.injEq, eq_comm (a := r')]

theorem isSome_erase? : (r.erase? l).isSome = (r.get? l).isSome := by
  rw [erase?, contains]
  split <;> simp_all

theorem Linked.mem_of_live (h : r.Linked is) (hl : (r.get? l).isSome) : l.index ∈ is := by
  obtain ⟨g, hg⟩ := Option.isSome_iff_exists.1 hl
  rw [h.mem, (get?_eq_some.1 hg).1]
  rfl

/-- A removal takes away the entry behind the link and keeps the others in order. -/
theorem toList_erase? (hr : r.Sound) (he : r.erase? l = some r') :
    r'.toList = r.toList.filter (·.1 ≠ l) := by
  obtain ⟨is, h⟩ := hr
  obtain ⟨hl, rfl⟩ := erase?_eq_some.1 he
  obtain ⟨g, hg⟩ := Option.isSome_iff_exists.1 hl
  rw [(h.detach (h.mem_of_live hl)).toList_eq, h.toList_eq, entries, entries,
    h.nodup.erase_eq_filter, List.filterMap_filter, List.filter_filterMap]
  refine List.filterMap_congr fun i _ => ?_
  rw [occupant?_detach]
  by_cases hi : i = l.index
  · -- the entry of the slot is the one behind the link
    have hlink : r.linkAt i = l := by
      subst hi
      exact linkAt_eq (get?_eq_some.1 hg).2
    have hi' : (i != l.index) = false := by simp [hi]
    cases r.occupant? i <;> simp [hi', hlink, Option.filter]
  · have hlink : r.linkAt i ≠ l := fun e => hi (congrArg Link.index e)
    have hgen : (r.detach l.index).linkAt i = r.linkAt i := by
      rw [linkAt, generationAt_detach hi, linkAt]
    cases r.occupant? i <;> simp [hi, hlink, hgen, Option.filter]

theorem size_erase? (hr : r.Sound) (he : r.erase? l = some r') : r'.size + 1 = r.size := by
  obtain ⟨is, h⟩ := hr
  obtain ⟨hl, rfl⟩ := erase?_eq_some.1 he
  have hpos := List.length_pos_of_mem (h.mem_of_live hl)
  rw [size_detach, h.size]
  omega

theorem Sound.erase? (hr : r.Sound) (he : r.erase? l = some r') : r'.Sound := by
  obtain ⟨is, h⟩ := hr
  obtain ⟨hl, rfl⟩ := erase?_eq_some.1 he
  exact ⟨_, h.detach (h.mem_of_live hl)⟩

/-! ## A clearance -/

theorem toList_clear (h : r.Sound) : r.clear.toList = [] := by
  obtain ⟨is, h⟩ := h
  rw [h.clear.toList_eq]
  rfl

end Realm.Roster
