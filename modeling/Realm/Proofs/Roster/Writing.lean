import Realm.Proofs.Roster.Thread

/-! # Writing to linked slots

An insertion threads one slot more at the end, a removal takes one slot out of the thread, wherever
it is, and a clearance takes them all. -/

namespace Realm.Roster

variable {r r' : Roster} {c : Option Nat} {i j k : Nat} {is js : List Nat} {g : Guid}

/-! ## A new entry -/

theorem occupy_cons {vacant : List Nat} (hv : r.vacant = i :: vacant) : r.occupy g =
    (i, { r.modifySlot i fun s => ⟨some g, s.generation, r.tail, none⟩ with vacant }) := by
  rw [occupy]
  split <;> simp_all

theorem occupy_nil (hv : r.vacant = []) :
    r.occupy g = (r.slots.size, { r with slots := r.slots.push ⟨some g, 0, r.tail, none⟩ }) := by
  rw [occupy]
  split <;> simp_all

/-- The slot that the next entry gets. -/
def nextSlot (r : Roster) : Nat := r.vacant.head?.getD r.slots.size

theorem nextSlot_cons {vacant : List Nat} (hv : r.vacant = i :: vacant) : r.nextSlot = i := by
  rw [nextSlot, hv]
  rfl

theorem nextSlot_nil (hv : r.vacant = []) : r.nextSlot = r.slots.size := by
  rw [nextSlot, hv]
  rfl

theorem fst_occupy : (r.occupy g).1 = r.nextSlot := by
  cases hv : r.vacant with
  | nil => rw [occupy_nil hv, nextSlot_nil hv]
  | cons i vacant => rw [occupy_cons hv, nextSlot_cons hv]

theorem size_le_occupy : r.slots.size ≤ (r.occupy g).2.slots.size := by
  cases hv : r.vacant with
  | nil => simp [occupy_nil hv]
  | cons i vacant =>
    rw [occupy_cons hv]
    exact Nat.le_of_eq (size_slots_modifySlot _).symm

theorem Linked.occupant?_nextSlot (h : r.Linked is) : r.occupant? r.nextSlot = none := by
  cases hv : r.vacant with
  | nil => simp [nextSlot_nil hv, occupant?]
  | cons i vacant => rw [nextSlot_cons hv]; exact (h.vacant i (by simp [hv])).2

theorem Linked.nextSlot_not_mem (h : r.Linked is) : r.nextSlot ∉ is := by
  rw [h.mem, h.occupant?_nextSlot]
  exact Bool.false_ne_true

/-- Of the slots only the one that is occupied reads differently. -/
theorem Linked.bind_occupy {α : Type} (h : r.Linked is) (p : Slot → Option α) {x : Option α}
    (hx : ∀ n, p ⟨some g, n, r.tail, none⟩ = x) : (r.occupy g).2.slots[j]?.bind p =
      if j = r.nextSlot then x else r.slots[j]?.bind p := by
  cases hv : r.vacant with
  | nil =>
    rw [occupy_nil hv, nextSlot_nil hv, Array.getElem?_push]
    by_cases hj : j = r.slots.size <;> simp [hj, hx]
  | cons i vacant =>
    rw [occupy_cons hv, nextSlot_cons hv]
    refine (bind_modifySlot p _).trans ?_
    by_cases hj : j = i
    · have hslot := (h.vacant j (by simp [hv, hj])).1
      rw [if_pos hj, if_pos hj]
      simp only [hx, bind_const hslot]
    · rw [if_neg hj, if_neg hj]

theorem Linked.after_occupy (h : r.Linked is) : (r.occupy g).2.after c =
    if c = some r.nextSlot then none else r.after c := by
  cases c with
  | none =>
    cases hv : r.vacant with
    | nil => rw [occupy_nil hv]; rfl
    | cons i vacant => rw [occupy_cons hv]; rfl
  | some j =>
    simp only [after, Option.some.injEq]
    exact h.bind_occupy Slot.next fun _ => rfl

theorem Linked.before_occupy (h : r.Linked is) : (r.occupy g).2.before c =
    if c = some r.nextSlot then r.tail else r.before c := by
  cases c with
  | none =>
    cases hv : r.vacant with
    | nil => rw [occupy_nil hv]; rfl
    | cons i vacant => rw [occupy_cons hv]; rfl
  | some j =>
    simp only [before, Option.some.injEq]
    exact h.bind_occupy Slot.prev fun _ => rfl

theorem Linked.occupant?_occupy (h : r.Linked is) : (r.occupy g).2.occupant? j =
    if j = r.nextSlot then some g else r.occupant? j :=
  h.bind_occupy Slot.occupant fun _ => rfl

theorem generationAt_occupy : (r.occupy g).2.generationAt j = r.generationAt j := by
  cases hv : r.vacant with
  | nil =>
    rw [occupy_nil hv]
    simp only [generationAt, Array.getElem?_push]
    by_cases hj : j = r.slots.size
    · subst j; simp
    · simp [hj]
  | cons i vacant =>
    rw [occupy_cons hv]
    exact generationAt_modifySlot fun _ => rfl

theorem vacant_occupy : (r.occupy g).2.vacant = r.vacant.tail := by
  cases hv : r.vacant with
  | nil => simp [occupy_nil hv, hv]
  | cons i vacant => simp [occupy_cons hv]

/-! The new slot is joined to the one that was last. -/

theorem index_insert : (r.insert g).1.index = r.nextSlot := fst_occupy

/-- What a read that looks at slots alone finds after an insertion. -/
theorem read_insert {α : Type} (read : Roster → α)
    (hread : ∀ (r : Roster) n, read { r with size := n } = read r) : read (r.insert g).2 =
      read (((r.occupy g).2.setAfter r.tail (some r.nextSlot)).setBefore none (some r.nextSlot)) :=
  fst_occupy (r := r) (g := g) ▸ hread _ _

theorem Linked.tail_mem (h : r.Linked is) : r.tail ∈ none :: is.map some := h.thread.before_mem

theorem Linked.after_insert (h : r.Linked is) : (r.insert g).2.after c =
    if c = r.tail then some r.nextSlot else if c = some r.nextSlot then none else r.after c := by
  have hslot : (r.occupy g).2.HasSlot r.tail := fun i hi =>
    Nat.lt_of_lt_of_le (h.hasSlot h.tail_mem i hi) size_le_occupy
  rw [read_insert (·.after c) fun _ _ => by cases c <;> rfl, after_setBefore,
    after_setAfter hslot, h.after_occupy]

theorem Linked.before_insert (h : r.Linked is) : (r.insert g).2.before c =
    if c = none then some r.nextSlot else if c = some r.nextSlot then r.tail else r.before c := by
  rw [read_insert (·.before c) fun _ _ => by cases c <;> rfl,
    before_setBefore (by simp [HasSlot]), before_setAfter, h.before_occupy]

theorem Linked.occupant?_insert (h : r.Linked is) : (r.insert g).2.occupant? j =
    if j = r.nextSlot then some g else r.occupant? j := by
  rw [read_insert (·.occupant? j) fun _ _ => rfl, occupant?_setBefore, occupant?_setAfter,
    h.occupant?_occupy]

theorem generationAt_insert : (r.insert g).2.generationAt j = r.generationAt j := by
  rw [read_insert (·.generationAt j) fun _ _ => rfl, generationAt_setBefore,
    generationAt_setAfter, generationAt_occupy]

theorem vacant_insert : (r.insert g).2.vacant = r.vacant.tail := by
  rw [read_insert (·.vacant) fun _ _ => rfl, vacant_setBefore, vacant_setAfter, vacant_occupy]

theorem size_slots_insert : r.slots.size ≤ (r.insert g).2.slots.size := by
  rw [read_insert (·.slots.size) fun _ _ => rfl, size_slots_setBefore, size_slots_setAfter]
  exact size_le_occupy

theorem size_insert : (r.insert g).2.size = r.size + 1 := rfl

theorem fst_insert : (r.insert g).1 = r.linkAt r.nextSlot := by
  have h : (r.insert g).1 = (r.insert g).2.linkAt (r.insert g).1.index := rfl
  rw [h, index_insert, linkAt, generationAt_insert, linkAt]

/-- A new entry comes last. -/
theorem Linked.insert (h : r.Linked is) (g : Guid) :
    (r.insert g).2.Linked (is ++ [r.nextSlot]) where
  thread := by
    have hnew : ∀ x ∈ none :: is.map some, x ≠ some r.nextSlot := by
      rintro x hx rfl
      simp [h.nextSlot_not_mem] at hx
    rw [thread_append]
    refine ⟨h.thread.redirect (nodup_map_some h.nodup) ?_ ?_ ?_, ?_⟩
    · exact ⟨by rw [h.after_insert]; exact if_pos rfl,
        by rw [h.before_insert, if_neg (by simp), if_pos rfl]; rfl⟩
    · intro x hx hlast
      have htail : x ≠ r.tail := hlast
      rw [h.after_insert, if_neg htail, if_neg (hnew x hx)]
    · intro x hx
      have hsome : x ≠ none := by rintro rfl; simp at hx
      rw [h.before_insert, if_neg hsome, if_neg (hnew x (List.mem_cons_of_mem _ hx))]
    · exact ⟨by rw [h.after_insert, if_neg (hnew _ h.tail_mem).symm, if_pos rfl],
        by rw [h.before_insert, if_pos rfl]⟩
  nodup := by
    refine h.nodup.append (List.nodup_singleton _) ?_
    rw [List.disjoint_singleton]
    exact h.nextSlot_not_mem
  mem i := by
    rw [h.occupant?_insert, List.mem_append, List.mem_singleton, h.mem]
    by_cases hi : i = r.nextSlot <;> simp [hi]
  vacant_nodup := by
    rw [vacant_insert]
    exact h.vacant_nodup.tail
  vacant i hi := by
    rw [vacant_insert] at hi
    obtain ⟨hs, ho⟩ := h.vacant i (List.mem_of_mem_tail hi)
    have hne : i ≠ r.nextSlot := by
      cases hv : r.vacant with
      | nil => rw [hv] at hi; exact nomatch hi
      | cons j vacant =>
        rw [nextSlot_cons hv]
        rintro rfl
        exact (List.nodup_cons.1 (hv ▸ h.vacant_nodup)).1 (by rwa [hv] at hi)
    rw [h.occupant?_insert, if_neg hne]
    exact ⟨Nat.lt_of_lt_of_le hs size_slots_insert, ho⟩
  size := by rw [size_insert, h.size, List.length_append]; rfl

/-! ## A removal -/

/-- What a read that looks at slots alone finds after a removal. -/
theorem read_detach {α : Type} (read : Roster → α)
    (hread : ∀ (r : Roster) n, read { r with size := n } = read r) : read (r.detach i) =
      read (((r.setAfter (r.before (some i)) (r.after (some i))).setBefore (r.after (some i))
        (r.before (some i))).release i) :=
  hread _ _

theorem occupant?_detach : (r.detach i).occupant? j = if j = i then none else r.occupant? j := by
  rw [read_detach (·.occupant? j) fun _ _ => rfl, occupant?_release, occupant?_setBefore,
    occupant?_setAfter]

theorem generationAt_detach (h : j ≠ i) : (r.detach i).generationAt j = r.generationAt j := by
  rw [read_detach (·.generationAt j) fun _ _ => rfl, generationAt_release h,
    generationAt_setBefore, generationAt_setAfter]

theorem generationAt_detach_self (h : i < r.slots.size) :
    (r.detach i).generationAt i = r.generationAt i + 1 := by
  rw [read_detach (·.generationAt i) fun _ _ => rfl, generationAt_release_self (by simpa),
    generationAt_setBefore, generationAt_setAfter]

theorem vacant_detach : (r.detach i).vacant = i :: r.vacant := by
  rw [read_detach (·.vacant) fun _ _ => rfl, vacant_release, vacant_setBefore, vacant_setAfter]

theorem size_slots_detach : (r.detach i).slots.size = r.slots.size := by
  rw [read_detach (·.slots.size) fun _ _ => rfl, size_slots_release, size_slots_setBefore,
    size_slots_setAfter]

theorem size_detach : (r.detach i).size = r.size - 1 := rfl

theorem after_detach (h : r.HasSlot (r.before (some i))) : (r.detach i).after c =
    if c = some i then none
    else if c = r.before (some i) then r.after (some i) else r.after c := by
  rw [read_detach (·.after c) fun _ _ => by cases c <;> rfl, after_release, after_setBefore,
    after_setAfter h]

theorem before_detach (h : r.HasSlot (r.after (some i))) : (r.detach i).before c =
    if c = some i then none
    else if c = r.after (some i) then r.before (some i) else r.before c := by
  have hslot : (r.setAfter (r.before (some i)) (r.after (some i))).HasSlot (r.after (some i)) :=
    fun j hj => size_slots_setAfter.symm ▸ h j hj
  rw [read_detach (·.before c) fun _ _ => by cases c <;> rfl, before_release,
    before_setBefore hslot, before_setAfter]

/-- The thread closes over a slot that is taken out. -/
theorem Thread.detach (h : r.Thread none (is ++ i :: js) none) (hn : (is ++ i :: js).Nodup)
    (hslots : ∀ a ∈ none :: (is ++ i :: js).map some, r.HasSlot a) :
    (r.detach i).Thread none (is ++ js) none := by
  obtain ⟨hleft, hright⟩ := thread_append.1 h
  obtain ⟨his, hijs, hdisjoint⟩ := List.nodup_append.1 hn
  obtain ⟨hijs, hjs⟩ := List.nodup_cons.1 hijs
  have hprev := hleft.before_mem
  have hnext := hright.after_mem
  have hi : i ∉ is := fun hm => hdisjoint i hm i List.mem_cons_self rfl
  have hleft_ne : ∀ x ∈ none :: is.map some, x ≠ some i := by
    rintro x hx rfl
    simp [hi] at hx
  have hright_ne : ∀ x ∈ none :: js.map some, x ≠ some i := by
    rintro x hx rfl
    simp [hijs] at hx
  have hafter (c : Option Nat) : (r.detach i).after c = _ := after_detach (hslots _ (by
    refine (List.mem_cons.1 hprev).elim (fun e => e ▸ List.mem_cons_self) fun hm => ?_
    rw [List.map_append]
    exact List.mem_cons_of_mem _ (List.mem_append_left _ hm)))
  have hbefore (c : Option Nat) : (r.detach i).before c = _ := before_detach (hslots _ (by
    refine (List.mem_cons.1 hnext).elim (fun e => e ▸ List.mem_cons_self) fun hm => ?_
    rw [List.map_append]
    exact List.mem_cons_of_mem _ (List.mem_append_right _ (List.mem_cons_of_mem _ hm))))
  -- the slots before it lead to the one after it
  have hclosed : (r.detach i).Thread none is (r.after (some i)) := by
    refine hleft.redirect (nodup_map_some his) ⟨?_, ?_⟩ ?_ ?_
    · rw [hafter, if_neg (hleft_ne _ hprev), if_pos rfl]
    · rw [hbefore, if_neg (hright_ne _ hnext), if_pos rfl]
    · intro x hx hlast
      rw [hafter, if_neg (hleft_ne x hx), if_neg hlast]
    · intro x hx
      have hne : x ≠ r.after (some i) := by
        rintro rfl
        rcases List.mem_cons.1 hnext with he | hm
        · rw [he] at hx; simp at hx
        · obtain ⟨a, ha, he⟩ := List.mem_map.1 hx
          obtain ⟨b, hb, he'⟩ := List.mem_map.1 hm
          exact hdisjoint a ha b (List.mem_cons_of_mem _ hb) (Option.some.inj (he.trans he'.symm))
      rw [hbefore, if_neg (hleft_ne x (List.mem_cons_of_mem _ hx)), if_neg hne]
  cases js with
  | nil =>
    rw [List.append_nil]
    rwa [hright.1] at hclosed
  | cons j js =>
    have hj : r.after (some i) = some j := hright.1.1
    rw [hj] at hclosed hbefore
    rw [thread_append]
    refine ⟨hclosed, hright.2.congr ?_ ?_⟩
    · intro x hx
      have hne : x ≠ r.before (some i) := by
        rintro rfl
        rcases List.mem_cons.1 hprev with he | hm
        · rw [he] at hx; simp at hx
        · obtain ⟨a, ha, he⟩ := List.mem_map.1 hm
          rw [← he, ← List.map_cons] at hx
          obtain ⟨b, hb, he'⟩ := List.mem_map.1 hx
          exact hdisjoint a ha b (List.mem_cons_of_mem _ hb) (Option.some.inj he').symm
      rw [hafter, if_neg (hright_ne x (List.mem_cons_of_mem _ hx)), if_neg hne]
    · intro x hx
      have hne : x ≠ some j := by
        rintro rfl
        simp [(List.nodup_cons.1 hjs).1] at hx
      have hmem : x ∈ none :: (j :: js).map some :=
        (List.mem_cons.1 hx).elim (fun e => e ▸ List.mem_cons_self) fun hm =>
          List.mem_cons_of_mem _ (List.mem_cons_of_mem _ hm)
      rw [hbefore, if_neg (hright_ne x hmem), if_neg hne]

theorem Linked.detach (h : r.Linked is) (hi : i ∈ is) : (r.detach i).Linked (is.erase i) where
  thread := by
    obtain ⟨left, right, rfl⟩ := List.append_of_mem hi
    have hleft : i ∉ left := fun hm =>
      (List.nodup_append.1 h.nodup).2.2 i hm i List.mem_cons_self rfl
    rw [List.erase_append_right _ hleft, List.erase_cons_head]
    exact h.thread.detach h.nodup fun a ha => h.hasSlot ha
  nodup := h.nodup.erase i
  mem j := by
    rw [occupant?_detach, h.nodup.mem_erase_iff, h.mem]
    by_cases hj : j = i <;> simp [hj]
  vacant_nodup := by
    rw [vacant_detach]
    refine List.nodup_cons.2 ⟨fun hv => ?_, h.vacant_nodup⟩
    simpa [(h.vacant i hv).2] using (h.mem i).1 hi
  vacant j hj := by
    rw [vacant_detach] at hj
    rw [occupant?_detach, size_slots_detach]
    rcases List.mem_cons.1 hj with rfl | hj
    · exact ⟨h.lt hi, if_pos rfl⟩
    · obtain ⟨hs, ho⟩ := h.vacant j hj
      exact ⟨hs, by simp [ho]⟩
  size := by rw [size_detach, h.size, List.length_erase_of_mem hi]

/-! ## A clearance -/

/-- Slot after slot is given up, as long as the slots to come still name the next ones. -/
theorem Thread.releaseFrom {a : Option Nat} (h : r'.Thread a is none) (hn : is.Nodup)
    (hafter : ∀ i ∈ is, r.after (some i) = r'.after (some i)) {n : Nat} (hle : is.length ≤ n) :
    r.releaseFrom n is.head? = is.foldl release r := by
  induction is generalizing r a n with
  | nil => cases n <;> rfl
  | cons i is ih =>
    obtain ⟨n, rfl⟩ : ∃ m, n = m + 1 := ⟨n - 1, by rw [List.length_cons] at hle; omega⟩
    obtain ⟨hi, hn⟩ := List.nodup_cons.1 hn
    obtain ⟨hnext, hafter⟩ := List.forall_mem_cons.1 hafter
    have hhead : r.after (some i) = is.head? := by rw [hnext, h.2.after_eq, Option.or_none]
    rw [List.head?_cons, Roster.releaseFrom, hhead, List.foldl_cons]
    refine ih h.2 hn (fun j hj => ?_) (Nat.le_of_succ_le_succ hle)
    have hne : some j ≠ some i := fun e => hi (Option.some.inj e ▸ hj)
    rw [after_release, if_neg hne, hafter j hj]

theorem occupant?_foldl_release (is : List Nat) (r : Roster) : (is.foldl release r).occupant? j =
    if j ∈ is then none else r.occupant? j := by
  induction is generalizing r with
  | nil => simp
  | cons i is ih =>
    rw [List.foldl_cons, ih, occupant?_release]
    by_cases hj : j = i <;> simp [hj]

theorem vacant_foldl_release (is : List Nat) (r : Roster) :
    (is.foldl release r).vacant = is.reverse ++ r.vacant := by
  induction is generalizing r with
  | nil => rfl
  | cons i is ih => rw [List.foldl_cons, ih]; simp

theorem size_slots_foldl_release (is : List Nat) (r : Roster) :
    (is.foldl release r).slots.size = r.slots.size := by
  induction is generalizing r with
  | nil => rfl
  | cons i is ih => rw [List.foldl_cons, ih, size_slots_release]

theorem generationAt_foldl_release (hn : is.Nodup) (hlt : ∀ i ∈ is, i < r.slots.size) :
    (is.foldl release r).generationAt j = r.generationAt j + if j ∈ is then 1 else 0 := by
  induction is generalizing r with
  | nil => simp
  | cons i is ih =>
    obtain ⟨hi, hn⟩ := List.nodup_cons.1 hn
    obtain ⟨hlti, hlt⟩ := List.forall_mem_cons.1 hlt
    rw [List.foldl_cons, ih hn (by simpa using hlt)]
    rcases eq_or_ne j i with rfl | hj
    · simp [hi, generationAt_release_self hlti]
    · simp [hj, generationAt_release hj]

theorem Linked.clear_eq (h : r.Linked is) : r.clear =
    { is.foldl release r with head := none, tail := none, size := 0 } := by
  have hhead : r.head = is.head? := by
    have := h.thread.after_eq
    rwa [Option.or_none] at this
  rw [clear, hhead, h.thread.releaseFrom h.nodup (fun _ _ => rfl) h.length_le]

theorem Linked.occupant?_clear (h : r.Linked is) : r.clear.occupant? j = none := by
  have hslots : r.clear.occupant? j = (is.foldl release r).occupant? j := by
    rw [h.clear_eq]
    rfl
  rw [hslots, occupant?_foldl_release]
  split
  · rfl
  · rename_i hj
    simpa [h.mem] using hj

theorem Linked.generationAt_clear (h : r.Linked is) :
    r.clear.generationAt j = r.generationAt j + if j ∈ is then 1 else 0 := by
  have hslots : r.clear.generationAt j = (is.foldl release r).generationAt j := by
    rw [h.clear_eq]
    rfl
  rw [hslots, generationAt_foldl_release h.nodup fun _ => h.lt]

theorem Linked.vacant_clear (h : r.Linked is) : r.clear.vacant = is.reverse ++ r.vacant := by
  rw [h.clear_eq]
  exact vacant_foldl_release is r

theorem Linked.clear (h : r.Linked is) : r.clear.Linked [] := by
  refine ⟨⟨rfl, rfl⟩, .nil, fun i => by simp [h.occupant?_clear], ?_,
    fun i hi => ⟨?_, h.occupant?_clear⟩, rfl⟩
  · rw [h.vacant_clear]
    refine (List.nodup_reverse.2 h.nodup).append h.vacant_nodup fun i hi hv => ?_
    simpa [(h.vacant i hv).2] using (h.mem i).1 (List.mem_reverse.1 hi)
  · have hsize : r.clear.slots.size = r.slots.size := by
      rw [h.clear_eq]
      exact size_slots_foldl_release is r
    rw [h.vacant_clear, List.mem_append, List.mem_reverse] at hi
    rw [hsize]
    exact hi.elim h.lt fun hv => (h.vacant i hv).1

end Realm.Roster
