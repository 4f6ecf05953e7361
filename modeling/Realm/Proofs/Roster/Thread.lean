import Mathlib.Data.List.Nodup
import Mathlib.Data.List.Perm.Subperm
import Mathlib.Data.Option.Basic
import Realm.Roster

/-! # The thread of a roster

The slots of the entries are joined one to the next, in both directions. No slot stands at both ends
of the thread: the first entry comes after it and the last one before it. -/

namespace Realm.Roster

variable {r r' : Roster} {a b c : Option Nat} {i j k : Nat} {is js : List Nat} {g : Guid}

/-! ## Threads -/

/-- `b` comes after `a`, and `a` before `b`. -/
def Joined (r : Roster) (a b : Option Nat) : Prop := r.after a = b ∧ r.before b = a

/-- The slots of `is` lead from `a` to `b`, each joined to the next. -/
def Thread (r : Roster) (a : Option Nat) : List Nat → Option Nat → Prop
  | [], b => r.Joined a b
  | i :: is, b => r.Joined a (some i) ∧ r.Thread (some i) is b

theorem Thread.after_eq (h : r.Thread a is b) : r.after a = is.head?.or b := by
  cases is with
  | nil => exact h.1
  | cons i is => exact h.1.1

theorem Thread.after_mem (h : r.Thread a is b) : r.after a ∈ b :: is.map some := by
  rw [h.after_eq]
  cases is <;> simp

theorem Thread.before_mem (h : r.Thread a is b) : r.before b ∈ a :: is.map some := by
  induction is generalizing a with
  | nil => exact List.mem_singleton.2 h.2
  | cons i is ih => exact List.mem_cons_of_mem _ (ih h.2)

theorem thread_append : r.Thread a (is ++ k :: js) b ↔
    r.Thread a is (some k) ∧ r.Thread (some k) js b := by
  induction is generalizing a with
  | nil => rfl
  | cons i is ih => simp only [List.cons_append, Thread, ih, and_assoc]

/-- A thread is whole as long as what its slots name stays the same. -/
theorem Thread.congr (h : r.Thread a is b) (hafter : ∀ x ∈ a :: is.map some, r'.after x = r.after x)
    (hbefore : ∀ x ∈ b :: is.map some, r'.before x = r.before x) : r'.Thread a is b := by
  induction is generalizing a with
  | nil =>
    exact ⟨(hafter a List.mem_cons_self).trans h.1, (hbefore b List.mem_cons_self).trans h.2⟩
  | cons i is ih =>
    simp only [List.map_cons, List.forall_mem_cons] at hafter hbefore
    refine ⟨⟨hafter.1.trans h.1.1, hbefore.2.1.trans h.1.2⟩, ih h.2 ?_ ?_⟩
    · exact List.forall_mem_cons.2 hafter.2
    · exact List.forall_mem_cons.2 ⟨hbefore.1, hbefore.2.2⟩

/-- The last slot of a thread is led somewhere else. -/
theorem Thread.redirect (h : r.Thread a is b) (hn : (a :: is.map some).Nodup)
    (hlast : r'.Joined (r.before b) c)
    (hafter : ∀ x ∈ a :: is.map some, x ≠ r.before b → r'.after x = r.after x)
    (hbefore : ∀ x ∈ is.map some, r'.before x = r.before x) : r'.Thread a is c := by
  induction is generalizing a with
  | nil =>
    rw [h.2] at hlast
    exact hlast
  | cons i is ih =>
    rw [List.map_cons, List.nodup_cons] at hn
    simp only [List.map_cons, List.forall_mem_cons] at hafter hbefore
    have hne : a ≠ r.before b := fun e => hn.1 (e ▸ h.2.before_mem)
    refine ⟨⟨(hafter.1 hne).trans h.1.1, hbefore.1.trans h.1.2⟩, ih h.2 hn.2 ?_ hbefore.2⟩
    exact List.forall_mem_cons.2 hafter.2

/-! ## What is read of a slot -/

theorem getElem?_modifySlot (f : Slot → Slot) : (r.modifySlot i f).slots[j]? =
    if j = i then r.slots[j]?.map f else r.slots[j]? := by
  simp only [modifySlot, Array.getElem?_modify, eq_comm (a := i)]

theorem bind_modifySlot {α : Type} (p : Slot → Option α) (f : Slot → Slot) :
    (r.modifySlot i f).slots[j]?.bind p =
      if j = i then r.slots[j]?.bind fun s => p (f s) else r.slots[j]?.bind p := by
  rw [getElem?_modifySlot]
  split
  · rw [Option.bind_map]; rfl
  · rfl

theorem generationAt_modifySlot {f : Slot → Slot} (hf : ∀ s, (f s).generation = s.generation) :
    (r.modifySlot i f).generationAt j = r.generationAt j := by
  rw [generationAt, generationAt, getElem?_modifySlot]
  by_cases hj : j = i
  · rw [if_pos hj]
    cases r.slots[j]? with
    | none => rfl
    | some s => exact hf s
  · rw [if_neg hj]

@[simp] theorem size_slots_modifySlot (f : Slot → Slot) :
    (r.modifySlot i f).slots.size = r.slots.size :=
  Array.size_modify

/-- The slot that `a` names, if any, is there. -/
def HasSlot (r : Roster) (a : Option Nat) : Prop := ∀ i ∈ a, i < r.slots.size

theorem bind_const {α : Type} (h : i < r.slots.size) (x : Option α) :
    (r.slots[i]?.bind fun _ => x) = x := by
  rw [Array.getElem?_eq_getElem h]
  rfl

theorem after_setAfter (h : r.HasSlot a) :
    (r.setAfter a b).after c = if c = a then b else r.after c := by
  cases a with
  | none => cases c <;> rfl
  | some i =>
    cases c with
    | none => rfl
    | some j =>
      simp only [setAfter, after, bind_modifySlot, Option.some.injEq]
      split
      · rename_i hj
        exact bind_const (hj ▸ h i rfl) b
      · rfl

theorem before_setBefore (h : r.HasSlot a) :
    (r.setBefore a b).before c = if c = a then b else r.before c := by
  cases a with
  | none => cases c <;> rfl
  | some i =>
    cases c with
    | none => rfl
    | some j =>
      simp only [setBefore, before, bind_modifySlot, Option.some.injEq]
      split
      · rename_i hj
        exact bind_const (hj ▸ h i rfl) b
      · rfl

@[simp] theorem before_setAfter : (r.setAfter a b).before c = r.before c := by
  cases a with
  | none => cases c <;> rfl
  | some i =>
    cases c with
    | none => rfl
    | some j => simp only [setAfter, before, bind_modifySlot, ite_self]

@[simp] theorem after_setBefore : (r.setBefore a b).after c = r.after c := by
  cases a with
  | none => cases c <;> rfl
  | some i =>
    cases c with
    | none => rfl
    | some j => simp only [setBefore, after, bind_modifySlot, ite_self]

@[simp] theorem occupant?_setAfter : (r.setAfter a b).occupant? i = r.occupant? i := by
  cases a with
  | none => rfl
  | some j => simp only [setAfter, occupant?, bind_modifySlot, ite_self]

@[simp] theorem occupant?_setBefore : (r.setBefore a b).occupant? i = r.occupant? i := by
  cases a with
  | none => rfl
  | some j => simp only [setBefore, occupant?, bind_modifySlot, ite_self]

@[simp] theorem generationAt_setAfter : (r.setAfter a b).generationAt i = r.generationAt i := by
  cases a with
  | none => rfl
  | some j => exact generationAt_modifySlot fun _ => rfl

@[simp] theorem generationAt_setBefore : (r.setBefore a b).generationAt i = r.generationAt i := by
  cases a with
  | none => rfl
  | some j => exact generationAt_modifySlot fun _ => rfl

@[simp] theorem size_slots_setAfter : (r.setAfter a b).slots.size = r.slots.size := by
  cases a with
  | none => rfl
  | some i => exact size_slots_modifySlot _

@[simp] theorem size_slots_setBefore : (r.setBefore a b).slots.size = r.slots.size := by
  cases a with
  | none => rfl
  | some i => exact size_slots_modifySlot _

@[simp] theorem vacant_setAfter : (r.setAfter a b).vacant = r.vacant := by
  cases a <;> rfl

@[simp] theorem vacant_setBefore : (r.setBefore a b).vacant = r.vacant := by
  cases a <;> rfl

/-! ## Releasing a slot -/

theorem after_release : (r.release i).after c = if c = some i then none else r.after c := by
  cases c with
  | none => rfl
  | some j =>
    refine (bind_modifySlot _ _).trans ?_
    simp only [Option.some.injEq]
    split
    · cases r.slots[j]? <;> rfl
    · rfl

theorem before_release : (r.release i).before c = if c = some i then none else r.before c := by
  cases c with
  | none => rfl
  | some j =>
    refine (bind_modifySlot _ _).trans ?_
    simp only [Option.some.injEq]
    split
    · cases r.slots[j]? <;> rfl
    · rfl

theorem occupant?_release : (r.release i).occupant? j = if j = i then none else r.occupant? j := by
  refine (bind_modifySlot _ _).trans ?_
  split
  · cases r.slots[j]? <;> rfl
  · rfl

theorem generationAt_release (h : j ≠ i) : (r.release i).generationAt j = r.generationAt j := by
  have hslots : (r.release i).slots = (r.modifySlot i Slot.vacate).slots := rfl
  rw [generationAt, hslots, getElem?_modifySlot, if_neg h]
  rfl

/-- A slot that is given up gets the next generation. -/
theorem generationAt_release_self (h : i < r.slots.size) :
    (r.release i).generationAt i = r.generationAt i + 1 := by
  have hslots : (r.release i).slots = (r.modifySlot i Slot.vacate).slots := rfl
  rw [generationAt, hslots, getElem?_modifySlot, if_pos rfl, generationAt,
    Array.getElem?_eq_getElem h]
  rfl

@[simp] theorem size_slots_release : (r.release i).slots.size = r.slots.size :=
  size_slots_modifySlot _

@[simp] theorem vacant_release : (r.release i).vacant = i :: r.vacant := rfl

/-! ## Linked slots -/

/-- The slots of `is` hold the entries and are threaded in this order. The slots to be used again
are empty. -/
structure Linked (r : Roster) (is : List Nat) : Prop where
  thread : r.Thread none is none
  nodup : is.Nodup
  mem : ∀ i, i ∈ is ↔ (r.occupant? i).isSome
  vacant_nodup : r.vacant.Nodup
  vacant : ∀ i ∈ r.vacant, i < r.slots.size ∧ r.occupant? i = none
  size : r.size = is.length

theorem Linked.empty : Linked ∅ [] where
  thread := ⟨rfl, rfl⟩
  nodup := .nil
  mem _ := by simp [occupant?, EmptyCollection.emptyCollection]
  vacant_nodup := .nil
  vacant _ h := nomatch h
  size := rfl

theorem lt_of_occupied (h : (r.occupant? i).isSome) : i < r.slots.size := by
  by_contra hi
  rw [occupant?, Array.getElem?_eq_none (Nat.le_of_not_lt hi)] at h
  exact nomatch h

theorem Linked.lt (h : r.Linked is) (hi : i ∈ is) : i < r.slots.size :=
  lt_of_occupied ((h.mem i).1 hi)

theorem Linked.hasSlot (h : r.Linked is) (ha : a ∈ none :: is.map some) : r.HasSlot a := by
  rintro i rfl
  simp only [List.mem_cons, reduceCtorEq, List.mem_map, Option.some.injEq, exists_eq_right,
    false_or] at ha
  exact h.lt ha

theorem nodup_map_some (h : is.Nodup) : (none :: is.map some).Nodup := by
  rw [List.nodup_cons]
  exact ⟨by simp, h.map (Option.some_injective _)⟩

/-- Every entry has a slot of its own. -/
theorem Linked.length_le (h : r.Linked is) : is.length ≤ r.slots.size := by
  have hsub : is ⊆ List.range r.slots.size := fun i hi => List.mem_range.2 (h.lt hi)
  simpa using (h.nodup.subperm hsub).length_le

end Realm.Roster
