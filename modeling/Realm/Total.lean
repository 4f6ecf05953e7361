/-! # Totals over lists -/

namespace Realm

variable {α : Type}

/-- The sum of what `f` counts of each item. -/
def total (f : α → Nat) (items : List α) : Nat := items.foldr (fun x n => f x + n) 0

@[simp] theorem total_nil (f : α → Nat) : total f [] = 0 := rfl

@[simp] theorem total_cons (f : α → Nat) (x : α) (items : List α) :
    total f (x :: items) = f x + total f items := rfl

@[simp] theorem total_append (f : α → Nat) (xs ys : List α) :
    total f (xs ++ ys) = total f xs + total f ys := by
  induction xs with
  | nil => simp
  | cons x xs ih => simp [ih, Nat.add_assoc]

@[simp] theorem total_map {β : Type} (f : β → Nat) (g : α → β) (items : List α) :
    total f (items.map g) = total (fun x => f (g x)) items := by
  induction items with
  | nil => rfl
  | cons x items ih => simp [ih]

theorem total_congr {f f' : α → Nat} {items : List α} (h : ∀ x ∈ items, f x = f' x) :
    total f items = total f' items := by
  induction items with
  | nil => rfl
  | cons x items ih =>
    rw [total_cons, total_cons, h x List.mem_cons_self,
      ih fun y hy => h y (List.mem_cons_of_mem _ hy)]

theorem total_eq_zero {f : α → Nat} {items : List α} :
    total f items = 0 ↔ ∀ x ∈ items, f x = 0 := by
  induction items with
  | nil => simp
  | cons x items ih => simp [ih]

/-- What becomes of a total when one item counts differently. -/
theorem total_change (f f' : α → Nat) {x : α} {items : List α} (hnodup : items.Nodup)
    (hx : x ∈ items) (h : ∀ y ∈ items, y ≠ x → f' y = f y) :
    total f' items + f x = total f items + f' x := by
  induction items with
  | nil => exact nomatch hx
  | cons y items ih =>
    obtain ⟨hy, hnodup⟩ := List.nodup_cons.1 hnodup
    rw [total_cons, total_cons]
    rcases List.mem_cons.1 hx with rfl | hx
    · have hrest : total f' items = total f items := total_congr fun z hz =>
        h z (List.mem_cons_of_mem _ hz) fun e => hy (e ▸ hz)
      omega
    · have hrest := ih hnodup hx fun z hz => h z (List.mem_cons_of_mem _ hz)
      have hhead := h y List.mem_cons_self fun e => hy (e ▸ hx)
      omega

end Realm
