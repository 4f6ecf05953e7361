import Realm.Proofs.Roster

/-! # A roster is a list

However entries come and go, a roster can be taken for the list of its entries: each operation does
to it what it would do to a list, and every way of reading it shows that list. -/

namespace Realm.Roster

variable {r : Roster} {l : Link} {g : Guid} {a : Option Nat} {is : List Nat}

/-! ## Readings -/

/-- The links from one on, each found by asking for the one after the last; at most `n` of them. -/
def linksFrom (r : Roster) : Nat → Option Link → List Link
  | n + 1, some l => l :: r.linksFrom n (r.next? l)
  | _, _ => []

/-- Each item with the number of the items after it. -/
def countdown {α : Type} : List α → List (α × Nat)
  | [] => []
  | x :: xs => (x, xs.length) :: countdown xs

/-- All ways of reading a roster show the same entries. A walk may take as many steps as it likes:
it sees the entries in order and ends with the last. -/
structure Shows (r : Roster) (es : List (Link × Guid)) : Prop where
  distinct : (es.map (·.1)).Nodup
  entries : ∀ n, r.entriesFrom n r.first? = es.take n
  links : ∀ n, r.linksFrom n r.first? = (es.map (·.1)).take n
  /-- A walk counts on as many entries as there are, and after each on those still to come. -/
  hint : r.walk.remaining = es.length
  walk : ∀ n, r.walk.take n = (countdown (es.map (·.2))).take n
  toList : r.toList = es
  guids : r.guids = es.map (·.2)
  size : r.size = es.length
  isEmpty : r.isEmpty = true ↔ es = []
  get? : ∀ l g, r.get? l = some g ↔ (l, g) ∈ es
  contains : ∀ l, r.contains l = true ↔ l ∈ es.map (·.1)

theorem Thread.linksFrom (h : r.Thread a is none) (ho : ∀ i ∈ is, (r.occupant? i).isSome)
    (n : Nat) :
    r.linksFrom n ((r.after a).map r.linkAt) = ((r.entries is).map (·.1)).take n := by
  induction is generalizing a n with
  | nil =>
    rw [h.1]
    cases n <;> rfl
  | cons i is ih =>
    obtain ⟨hi, his⟩ := List.forall_mem_cons.1 ho
    obtain ⟨g, hg⟩ := Option.isSome_iff_exists.1 hi
    rw [h.1.1, entries_cons hg]
    cases n with
    | zero => rfl
    | succ n =>
      rw [List.map_cons, List.take_succ_cons, Option.map_some, Roster.linksFrom,
        next?_linkAt hi, ih h.2 his]

theorem Thread.walk (h : r.Thread a is none) (ho : ∀ i ∈ is, (r.occupant? i).isSome) (n : Nat) :
    Walk.take n ⟨r, r.after a, is.length⟩ =
      (countdown ((r.entries is).map (·.2))).take n := by
  induction is generalizing a n with
  | nil =>
    rw [h.1]
    cases n <;> rfl
  | cons i is ih =>
    obtain ⟨hi, his⟩ := List.forall_mem_cons.1 ho
    obtain ⟨g, hg⟩ := Option.isSome_iff_exists.1 hi
    have hlen : (r.entries is).length = is.length :=
      List.filterMap_length_eq_length.2 fun j hj => by rw [Option.isSome_map]; exact his j hj
    rw [h.1.1, entries_cons hg]
    cases n with
    | zero => rfl
    | succ n =>
      rw [Walk.take_occupied hg, List.map_cons, countdown, List.take_succ_cons, List.length_map,
        hlen, List.length_cons, Nat.add_sub_cancel, ih h.2 his]

/-- A sound roster shows its list, whichever way it is read. -/
theorem Sound.shows (h : r.Sound) : r.Shows r.toList where
  distinct := nodup_links h
  entries n := by
    obtain ⟨is, h⟩ := h
    rw [h.toList_eq]
    exact h.thread.entriesFrom h.occupied n
  links n := by
    obtain ⟨is, h⟩ := h
    rw [h.toList_eq]
    exact h.thread.linksFrom h.occupied n
  hint := (length_toList h).symm
  walk n := by
    obtain ⟨is, h⟩ := h
    rw [h.toList_eq, Roster.walk, h.size]
    exact h.thread.walk h.occupied n
  toList := rfl
  guids := guids_eq_map_toList
  size := (length_toList h).symm
  isEmpty := by
    rw [isEmpty, decide_eq_true_eq, ← length_toList h, List.length_eq_zero_iff]
  get? l g := (mem_toList h).symm
  contains l := by
    rw [contains, Option.isSome_iff_exists]
    simp only [← mem_toList h, List.mem_map]
    constructor
    · rintro ⟨g, hg⟩
      exact ⟨(l, g), hg, rfl⟩
    · rintro ⟨e, he, rfl⟩
      exact ⟨e.2, he⟩

/-! ## Operations -/

inductive Op where
  | insert (g : Guid)
  | erase (l : Link)
  | clear
  deriving DecidableEq, Repr

/-- What an operation answers: the link of the new entry, or whether there was one to remove. -/
inductive Answer where
  | link (l : Link)
  | erased (found : Bool)
  | cleared
  deriving DecidableEq, Repr

def Op.run (r : Roster) : Op → Answer × Roster
  | .insert g => (.link (r.insert g).1, (r.insert g).2)
  | .erase l => (.erased (r.erase? l).isSome, r.erase l)
  | .clear => (.cleared, r.clear)

/-- What an operation with its answer makes of a list of entries. A new entry gets a link that no
other has. -/
inductive Op.Acts : List (Link × Guid) → Op → Answer → List (Link × Guid) → Prop
  | insert {es : List (Link × Guid)} {l : Link} {g : Guid} (fresh : l ∉ es.map (·.1)) :
      Acts es (.insert g) (.link l) (es ++ [(l, g)])
  | erase {es : List (Link × Guid)} {l : Link} (live : l ∈ es.map (·.1)) :
      Acts es (.erase l) (.erased true) (es.filter (·.1 ≠ l))
  | stale {es : List (Link × Guid)} {l : Link} (stale : l ∉ es.map (·.1)) :
      Acts es (.erase l) (.erased false) es
  | clear {es : List (Link × Guid)} : Acts es .clear .cleared []

/-- From `r` on, operations can be followed on a list of entries that the roster shows at every
point. A removal that finds nothing leaves the roster untouched. -/
inductive Refines : Roster → List (Link × Guid) → List Op → Prop
  | done {r : Roster} {es : List (Link × Guid)} (shows : r.Shows es) : Refines r es []
  | step {r : Roster} {es es' : List (Link × Guid)} {op : Op} {ops : List Op}
      (shows : r.Shows es) (acts : op.Acts es (op.run r).1 es')
      (untouched : (op.run r).1 = .erased false → (op.run r).2 = r)
      (rest : Refines (op.run r).2 es' ops) : Refines r es (op :: ops)

theorem Sound.erase (h : r.Sound) (l : Link) : (r.erase l).Sound := by
  rw [Roster.erase]
  cases he : r.erase? l with
  | none => exact h
  | some r' => exact h.erase? he

theorem Sound.run (h : r.Sound) (op : Op) : (op.run r).2.Sound := by
  cases op with
  | insert g => exact h.insert g
  | erase l => exact h.erase l
  | clear => exact h.clear

theorem Sound.acts (h : r.Sound) (op : Op) :
    op.Acts r.toList (op.run r).1 (op.run r).2.toList := by
  cases op with
  | insert g =>
    have hlist := toList_insert h g
    have hdistinct := nodup_links (h.insert g)
    rw [hlist, List.map_append, List.nodup_append] at hdistinct
    rw [Op.run, hlist]
    exact .insert fun hm => hdistinct.2.2 _ hm _ List.mem_cons_self rfl
  | erase l =>
    have hfound := h.shows.contains l
    rw [contains, ← isSome_erase?] at hfound
    rw [Op.run, Roster.erase]
    cases he : r.erase? l with
    | none =>
      rw [he] at hfound
      exact .stale fun hm => Bool.false_ne_true (hfound.2 hm)
    | some r' =>
      rw [he] at hfound
      simp only [Option.getD_some, toList_erase? h he]
      exact .erase (hfound.1 rfl)
  | clear =>
    rw [Op.run, toList_clear h]
    exact .clear

theorem untouched_of_not_erased (op : Op) (h : (op.run r).1 = .erased false) :
    (op.run r).2 = r := by
  cases op with
  | insert g => cases h
  | erase l =>
    have hnone : r.erase? l = none := by
      have hfails : (r.erase? l).isSome = false := Answer.erased.inj h
      rwa [Option.isSome_eq_false_iff, Option.isNone_iff_eq_none] at hfails
    rw [Op.run, Roster.erase, hnone]
    rfl
  | clear => cases h

theorem Sound.refines (h : r.Sound) (ops : List Op) : r.Refines r.toList ops := by
  induction ops generalizing r with
  | nil => exact .done h.shows
  | cons op ops ih =>
    exact .step h.shows (h.acts op) (untouched_of_not_erased op) (ih (h.run op))

/-- Whatever is done to a roster that starts empty, it is a list of entries. -/
theorem refines_empty (ops : List Op) : Refines ∅ [] ops := Sound.empty.refines ops

end Realm.Roster
