import Realm.Proofs.Roster.Staleness

/-! # Removals on the way

A walk that steps on before it removes the entry it stands on is not led astray: whichever entries
it removes, the link that it holds leads through the entries still to come. -/

namespace Realm.Roster

variable {r : Roster} {l : Link} {g : Guid} {a : Option Link} {ls ls' : List Link}
  {es rest : List (Link × Guid)} {p : Guid → Bool}

/-! ## The links to come -/

/-- Asked for the next link again and again, the roster leads from `a` through `ls`, and there it
ends. -/
def LeadsThrough (r : Roster) (a : Option Link) (ls : List Link) : Prop :=
  ∀ n, r.linksFrom n a = ls.take n

theorem LeadsThrough.eq_head? (h : r.LeadsThrough a ls) : a = ls.head? := by
  have hone := h 1
  cases a with
  | none => cases ls with
    | nil => rfl
    | cons l ls => exact nomatch hone
  | some l => cases ls with
    | nil => exact nomatch hone
    | cons l' ls => exact congrArg List.head? hone

theorem LeadsThrough.tail (h : r.LeadsThrough a (l :: ls)) : r.LeadsThrough (r.next? l) ls := by
  intro n
  have hnext := h (n + 1)
  rw [h.eq_head?, List.head?_cons, linksFrom, List.take_succ_cons] at hnext
  exact (List.cons.inj hnext).2

theorem LeadsThrough.append (h : r.LeadsThrough a (ls ++ ls')) : r.LeadsThrough ls'.head? ls' := by
  induction ls generalizing a with
  | nil => rwa [h.eq_head?] at h
  | cons l ls ih => exact ih h.tail

/-- From each entry on, the links are those of the list. -/
theorem Sound.leadsThrough (h : r.Sound) (hlist : r.toList = es ++ rest) :
    r.LeadsThrough (rest.map (·.1)).head? (rest.map (·.1)) := by
  have hall : r.LeadsThrough r.first? (r.toList.map (·.1)) := h.shows.links
  rw [hlist, List.map_append] at hall
  exact hall.append

theorem Sound.next?_eq (h : r.Sound) (hlist : r.toList = es ++ (l, g) :: rest) :
    r.next? l = (rest.map (·.1)).head? :=
  (h.leadsThrough hlist).tail.eq_head?

/-! ## One entry -/

theorem Sound.get?_of_toList (h : r.Sound) (hlist : r.toList = es ++ (l, g) :: rest) :
    r.get? l = some g :=
  (mem_toList h).1 (hlist ▸ List.mem_append_right _ List.mem_cons_self)

theorem Sound.toList_erase (h : r.Sound) (hlist : r.toList = es ++ (l, g) :: rest) :
    (r.erase l).toList = es ++ rest := by
  have hlive := contains_of_get? (h.get?_of_toList hlist)
  have hdistinct := nodup_links h
  rw [hlist, List.map_append, List.map_cons, List.nodup_append, List.nodup_cons] at hdistinct
  obtain ⟨-, ⟨hrest, -⟩, hes⟩ := hdistinct
  have herase : r.erase? l = some (r.erase l) := by
    rw [erase_of_contains hlive, Roster.erase?, if_pos hlive]
  rw [toList_erase? h herase, hlist, List.filter_append, List.filter_cons_of_neg (by simp),
    List.filter_eq_self.2, List.filter_eq_self.2]
  · intro e he
    exact decide_eq_true fun hl => hrest (hl ▸ List.mem_map_of_mem (f := (·.1)) he)
  · intro e he
    exact decide_eq_true fun hl => hes _ (List.mem_map_of_mem he) _ List.mem_cons_self hl

/-- What a walk leaves of the entry that it stands on. -/
def sweepEntry (p : Guid → Bool) (r : Roster) (l : Link) (g : Guid) : Roster :=
  if p g then r.erase l else r

theorem sweepFrom_succ (hl : r.get? l = some g) (n : Nat) : sweepFrom p (n + 1) (some l) r =
    (g :: (sweepFrom p n (r.next? l) (sweepEntry p r l g)).1,
      (sweepFrom p n (r.next? l) (sweepEntry p r l g)).2) := by
  rw [sweepFrom, hl]
  rfl

theorem Sound.sweepEntry (h : r.Sound) (l : Link) (g : Guid) : (sweepEntry p r l g).Sound := by
  rw [Roster.sweepEntry]
  split
  · exact h.erase l
  · exact h

/-- The entry goes or stays, and the entries around it stay as they are. -/
theorem Sound.toList_sweepEntry (h : r.Sound) (hlist : r.toList = es ++ (l, g) :: rest) :
    (Roster.sweepEntry p r l g).toList = (es ++ [(l, g)].filter fun e => !p e.2) ++ rest := by
  rw [Roster.sweepEntry]
  cases hp : p g with
  | true => simp [h.toList_erase hlist, hp]
  | false => simp [hlist, hp]

/-! ## The walk -/

/-- A walk that has come to the entries `rest` goes through `n` of them and leaves those of which
`p` does not hold. -/
theorem Sound.sweepFrom (h : r.Sound) (hlist : r.toList = es ++ rest) (n : Nat) :
    (sweepFrom p n (rest.map (·.1)).head? r).1 = (rest.map (·.2)).take n ∧
      (sweepFrom p n (rest.map (·.1)).head? r).2.Sound ∧
      (sweepFrom p n (rest.map (·.1)).head? r).2.toList =
        es ++ (rest.take n).filter (fun e => !p e.2) ++ rest.drop n := by
  induction n generalizing r es rest with
  | zero => simpa [Roster.sweepFrom, hlist] using h
  | succ n ih =>
    cases rest with
    | nil => simpa [Roster.sweepFrom, hlist] using h
    | cons e rest =>
      obtain ⟨l, g⟩ := e
      obtain ⟨hseen, hsound, hleft⟩ := ih (h.sweepEntry l g) (h.toList_sweepEntry hlist)
      have hcons : ((l, g) :: rest.take n).filter (fun e => !p e.2) =
          [(l, g)].filter (fun e => !p e.2) ++ (rest.take n).filter (fun e => !p e.2) := by
        rw [← List.filter_append, List.singleton_append]
      rw [List.map_cons, List.head?_cons, sweepFrom_succ (h.get?_of_toList hlist),
        h.next?_eq hlist]
      refine ⟨?_, hsound, ?_⟩
      · rw [hseen, List.map_cons, List.take_succ_cons]
      · rw [hleft, List.take_succ_cons, List.drop_succ_cons, hcons, List.append_assoc es]

/-- With the last entry a walk ends, however far it might go on. -/
theorem Sound.sweepFrom_of_le (h : r.Sound) (hlist : r.toList = es ++ rest) {n : Nat}
    (hn : rest.length ≤ n) : Roster.sweepFrom p n (rest.map (·.1)).head? r =
      Roster.sweepFrom p rest.length (rest.map (·.1)).head? r := by
  induction rest generalizing r es n with
  | nil => cases n <;> rfl
  | cons e rest ih =>
    obtain ⟨l, g⟩ := e
    obtain ⟨n, rfl⟩ : ∃ m, n = m + 1 := ⟨n - 1, by rw [List.length_cons] at hn; omega⟩
    rw [List.map_cons, List.head?_cons, List.length_cons,
      sweepFrom_succ (h.get?_of_toList hlist), sweepFrom_succ (h.get?_of_toList hlist),
      h.next?_eq hlist, ih (h.sweepEntry l g) (h.toList_sweepEntry hlist)
        (Nat.le_of_succ_le_succ hn)]

/-- Where a walk over `r` has come after `n` entries. -/
structure SweptTo (p : Guid → Bool) (r : Roster) (n : Nat) : Prop where
  seen : (sweepFrom p n r.first? r).1 = (r.toList.map (·.2)).take n
  shows : (sweepFrom p n r.first? r).2.Shows
    ((r.toList.take n).filter (fun e => !p e.2) ++ r.toList.drop n)
  /-- The links still lead through the entries to come. -/
  ahead : (sweepFrom p n r.first? r).2.LeadsThrough ((r.toList.drop n).map (·.1)).head?
    ((r.toList.drop n).map (·.1))

/-- What a walk that removes the guids of which `p` holds does to `r`. -/
structure Sweeps (p : Guid → Bool) (r : Roster) : Prop where
  on : ∀ n, SweptTo p r n
  /-- After the last entry it has ended by itself. -/
  ends : ∀ n, r.size ≤ n → sweepFrom p n r.first? r = r.sweep p
  seen : (r.sweep p).1 = r.toList.map (·.2)
  shows : (r.sweep p).2.Shows (r.toList.filter fun e => !p e.2)
  live : ∀ l g, r.get? l = some g → p g = false → (r.sweep p).2.get? l = some g
  stale : ∀ l g, r.get? l = some g → p g = true → (r.sweep p).2.contains l = false

theorem Sound.first?_eq (h : r.Sound) : r.first? = (r.toList.map (·.1)).head? :=
  LeadsThrough.eq_head? h.shows.links

theorem Sound.sweptTo (h : r.Sound) (p : Guid → Bool) (n : Nat) : SweptTo p r n := by
  obtain ⟨hseen, hsound, hleft⟩ := h.sweepFrom (p := p) (List.nil_append r.toList).symm n
  rw [List.nil_append] at hleft
  rw [← h.first?_eq] at hseen hsound hleft
  exact ⟨hseen, hleft ▸ hsound.shows, hsound.leadsThrough hleft⟩

theorem Sound.sweeps (h : r.Sound) (p : Guid → Bool) : r.Sweeps p := by
  have hend := h.sweptTo p r.size
  have hlength := length_toList h
  have hsize : r.toList.take r.size = r.toList := List.take_of_length_le (Nat.le_of_eq hlength)
  have hshows : (r.sweep p).2.Shows (r.toList.filter fun e => !p e.2) := by
    have hshows := hend.shows
    rwa [hsize, List.drop_of_length_le (Nat.le_of_eq hlength), List.append_nil] at hshows
  refine ⟨h.sweptTo p, fun n hn => ?_, ?_, hshows, fun l g hl hp => ?_, fun l g hl hp => ?_⟩
  · rw [sweep, h.first?_eq, h.sweepFrom_of_le (List.nil_append r.toList).symm (hlength ▸ hn),
      hlength]
  · rw [sweep, hend.seen, ← List.map_take, hsize]
  · rw [hshows.get?, List.mem_filter, mem_toList h]
    exact ⟨hl, by rw [hp]; rfl⟩
  · rw [← Bool.not_eq_true, hshows.contains]
    intro hmem
    obtain ⟨e, he, rfl⟩ := List.mem_map.1 hmem
    obtain ⟨he, hkept⟩ := List.mem_filter.1 he
    rw [mem_toList h, hl] at he
    rw [← Option.some.inj he, hp] at hkept
    exact nomatch hkept

/-- Whatever a roster has gone through, and whichever of its entries are to go, the walk sees all of
them in order and leaves the others as they were. -/
theorem sweeps_runAll (ops : List Op) (p : Guid → Bool) : (runAll ∅ ops).Sweeps p :=
  (Sound.empty.runAll ops).sweeps p

end Realm.Roster
