import Mathlib.Data.List.Nodup
import Mathlib.Logic.Function.Basic
import Realm.Directory

/-! # Maps at work on the directory

Maps update at the same time and share the directory. Each makes its own calls in order; between
them any calls of the other maps may come. Taking a registration back is two calls, as the entry of
a guid without registrations is dropped in a step of its own. -/

namespace Realm.Directory

variable {d d' : Directory} {g g' : Guid} {id id' : MapId}

/-! ## Registrations -/

theorem getElem?_insert_entries (r : List MapId) :
    (d.entries.insert g r)[g']? = if g' = g then some r else d.entries[g']? := by
  rw [Std.ExtTreeMap.getElem?_insert]
  simp only [Std.LawfulEqCmp.compare_eq_iff_eq, eq_comm (a := g')]

theorem getElem?_erase_entries :
    (d.entries.erase g)[g']? = if g' = g then none else d.entries[g']? := by
  rw [Std.ExtTreeMap.getElem?_erase]
  simp only [Std.LawfulEqCmp.compare_eq_iff_eq, eq_comm (a := g')]

theorem registrations_register : (d.register g id).registrations g' =
    if g' = g then d.registrations g ++ [id] else d.registrations g' := by
  simp only [register, registrations, getElem?_insert_entries]
  split <;> rfl

theorem registrations_strike : (d.strike g id).registrations g' =
    if g' = g then (d.registrations g).erase id else d.registrations g' := by
  rw [strike]
  split
  · simp only [registrations, getElem?_insert_entries]
    split <;> rfl
  · rename_i h
    rw [List.erase_of_not_mem h]
    split
    · rename_i hg; rw [hg]
    · rfl

theorem registrations_tidy : (d.tidy g).registrations g' = d.registrations g' := by
  rw [tidy]
  split
  · rename_i h
    simp only [registrations, getElem?_erase_entries]
    split
    · rename_i hg; rw [hg, h]; rfl
    · rfl
  · rfl

theorem registrations_unregister : (d.unregister g id).registrations g' =
    if g' = g then (d.registrations g).erase id else d.registrations g' := by
  rw [unregister]
  split
  · rw [registrations_tidy, registrations_strike]
  · rename_i h
    rw [List.erase_of_not_mem h]
    split
    · rename_i hg; rw [hg]
    · rfl

/-! ## Calls -/

/-- One step of a map's work on the directory. -/
inductive Call where
  | register (guid : Guid)
  | strike (guid : Guid)
  | tidy (guid : Guid)
  deriving DecidableEq, Repr

/-- The call that passes on a note. -/
def Note.call : Note → Call
  | .placed g => .register g
  | .gone g => .strike g

/-- The directory after a call, the calls that have to follow it, and the answer to one that takes a
registration back. -/
def act (d : Directory) (id : MapId) : Call → Directory × List Call × List Bool
  | .register g => (d.register g id, [], [])
  | .strike g =>
    if id ∈ d.registrations g then (d.strike g id, [.tidy g], [true]) else (d, [], [false])
  | .tidy g => (d.tidy g, [], [])

/-- `d'` has come from `d` by the pending calls of all maps, in some order, and these were the
answers. -/
inductive Interleaved : Directory → (MapId → List Call) → List Bool → Directory → Prop
  | done (d : Directory) : Interleaved d (fun _ => []) [] d
  | step {d d' : Directory} {pending : MapId → List Call} {id : MapId} {c : Call}
      {cs : List Call} {answers : List Bool} (next : pending id = c :: cs)
      (rest : Interleaved (d.act id c).1 (Function.update pending id ((d.act id c).2.1 ++ cs))
        answers d') :
      Interleaved d pending ((d.act id c).2.2 ++ answers) d'

/-! ## Holding -/

/-- Whether a map holds a guid after a call, if it keeps to the rules: it registers what it does not
hold and strikes what it holds. -/
def Call.after (g : Guid) (held : Bool) : Call → Option Bool
  | .register g' => if g' ≠ g then some held else if held then none else some true
  | .strike g' => if g' ≠ g then some held else if held then some false else none
  | .tidy _ => some held

/-- Whether a map holds a guid after all its calls, if they keep to the rules. -/
def follow (g : Guid) (held : Bool) (calls : List Call) : Option Bool :=
  calls.foldlM (Call.after g) held

theorem follow_append {held : Bool} {xs ys : List Call} :
    follow g held (xs ++ ys) = (follow g held xs).bind fun held => follow g held ys :=
  List.foldlM_append ..

theorem follow_tidy {held : Bool} {cs : List Call} :
    follow g held (.tidy g' :: cs) = follow g held cs := rfl

/-- What a map may strike: objects that it holds, each of them once. -/
theorem follow_strikes {held : Bool} {gs : List Guid} (hgs : gs.Nodup)
    (h : g ∈ gs → held = true) :
    follow g held (gs.map .strike) = some (if g ∈ gs then false else held) := by
  induction gs generalizing held with
  | nil => simp [follow]
  | cons g' gs ih =>
    obtain ⟨hg', hgs⟩ := List.nodup_cons.1 hgs
    simp only [follow, List.map_cons, List.foldlM_cons, Call.after] at ih ⊢
    rcases eq_or_ne g' g with rfl | hg
    · rw [if_neg (not_not_intro rfl), h List.mem_cons_self, if_pos rfl]
      exact (ih hgs fun hm => absurd hm hg').trans (by simp [hg'])
    · rw [if_pos hg]
      exact (ih hgs fun hm => h (List.mem_cons_of_mem _ hm)).trans (by simp [Ne.symm hg])

/-- The directory is on its way to list a map under a guid exactly when `held` says so: the pending
calls lead there, and every empty entry is still to be dropped. -/
structure Mirrors (d : Directory) (pending : MapId → List Call) (held : MapId → Guid → Bool) :
    Prop where
  nodup : ∀ g, (d.registrations g).Nodup
  follows : ∀ id g, follow g (decide (id ∈ d.registrations g)) (pending id) = some (held id g)
  tidied : ∀ {g : Guid}, d.entries[g]? = some [] → ∃ id, .tidy g ∈ pending id

variable {pending : MapId → List Call} {held held' : MapId → Guid → Bool} {c : Call}
  {cs : List Call}

theorem nodup_act (h : d.Mirrors pending held) (next : pending id = c :: cs) (g : Guid) :
    ((d.act id c).1.registrations g).Nodup := by
  cases c with
  | register g' =>
    rw [act, registrations_register]
    split
    · rename_i hg
      subst hg
      -- a map that is listed already does not register
      have hid : id ∉ d.registrations g := fun hm => by
        have := h.follows id g
        rw [next, follow, List.foldlM_cons, Call.after] at this
        simp [hm] at this
      rw [List.nodup_append]
      exact ⟨h.nodup g, List.nodup_singleton id, fun a ha b hb e =>
        hid (List.mem_singleton.1 hb ▸ e ▸ ha)⟩
    · exact h.nodup g
  | strike g' =>
    rw [act]
    split
    · rw [registrations_strike]
      split
      · exact (h.nodup g').erase id
      · exact h.nodup g
    · exact h.nodup g
  | tidy g' =>
    rw [act, registrations_tidy]
    exact h.nodup g

/-- A call takes the rules one step on for its own map. -/
theorem follow_act_self (h : d.Mirrors pending held) (next : pending id = c :: cs) (g : Guid) :
    follow g (decide (id ∈ (d.act id c).1.registrations g)) ((d.act id c).2.1 ++ cs) =
      some (held id g) := by
  have hid := h.follows id g
  rw [next, follow, List.foldlM_cons] at hid
  cases c with
  | register g' =>
    simp only [act, registrations_register, List.nil_append]
    rcases eq_or_ne g g' with rfl | hg
    · by_cases hm : id ∈ d.registrations g
      · simp [Call.after, hm] at hid
      · simpa [Call.after, hm, follow] using hid
    · simpa [Call.after, hg, hg.symm, follow] using hid
  | strike g' =>
    by_cases hm : id ∈ d.registrations g'
    · simp only [act, if_pos hm, registrations_strike, List.cons_append, List.nil_append,
        follow_tidy]
      rcases eq_or_ne g g' with rfl | hg
      · have hgone : id ∉ (d.registrations g).erase id := (h.nodup g).not_mem_erase
        simpa [Call.after, hm, hgone, follow] using hid
      · simpa [Call.after, hg, hg.symm, follow] using hid
    · simp only [act, if_neg hm, List.nil_append]
      rcases eq_or_ne g g' with rfl | hg
      · simp [Call.after, hm] at hid
      · simpa [Call.after, hg.symm, follow] using hid
  | tidy g' => simpa [act, registrations_tidy, follow, Call.after] using hid

/-- A call is about one map. -/
theorem mem_registrations_act (he : id' ≠ id) (c : Call) (g : Guid) :
    id' ∈ (d.act id c).1.registrations g ↔ id' ∈ d.registrations g := by
  cases c with
  | register g' =>
    rw [act, registrations_register]
    split
    · rename_i hg; simp [hg, he]
    · rfl
  | strike g' =>
    rw [act]
    split
    · rw [registrations_strike]
      split
      · rename_i hg; rw [hg, List.mem_erase_of_ne he]
      · rfl
    · rfl
  | tidy g' => rw [act, registrations_tidy]

theorem follow_act (h : d.Mirrors pending held) (next : pending id = c :: cs) (id' : MapId)
    (g : Guid) :
    follow g (decide (id' ∈ (d.act id c).1.registrations g))
      (Function.update pending id ((d.act id c).2.1 ++ cs) id') = some (held id' g) := by
  rcases eq_or_ne id' id with rfl | he
  · rw [Function.update_self]
    exact follow_act_self h next g
  · rw [Function.update_of_ne he, decide_eq_decide.2 (mem_registrations_act he c g)]
    exact h.follows id' g

/-- An empty entry is dropped by the map that emptied it. -/
theorem tidied_act (h : d.Mirrors pending held) (next : pending id = c :: cs)
    (hg : (d.act id c).1.entries[g]? = some []) :
    ∃ id', .tidy g ∈ Function.update pending id ((d.act id c).2.1 ++ cs) id' := by
  have hkeep (hne : c ≠ .tidy g) (hold : d.entries[g]? = some []) :
      ∃ id', .tidy g ∈ Function.update pending id ((d.act id c).2.1 ++ cs) id' := by
    obtain ⟨id', hm⟩ := h.tidied hold
    refine ⟨id', ?_⟩
    rcases eq_or_ne id' id with rfl | he
    · rw [next, List.mem_cons] at hm
      rw [Function.update_self, List.mem_append]
      exact .inr (hm.resolve_left (Ne.symm hne))
    · rwa [Function.update_of_ne he]
  cases c with
  | register g' =>
    simp only [act, register, getElem?_insert_entries] at hg
    split at hg
    · simp at hg
    · exact hkeep (by simp) hg
  | strike g' =>
    rw [act] at hg ⊢
    by_cases hm : id ∈ d.registrations g'
    · rw [if_pos hm] at hg ⊢
      rcases eq_or_ne g g' with rfl | he
      · exact ⟨id, by rw [Function.update_self]; exact List.mem_cons_self⟩
      · simp only [strike, if_pos hm, getElem?_insert_entries, if_neg he] at hg
        have := hkeep (by simp) hg
        rwa [act, if_pos hm] at this
    · rw [if_neg hm] at hg ⊢
      have := hkeep (by simp) hg
      rwa [act, if_neg hm] at this
  | tidy g' =>
    rcases eq_or_ne g g' with rfl | he
    · simp only [act, tidy] at hg
      split at hg
      · simp at hg
      · rename_i hne; exact absurd hg hne
    · refine hkeep (by simp [Ne.symm he]) ?_
      simp only [act, tidy] at hg
      split at hg
      · rwa [getElem?_erase_entries, if_neg he] at hg
      · exact hg

theorem Mirrors.act (h : d.Mirrors pending held) (next : pending id = c :: cs) :
    (d.act id c).1.Mirrors (Function.update pending id ((d.act id c).2.1 ++ cs)) held ∧
      ∀ a ∈ (d.act id c).2.2, a = true := by
  refine ⟨⟨nodup_act h next, follow_act h next, tidied_act h next⟩, ?_⟩
  cases c with
  | register g' => simp [Directory.act]
  | strike g' =>
    have hid := h.follows id g'
    by_cases hm : id ∈ d.registrations g'
    · simp [Directory.act, hm]
    · simp [next, follow, Call.after, hm] at hid
  | tidy g' => simp [Directory.act]

/-- However the calls of the maps are interleaved, in the end the directory lists what they hold,
and nothing was taken back that was not there. -/
theorem Mirrors.interleaved {answers : List Bool} (h : d.Mirrors pending held)
    (hrun : Interleaved d pending answers d') :
    d'.Mirrors (fun _ => []) held ∧ ∀ a ∈ answers, a = true := by
  induction hrun with
  | done d => exact ⟨h, fun a ha => nomatch ha⟩
  | step next _ ih =>
    obtain ⟨hact, hnow⟩ := h.act next
    obtain ⟨hend, hlater⟩ := ih hact
    exact ⟨hend, fun a ha => (List.mem_append.1 ha).elim (hnow a) (hlater a)⟩

/-! ## The directory at rest -/

theorem Mirrors.mem_registrations (h : d.Mirrors (fun _ => []) held) :
    id ∈ d.registrations g ↔ held id g = true := by
  have hid : some (decide (id ∈ d.registrations g)) = some (held id g) := h.follows id g
  rw [← Option.some.inj hid, decide_eq_true_eq]

theorem Mirrors.empty : (∅ : Directory).Mirrors (fun _ => []) fun _ _ => false where
  nodup _ := .nil
  follows _ _ := rfl
  tidied h := nomatch h

/-- Calls that start from a directory at rest. -/
theorem Mirrors.start (h : d.Mirrors (fun _ => []) held)
    (hp : ∀ id g, follow g (held id g) (pending id) = some (held' id g)) :
    d.Mirrors pending held' where
  nodup := h.nodup
  follows id g := by
    rw [← hp id g]
    congr 1
    rw [Bool.eq_iff_iff, decide_eq_true_eq, h.mem_registrations]
  tidied hg := by
    obtain ⟨_, hm⟩ := h.tidied hg
    exact nomatch hm

theorem Mirrors.mem_entries (h : d.Mirrors (fun _ => []) held) :
    g ∈ d.entries ↔ ∃ id, held id g = true := by
  simp only [← h.mem_registrations]
  rw [Std.ExtTreeMap.mem_iff_isSome_getElem?, registrations]
  cases he : d.entries[g]? with
  | none => simp
  | some ids =>
    cases ids with
    | nil =>
      obtain ⟨_, hm⟩ := h.tidied he
      exact nomatch hm
    | cons id ids => exact ⟨fun _ => ⟨id, List.mem_cons_self⟩, fun _ => rfl⟩

/-- At rest the directory has an entry for each guid that some map holds. -/
theorem Mirrors.size_eq (h : d.Mirrors (fun _ => []) held) {gs : List Guid} (hgs : gs.Nodup)
    (hmem : ∀ g, g ∈ gs ↔ ∃ id, held id g = true) : d.size = gs.length := by
  have hperm : d.entries.keys.Perm gs := by
    refine (List.perm_ext_iff_of_nodup Std.ExtTreeMap.nodup_keys hgs).2 fun g => ?_
    rw [Std.ExtTreeMap.mem_keys, h.mem_entries, hmem]
  rw [← hperm.length_eq, Std.ExtTreeMap.length_keys]
  rfl

/-! ## One map after the other -/

/-- A note passed on at once is one way to make its calls. -/
theorem Interleaved.note {n : Note} {answers : List Bool} (next : pending id = n.call :: cs)
    (h : Interleaved (d.note id n) (Function.update pending id cs) answers d') :
    ∃ answers, Interleaved d pending answers d' := by
  cases n with
  | placed g => exact ⟨_, .step next h⟩
  | gone g =>
    by_cases hm : id ∈ d.registrations g
    · have htidy : Interleaved (d.strike g id) (Function.update pending id (.tidy g :: cs))
          ([] ++ answers) d' := by
        refine .step (c := .tidy g) (Function.update_self ..) ?_
        simpa [act, Directory.note, unregister, hm] using h
      exact ⟨_, .step next (by simpa [act, Note.call, hm] using htidy)⟩
    · refine ⟨_, .step next (?_ : Interleaved _ _ answers _)⟩
      simpa [act, Note.call, Directory.note, unregister, hm] using h

theorem Interleaved.notes {ns : List Note} {answers : List Bool}
    (next : pending id = ns.map Note.call)
    (h : Interleaved (d.notes id ns) (Function.update pending id []) answers d') :
    ∃ answers, Interleaved d pending answers d' := by
  induction ns generalizing d pending with
  | nil =>
    have hp : Function.update pending id [] = pending :=
      Function.update_eq_iff.2 ⟨next.symm, fun _ _ => rfl⟩
    rw [hp] at h
    exact ⟨answers, h⟩
  | cons n ns ih =>
    have hlast : Interleaved ((d.note id n).notes id ns)
        (Function.update (Function.update pending id (ns.map Note.call)) id []) answers d' := by
      rw [Function.update_idem]
      exact h
    obtain ⟨answers', hrest⟩ := ih (Function.update_self ..) hlast
    exact Interleaved.note next hrest

/-! ## How often a map is listed -/

/-- How often a map is listed under a guid after a call of its own. -/
def Call.tally (g : Guid) (n : Nat) : Call → Nat
  | .register g' => if g = g' then n + 1 else n
  | .strike g' => if g = g' then n - 1 else n
  | .tidy _ => n

theorem count_act_self (c : Call) : ((d.act id c).1.registrations g).count id =
    c.tally g ((d.registrations g).count id) := by
  cases c with
  | register g' =>
    rw [act, registrations_register, Call.tally]
    split
    · rename_i hg
      rw [hg, List.count_append, List.count_singleton_self]
    · rfl
  | strike g' =>
    rw [act, Call.tally]
    split
    · rw [registrations_strike]
      split
      · rename_i hg
        rw [hg, List.count_erase_self]
      · rfl
    · rename_i hid
      split
      · rename_i hg
        rw [hg, List.count_eq_zero_of_not_mem hid]
      · rfl
  | tidy g' => rw [act, registrations_tidy, Call.tally]

theorem count_act_of_ne (he : id' ≠ id) (c : Call) :
    ((d.act id c).1.registrations g).count id' = (d.registrations g).count id' := by
  cases c with
  | register g' =>
    rw [act, registrations_register]
    split
    · rename_i hg
      rw [hg, List.count_append, List.count_singleton, beq_false_of_ne he.symm]
      rfl
    · rfl
  | strike g' =>
    rw [act]
    split
    · rw [registrations_strike]
      split
      · rename_i hg
        rw [hg, List.count_erase_of_ne he]
      · rfl
    · rfl
  | tidy g' => rw [act, registrations_tidy]

/-- What has to follow a call lists no map and strikes none. -/
theorem tally_follow (c : Call) (n : Nat) : (d.act id c).2.1.foldl (Call.tally g) n = n := by
  cases c with
  | register | tidy => rfl
  | strike => rw [act]; split <;> rfl

theorem notes_append {ns ns' : List Note} :
    d.notes id (ns ++ ns') = (d.notes id ns).notes id ns' := List.foldl_append

/-- One map alone under a guid is the one that is found. -/
theorem locate?_congr
    (hcount : ∀ id, (d.registrations g).count id = (d'.registrations g).count id)
    (hone : ∀ id ∈ d.registrations g, ∀ id' ∈ d.registrations g, id = id') :
    d.locate? g = d'.locate? g := by
  have hperm : (d'.registrations g).Perm (d.registrations g) :=
    (List.perm_iff_count.2 hcount).symm
  rw [locate?, locate?]
  cases hd : d.registrations g with
  | nil => rw [hd, List.perm_nil] at hperm; rw [hperm]
  | cons id ids =>
    rw [hd] at hperm hone
    have hall : id :: ids = List.replicate (id :: ids).length id :=
      List.eq_replicate_of_mem fun id' hid' => hone id' hid' id List.mem_cons_self
    rw [hall, List.perm_replicate] at hperm
    rw [hperm, ← hall]

end Realm.Directory
