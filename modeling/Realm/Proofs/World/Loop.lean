import Realm.Proofs.World.Whereabouts
import Realm.World.Loop

/-! # Runs of the loop

The loop asks for its limit after a turn. So it takes as many turns as the limit says, but one turn
where the limit says none; and in every turn the population wanders once, however the round ends,
and the world ticks once. -/

namespace Realm

/-! ## Rounds -/

namespace World

variable {w w' : World} {id : MapId} {t : Task} {g : Guid} {target : MapId} {p : Position}

theorem ticks_post (h : w.post id t = .ok w') : w'.ticks = w.ticks := by
  obtain ⟨m, -, rfl⟩ := post_eq_ok h
  rfl

theorem ticks_teleport (h : w.teleport g target p = .ok w') : w'.ticks = w.ticks := by
  obtain ⟨-, source, scope, -, ⟨-, hp⟩ | ⟨-, w₁, w₂, hp₁, hp₂, rfl⟩⟩ := teleport_eq_ok h
  · exact ticks_post hp
  · exact (ticks_post hp₂).trans (ticks_post hp₁)

end World

namespace Population

variable {walker moved : Walker} {plan : Plan} {w w' : World} {jumped : Bool}

theorem ticks_follow (h : walker.follow plan w = .ok (jumped, moved, w')) :
    w'.ticks = w.ticks := by
  obtain ⟨target, w₁, ht, hfollow⟩ | hstep := follow_cases walker plan w
  · rw [hfollow] at h
    cases h
    exact World.ticks_teleport ht
  · rw [hstep] at h
    cases hp : w.post walker.map (.relocate walker.guid (walker.stepTo plan)) with
    | error e =>
      rw [hp] at h
      exact nomatch h
    | ok w₁ =>
      rw [hp] at h
      cases h
      exact World.ticks_post hp

theorem ticks_roamAll (draw : Walker → KeyStream → Plan × KeyStream) (walkers : List Walker)
    (s : KeyStream) (w : World) : (roamAll draw walkers s w).2.2.2.ticks = w.ticks := by
  induction walkers generalizing s w with
  | nil => rfl
  | cons walker walkers ih =>
    rw [roamAll]
    dsimp only
    split
    · rfl
    · rename_i jumped moved w₁ hfollow
      exact (ih _ w₁).trans (ticks_follow hfollow)

end Population

namespace Game

variable {g : Game} {diffs : List Duration} {limit : Option UInt64} {done : Nat}

/-! ## Turns -/

theorem isSome_population_act (g : Game) (c : Call) :
    (g.act c).population.isSome = g.population.isSome := by
  cases c with
  | tick diff => rfl
  | wander =>
    rw [act]
    split
    · rfl
    · rename_i p hp
      rw [hp]
      rfl

theorem calls_eq (g : Game) (diff : Duration) :
    g.calls diff = if g.population.isSome then [.wander, .tick diff] else [.tick diff] := by
  rw [calls]
  split
  · rename_i hp
    rw [hp]
    rfl
  · rename_i p hp
    rw [hp]
    rfl

/-- All calls of some turns. -/
def agenda (g : Game) (diffs : List Duration) : List Call := diffs.flatMap g.calls

theorem agenda_turn (g : Game) (diff : Duration) (diffs : List Duration) :
    (g.turn diff).agenda diffs = g.agenda diffs := by
  have hfold (cs : List Call) (g : Game) :
      (cs.foldl act g).population.isSome = g.population.isSome := by
    induction cs generalizing g with
    | nil => rfl
    | cons c cs ih => exact (ih _).trans (isSome_population_act g c)
  have hcalls : (g.turn diff).calls = g.calls := by
    funext d
    rw [calls_eq, calls_eq, turn, hfold]
  rw [agenda, agenda, hcalls]

/-- The turns make these calls and no others. -/
theorem foldl_turn (g : Game) (diffs : List Duration) :
    diffs.foldl turn g = (g.agenda diffs).foldl act g := by
  induction diffs generalizing g with
  | nil => rfl
  | cons diff diffs ih =>
    rw [List.foldl_cons, ih, agenda_turn, agenda, agenda, List.flatMap_cons, List.foldl_append]
    rfl

theorem count_wander_agenda (g : Game) (diffs : List Duration) :
    (g.agenda diffs).count .wander = if g.population.isSome then diffs.length else 0 := by
  induction diffs with
  | nil => simp [agenda]
  | cons diff diffs ih =>
    rw [agenda, List.flatMap_cons, List.count_append, ← agenda, ih, calls_eq]
    split
    · simp [Nat.add_comm]
    · simp

theorem ticks_turn (g : Game) (diff : Duration) :
    (g.turn diff).world.ticks = g.world.ticks + 1 := by
  have hround : (g.act .wander).world.ticks = g.world.ticks := by
    rw [act]
    split
    · rfl
    · rename_i p hp
      exact Population.ticks_roamAll ..
  rw [turn, calls_eq]
  split
  · exact congrArg (· + 1) hround
  · rfl

theorem ticks_foldl_turn (g : Game) (diffs : List Duration) :
    (diffs.foldl turn g).world.ticks = g.world.ticks + .ofNat diffs.length := by
  induction diffs generalizing g with
  | nil => exact (UInt64.add_zero _).symm
  | cons diff diffs ih =>
    rw [List.foldl_cons, ih, ticks_turn, List.length_cons, UInt64.ofNat_add, UInt64.add_assoc,
      UInt64.add_comm 1]
    rfl

/-! ## Runs -/

/-- As long as the limit is not used up, the timer only leads from turn to turn. -/
theorem runFrom_timers (g : Game) (diffs : List Duration) (wakes : List Wake)
    (h : ∀ n, done < n → n ≤ done + diffs.length → spent limit n = false) :
    runFrom limit done g (diffs.map .timer ++ wakes) =
      runFrom limit (done + diffs.length) (diffs.foldl turn g) wakes := by
  induction diffs generalizing done g with
  | nil => rfl
  | cons diff diffs ih =>
    rw [List.length_cons] at h ⊢
    have hgo : spent limit (done + 1) = false := h _ (by omega) (by omega)
    rw [List.map_cons, List.cons_append, runFrom, hgo, if_neg Bool.false_ne_true,
      ih _ fun n hlow hhigh => h n (by omega) (by omega), List.foldl_cons, Nat.add_assoc,
      Nat.add_comm 1]

/-- What the loop answers after some turns: their number, and the game that their calls lead to. In
every turn the world has ticked once, and the population, if there is one, has wandered once. -/
structure Ends (g : Game) (diffs : List Duration) (out : Nat × Game) : Prop where
  turns : out.1 = diffs.length
  game : out.2 = (g.agenda diffs).foldl act g
  ticks : out.2.world.ticks = g.world.ticks + .ofNat diffs.length
  rounds : (g.agenda diffs).count .wander = if g.population.isSome then diffs.length else 0

theorem ends_foldl_turn (g : Game) (diffs : List Duration) :
    g.Ends diffs (diffs.length, diffs.foldl turn g) :=
  ⟨rfl, foldl_turn g diffs, ticks_foldl_turn g diffs, count_wander_agenda g diffs⟩

/-- A shutdown ends the loop after the turns before it. -/
theorem run_shutdown (hgo : ∀ n, 0 < n → n ≤ diffs.length → spent g.world.config.maxTicks n = false)
    (wakes : List Wake) :
    ∃ out, g.run (diffs.map .timer ++ .shutdown :: wakes) = some out ∧ g.Ends diffs out := by
  refine ⟨_, ?_, g.ends_foldl_turn diffs⟩
  rw [run, runFrom_timers g diffs _ fun n hlow hhigh => hgo n hlow (by omega), runFrom,
    Nat.zero_add]

/-- The limit ends the loop after the turn that uses it up. -/
theorem run_spent (hgo : ∀ n, 0 < n → n ≤ diffs.length → spent g.world.config.maxTicks n = false)
    (hlast : spent g.world.config.maxTicks (diffs.length + 1) = true) (diff : Duration)
    (wakes : List Wake) :
    ∃ out, g.run (diffs.map .timer ++ .timer diff :: wakes) = some out ∧
      g.Ends (diffs ++ [diff]) out := by
  refine ⟨_, ?_, g.ends_foldl_turn (diffs ++ [diff])⟩
  rw [run, runFrom_timers g diffs _ fun n hlow hhigh => hgo n hlow (by omega), runFrom,
    Nat.zero_add, if_pos hlast, List.length_append, List.foldl_append]
  rfl

/-- A loop that no shutdown ends: it waits before its last turn, and ends with it. -/
structure Limited (g : Game) (diffs : List Duration) (turns : Nat) : Prop where
  waits : diffs.length < turns → g.run (diffs.map .timer) = none
  ends : turns ≤ diffs.length →
    ∃ out, g.run (diffs.map .timer) = some out ∧ g.Ends (diffs.take turns) out

/-- A loop with a limit takes as many turns as the limit says, but one at least. -/
theorem limited_run {limit : UInt64} (hl : g.world.config.maxTicks = some limit)
    (diffs : List Duration) : g.Limited diffs (max 1 limit.toNat) where
  waits hlt := by
    have hwakes : diffs.map Wake.timer = diffs.map .timer ++ [] := (List.append_nil _).symm
    have hgo : ∀ n, 0 < n → n ≤ 0 + diffs.length → spent (some limit) n = false :=
      fun n hlow hhigh => decide_eq_false (by omega)
    rw [run, hl, hwakes, runFrom_timers g diffs [] hgo, runFrom]
  ends hle := by
    obtain ⟨turns, hturns⟩ : ∃ turns, max 1 limit.toNat = turns + 1 :=
      ⟨max 1 limit.toNat - 1, by omega⟩
    obtain ⟨before, last, after, rfl, hlen⟩ : ∃ before last after,
        diffs = before ++ last :: after ∧ before.length = turns := by
      refine ⟨diffs.take turns, diffs[turns], diffs.drop (turns + 1), ?_,
        List.length_take_of_le (by omega)⟩
      rw [← List.drop_eq_getElem_cons, List.take_append_drop]
    have hgo : ∀ n, 0 < n → n ≤ before.length → spent g.world.config.maxTicks n = false := by
      rw [hl]
      exact fun n hlow hhigh => decide_eq_false (by omega)
    have hlast : spent g.world.config.maxTicks (before.length + 1) = true := by
      rw [hl]
      exact decide_eq_true (by omega)
    rw [hturns, ← hlen, List.take_length_add_append, List.take_succ_cons, List.take_zero,
      List.map_append, List.map_cons]
    exact run_spent hgo hlast last _

/-- A world with one map, and nobody in it. -/
def idle (limit : UInt64) : World :=
  { config := { mapIds := [0], maxTicks := some limit }, maps := [{ id := 0, config := {} }] }

def lone : Population where
  random := .ofSeed 0
  walkers := [⟨⟨.creature, 0⟩, 0, .flat 0 0⟩]
  statics := 0
  chance := Population.defaultChance

theorem limited_idle : (idle 2).config.maxTicks = some 2 ∧
    Limited ⟨idle 2, some lone⟩ (List.replicate 3 (.ofMillis 50)) (max 1 (2 : UInt64).toNat) :=
  ⟨rfl, limited_run rfl _⟩

/-- With a limit of no turns the loop takes one. -/
theorem run_idle : World.ofConfig (idle 0).config = .ok (idle 0) ∧ (idle 0).ticks = 0 ∧
    (run ⟨idle 0, none⟩ [.timer (.ofMillis 50)]).map (fun out => (out.1, out.2.world.ticks)) =
      some (1, 1) :=
  ⟨rfl, rfl, rfl⟩

end Game
end Realm
