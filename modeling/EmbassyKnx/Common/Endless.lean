import EmbassyKnx.Common.Async
import Mathlib.Data.Nat.Find
import Mathlib.Logic.Relation
import Mathlib.Order.RelClasses

/-!
# Endless runs and ranks

A system whose steps are partial can be run for ever only if its steps do not use up
something. `Ranked w x` relates a state to a rank; ranks are ordered by a well-founded
relation, idle actions keep a rank and all others go below it. A state may have several
ranks, so that a rank can speak of a simulation that relates the state to an abstract one.

* `EndlessRun.eventually_idle`: only finitely many actions of an endless run are not idle.
* `EndlessRun.exists_behind`: an endless run can be started some actions earlier.
* `wellFounded_behind`: a program that is interpreted step by step goes down in a
  well-founded relation.
-/

namespace EmbassyKnx

/-- An endless run of a system with partial steps. -/
structure EndlessRun {W A : Type} (step : W → A → Option W) where
  state : ℕ → W
  action : ℕ → A
  next : ∀ n, step (state n) (action n) = some (state (n + 1))

namespace EndlessRun

variable {W A R : Type} {step : W → A → Option W} (r : EndlessRun step)

theorem reaches (n : ℕ) :
    Relation.ReflTransGen (fun w w' => ∃ a, step w a = some w') (r.state 0) (r.state n) := by
  induction n with
  | zero => exact .refl
  | succ n ih => exact ih.tail ⟨_, r.next n⟩

/-- An endless run behind an action. -/
def cons (w : W) (a : A) (h : step w a = some (r.state 0)) : EndlessRun step where
  state
    | 0 => w
    | n + 1 => r.state n
  action
    | 0 => a
    | n + 1 => r.action n
  next
    | 0 => h
    | n + 1 => r.next n

/-- An endless run can be started some actions earlier. -/
theorem exists_behind (acts : List A) {w : W} (h : acts.foldlM step w = some (r.state 0)) :
    ∃ r' : EndlessRun step, r'.state 0 = w ∧
      (∀ n, r'.action n ∈ acts ∨ ∃ m, r'.action n = r.action m) ∧
      ∀ n, r'.state (n + acts.length) = r.state n ∧ r'.action (n + acts.length) = r.action n := by
  induction acts generalizing w with
  | nil =>
    have hw : w = r.state 0 := Option.some.inj h
    exact ⟨r, hw.symm, fun n => .inr ⟨n, rfl⟩, fun n => ⟨rfl, rfl⟩⟩
  | cons a acts ih =>
    rw [List.foldlM_cons] at h
    obtain ⟨w', hstep, hrest⟩ := Option.bind_eq_some_iff.mp h
    obtain ⟨r', hstart, hactions, hlater⟩ := ih hrest
    refine ⟨r'.cons w a (by rw [hstep, hstart]), rfl, fun n => ?_, fun n => hlater n⟩
    cases n with
    | zero => exact .inl List.mem_cons_self
    | succ n => exact (hactions n).imp_left (List.mem_cons_of_mem a)

variable {lt : R → R → Prop} (ranked : W → R → Prop) {idle : A → Prop}

/-- In an endless run that is ranked from the `n`-th state on, there is an end to the actions
    that are not idle. -/
theorem eventually_idle_from (hwf : WellFounded lt)
    (hidle : ∀ n x, idle (r.action n) → ranked (r.state n) x → ranked (r.state (n + 1)) x)
    (hbusy : ∀ n x, ¬idle (r.action n) → ranked (r.state n) x →
      ∃ y, ranked (r.state (n + 1)) y ∧ lt y x)
    {n : ℕ} {x : R} (hx : ranked (r.state n) x) : ∃ k, ∀ m ≥ k, idle (r.action m) := by
  -- by induction on the rank: the first action that is not idle goes below it
  induction x using hwf.induction generalizing n with
  | _ x ih =>
    by_cases hall : ∀ m ≥ n, idle (r.action m)
    · exact ⟨n, hall⟩
    · have hfirst : ∃ d, ¬idle (r.action (n + d)) := by
        simp only [ge_iff_le, not_forall] at hall
        obtain ⟨m, hm, hnot⟩ := hall
        exact ⟨m - n, by rwa [Nat.add_sub_of_le hm]⟩
      classical
      have hsame : ∀ d ≤ Nat.find hfirst, ranked (r.state (n + d)) x := by
        intro d
        induction d with
        | zero => exact fun _ => hx
        | succ d ihd =>
          intro hd
          have hidled : idle (r.action (n + d)) :=
            not_not.mp (Nat.find_min hfirst (Nat.lt_of_succ_le hd))
          exact hidle _ _ hidled (ihd (Nat.le_of_succ_le hd))
      obtain ⟨y, hy, hlt⟩ := hbusy _ x (Nat.find_spec hfirst) (hsame _ (Nat.le_refl _))
      exact ih y hlt hy

/-- Only finitely many actions of a ranked run are not idle. -/
theorem eventually_idle (hwf : WellFounded lt)
    (hidle : ∀ n x, idle (r.action n) → ranked (r.state n) x → ranked (r.state (n + 1)) x)
    (hbusy : ∀ n x, ¬idle (r.action n) → ranked (r.state n) x →
      ∃ y, ranked (r.state (n + 1)) y ∧ lt y x)
    (hranked : ∃ x, ranked (r.state 0) x) : ∃ k, ∀ m ≥ k, idle (r.action m) := by
  obtain ⟨x, hx⟩ := hranked
  exact r.eventually_idle_from ranked hwf hidle hbusy hx

end EndlessRun

namespace Async

variable {S : Signature} {α : Type}

/-- `y` is what is left of `x` behind its next operation. -/
inductive Behind : Async S α → Async S α → Prop
  | resume {o : S.Op} {resume : S.Ret o → Async S α} (r : S.Ret o) :
      Behind (resume r) (.perform o resume)

theorem wellFounded_behind : WellFounded (Behind (S := S) (α := α)) := by
  refine ⟨fun x => ?_⟩
  induction x with
  | done a =>
    refine ⟨_, fun y hy => ?_⟩
    cases hy
  | panicked why =>
    refine ⟨_, fun y hy => ?_⟩
    cases hy
  | perform o resume ih =>
    refine ⟨_, fun y hy => ?_⟩
    cases hy with
    | resume r => exact ih r

end Async

end EmbassyKnx
