import Mathlib.Data.List.Basic
import Mathlib.Tactic.Common

/-!
# Deterministic machines that may crash

A machine reads one input after the other; a step gives the next state and an
output, or the machine crashes for good. `run` is a whole run.

* `observe_run_congr`: two input sequences that differ only by inputs the machine
  hides in a set of states it stays in lead to the same state and the same
  observations.
-/

namespace EmbassyKnx

/-- A machine with states `σ`, inputs `ι`, outputs `ο` and crash reasons `ε`. -/
structure Machine (σ ι ο ε : Type) where
  step : σ → ι → Except ε (σ × ο)

namespace Machine

variable {σ ι ο ε : Type} (m : Machine σ ι ο ε)

/-- The state and the outputs after a sequence of inputs, or the first crash. -/
def run : σ → List ι → Except ε (σ × List ο)
  | s, [] => .ok (s, [])
  | s, i :: is =>
    match m.step s i with
    | .error e => .error e
    | .ok (s', o) => (run s' is).map fun r => (r.1, o :: r.2)

@[simp] theorem run_nil (s : σ) : m.run s [] = .ok (s, []) := rfl

theorem run_cons_error {s : σ} {i : ι} {e : ε} (h : m.step s i = .error e) (is : List ι) :
    m.run s (i :: is) = .error e := by
  rw [run, h]

theorem run_cons_ok {s s' : σ} {i : ι} {o : ο} (h : m.step s i = .ok (s', o)) (is : List ι) :
    m.run s (i :: is) = (m.run s' is).map fun r => (r.1, o :: r.2) := by
  rw [run, h]

/-! ## Hidden inputs -/

/-- The machine is in `I` before every input of a run and at its end. -/
def StaysIn (I : σ → Prop) : σ → List ι → Prop
  | s, [] => I s
  | s, i :: is => I s ∧ ∀ s' o, m.step s i = .ok (s', o) → StaysIn I s' is

/-- In the states of `I`, an input of `hidden` does not move the machine and shows nothing
    of its output. -/
def Hides {ν : Type} (I : σ → Prop) (hidden : ι → Prop) (view : ο → List ν) : Prop :=
  ∀ s i, I s → hidden i → ∃ o, m.step s i = .ok (s, o) ∧ view o = []

/-- What is seen of a run: its last state and the visible parts of its outputs. -/
def observe {ν : Type} (view : ο → List ν) (r : Except ε (σ × List ο)) : Except ε (σ × List ν) :=
  r.map fun x => (x.1, x.2.flatMap view)

theorem observe_cons {ν : Type} (view : ο → List ν) (o : ο) (r : Except ε (σ × List ο)) :
    observe view (r.map fun x => (x.1, o :: x.2)) =
      (observe view r).map fun x => (x.1, view o ++ x.2) := by
  cases r <;> rfl

section Hidden

variable {m} {ν : Type} {I : σ → Prop} {hidden : ι → Prop} {view : ο → List ν}

theorem StaysIn.head {s : σ} {is : List ι} (h : m.StaysIn I s is) : I s := by
  cases is with
  | nil => exact h
  | cons i is => exact h.1

variable [DecidablePred hidden]

/-- Hidden inputs do not take a run out of the set. -/
theorem staysIn_filter_iff (hm : m.Hides I hidden view) {s : σ} {is : List ι} (hs : I s) :
    m.StaysIn I s (is.filter fun i => ¬hidden i) ↔ m.StaysIn I s is := by
  induction is generalizing s with
  | nil => exact Iff.rfl
  | cons i is ih =>
    by_cases hi : hidden i
    · obtain ⟨o, hstep, -⟩ := hm s i hs hi
      rw [List.filter_cons_of_neg (by simpa using hi), ih hs]
      constructor
      · intro h
        refine ⟨hs, ?_⟩
        intro s' o' hstep'
        rw [hstep] at hstep'
        cases hstep'
        exact h
      · intro h
        exact h.2 _ _ hstep
    · rw [List.filter_cons_of_pos (by simpa using hi)]
      constructor
      · intro h
        refine ⟨hs, ?_⟩
        intro s' o hstep
        have hnext := h.2 _ _ hstep
        exact (ih hnext.head).mp hnext
      · intro h
        refine ⟨hs, ?_⟩
        intro s' o hstep
        have hnext := h.2 _ _ hstep
        exact (ih hnext.head).mpr hnext

/-- Hidden inputs can be left out of a run. -/
theorem observe_run_filter (hm : m.Hides I hidden view) {s : σ} {is : List ι}
    (h : m.StaysIn I s is) :
    observe view (m.run s (is.filter fun i => ¬hidden i)) = observe view (m.run s is) := by
  induction is generalizing s with
  | nil => rfl
  | cons i is ih =>
    by_cases hi : hidden i
    · obtain ⟨o, hstep, hview⟩ := hm s i h.1 hi
      rw [List.filter_cons_of_neg (by simpa using hi), ih (h.2 _ _ hstep), m.run_cons_ok hstep,
        observe_cons, hview]
      cases observe view (m.run s is) <;> rfl
    · rw [List.filter_cons_of_pos (by simpa using hi)]
      rcases hstep : m.step s i with e | ⟨s', o⟩
      · rw [m.run_cons_error hstep, m.run_cons_error hstep]
      · rw [m.run_cons_ok hstep, m.run_cons_ok hstep, observe_cons, observe_cons,
          ih (h.2 _ _ hstep)]

/-- Two runs that agree up to hidden inputs are seen alike. -/
theorem observe_run_congr (hm : m.Hides I hidden view) {s : σ} {is js : List ι}
    (h : m.StaysIn I s is)
    (heq : (is.filter fun i => ¬hidden i) = js.filter fun i => ¬hidden i) :
    m.StaysIn I s js ∧ observe view (m.run s is) = observe view (m.run s js) := by
  have hjs : m.StaysIn I s js := by
    rw [← staysIn_filter_iff hm h.head, ← heq, staysIn_filter_iff hm h.head]
    exact h
  refine ⟨hjs, ?_⟩
  rw [← observe_run_filter hm h, heq, observe_run_filter hm hjs]

end Hidden

end Machine

end EmbassyKnx
