import EmbassyKnx.Common.Protocol

/-!
# Contracts of asynchronous computations

A contract is an automaton over the operations of a program, as a protocol is, whose states
also say which answers a program may rely on and with what it may panic. A state can hold
what the program has read and written, so that a contract describes a program that is
interrupted at any of its operations: what it has done so far, what it is about to do, and
what follows from the answers it gets.

* `meets_bind`, `meets_lift_bind`, `meets_tryThen`: programs are checked part by part.
* `meets_of_exec`: a handler that can give every answer stands for all environments.
-/

namespace EmbassyKnx

open Rust

/-- What is allowed in a state, which answers are relied on there, the state behind an answer, and
    the panics that may happen. -/
structure Contract (S : Signature) (G : Type) where
  allows : G → S.Op → Prop
  answers : G → (o : S.Op) → S.Ret o → Prop
  next : G → (o : S.Op) → S.Ret o → G
  panics : G → Panic → Prop

namespace Async

variable {S : Signature} {G α β ε : Type} (C : Contract S G)

/-- The program meets the contract from the state `g` on, and ends in a state and with a result of
    `post`. -/
def Meets (post : G → α → Prop) : G → Async S α → Prop
  | g, .done a => post g a
  | g, .panicked why => C.panics g why
  | g, .perform o resume =>
    C.allows g o ∧ ∀ r, C.answers g o r → Meets post (C.next g o r) (resume r)

section

variable {C} {post mid : G → α → Prop} {post' : G → β → Prop} {g : G}

theorem Meets.mono {x : Async S α} (h : Meets C mid g x) (hmid : ∀ g a, mid g a → post g a) :
    Meets C post g x := by
  induction x generalizing g with
  | done a => exact hmid g a h
  | panicked why => exact h
  | perform o resume ih => exact ⟨h.1, fun r hr => ih r (h.2 r hr)⟩

/-- A composed program meets the contract if its parts do, one behind the other. -/
theorem meets_bind {x : Async S α} {f : α → Async S β} (hx : Meets C mid g x)
    (hf : ∀ g a, mid g a → Meets C post' g (f a)) : Meets C post' g (x >>= f) := by
  change Meets C post' g (x.bind f)
  induction x generalizing g with
  | done a => exact hf g a hx
  | panicked why => exact hx
  | perform o resume ih => exact ⟨hx.1, fun r hr => ih r (hx.2 r hr)⟩

/-- A synchronous part stays in its state, and may panic only as the state says. -/
theorem meets_lift_bind {x : Panicking α} {f : α → Async S β}
    (hf : ∀ a, x = .ok a → Meets C post' g (f a)) (hx : ∀ why, x = .error why → C.panics g why) :
    Meets C post' g (liftM x >>= f) := by
  cases x with
  | ok a => exact hf a rfl
  | error why => exact hx why rfl

/-- A synchronous part that returns. -/
theorem meets_ok_bind {x : Panicking α} {a : α} {f : α → Async S β} (hx : x = .ok a)
    (hf : Meets C post' g (f a)) : Meets C post' g (liftM x >>= f) := by
  subst hx
  exact hf

theorem meets_tryThen {x : Async S (Except ε Unit)} {y : Async S (Except ε α)}
    {mid : G → Except ε Unit → Prop} {post : G → Except ε α → Prop} (hx : Meets C mid g x)
    (herror : ∀ g e, mid g (.error e) → post g (.error e))
    (hok : ∀ g, mid g (.ok ()) → Meets C post g y) : Meets C post g (tryThen x y) := by
  refine meets_bind hx ?_
  intro g r hr
  cases r with
  | error e => exact herror g e hr
  | ok u => exact hok g hr

end

/-! ## Contracts from runs -/

section Runs

variable {W V G' : Type}

/-- The run ends with a result of `post` or a panic of `panics`, if it ends. -/
def Outcome.Ends (post : α → Prop) (panics : Panic → Prop) : Outcome W α → Prop
  | .returned a _ => post a
  | .panicked why _ => panics why
  | .pending _ => True

/-- The handler can give every answer to the operation and then be left with every view. -/
def CanAnswer (h : Handler S W) (view : W → V) (o : S.Op) : Prop :=
  ∀ r v, ∃ v₀, ∀ w, view w = v₀ → ∃ w', h o w = some (r, w') ∧ view w' = v

variable {C} (h : Handler S W) (view : W → V) {P : Protocol S G'} {mid : G' → α → Prop} {g' : G'}
  {post : G → α → Prop} {g : G}

/-- How the runs of a program end on a handler that can give every answer, it ends in every
    environment. -/
theorem meets_of_exec {x : Async S α} (hfollows : Follows P mid g' x)
    (hops : ∀ g' o, P.allows g' o →
      CanAnswer h view o ∧ C.allows g o ∧ ∀ r, P.answers o r ∧ C.next g o r = g)
    (hexec : ∀ v, ∃ w, view w = v ∧ (exec h x w).Ends (post g) (C.panics g)) (v : V) :
    Meets C post g x := by
  induction x generalizing g' v with
  | done a =>
    obtain ⟨w, -, hends⟩ := hexec v
    exact hends
  | panicked why =>
    obtain ⟨w, -, hends⟩ := hexec v
    exact hends
  | perform o resume ih =>
    obtain ⟨hallows, hresume⟩ := hfollows
    obtain ⟨hanswer, hC, hnext⟩ := hops g' o hallows
    refine ⟨hC, fun r _ => ?_⟩
    rw [(hnext r).2]
    refine ih r (hresume r (hnext r).1) ?_ v
    -- the answer is put in front of what the handler answers next
    intro v
    obtain ⟨v₀, hv₀⟩ := hanswer r v
    obtain ⟨w, hw, hends⟩ := hexec v₀
    obtain ⟨w', hreply, hview⟩ := hv₀ w hw
    refine ⟨w', hview, ?_⟩
    simp only [exec, hreply] at hends
    exact hends

end Runs

end Async

end EmbassyKnx
