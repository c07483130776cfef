import EmbassyKnx.Common.Async

/-!
# Protocols of asynchronous computations

A protocol is an automaton over the operations of a program: what may be performed
in each of its states, and where an answer takes it. A program follows a protocol if
each of its operations is allowed, whatever the environment answers. A task that is
interrupted at an await point still follows the protocol from the state it is in, so
that an invariant over all interleavings can be stated about the states of the
protocols alone.

* `follows_bind`, `follows_tryThen`, `follows_forRange`: programs are checked part by part.
-/

namespace EmbassyKnx

open Rust

/-- An automaton over the operations of `S`: what is allowed in a state, which answers are
    relied on, and the state behind an answer. -/
structure Protocol (S : Signature) (G : Type) where
  allows : G → S.Op → Prop
  answers : (o : S.Op) → S.Ret o → Prop
  next : G → (o : S.Op) → S.Ret o → G

namespace Async

variable {S : Signature} {G α β ε : Type} (P : Protocol S G)

/-- The program follows the protocol from the state `g` on, and ends in a state and with a
    result of `post`. It may panic. -/
def Follows (post : G → α → Prop) : G → Async S α → Prop
  | g, .done a => post g a
  | _, .panicked _ => True
  | g, .perform o resume =>
    P.allows g o ∧ ∀ r, P.answers o r → Follows post (P.next g o r) (resume r)

section

variable {P} {post mid : G → α → Prop} {post' : G → β → Prop} {g : G}

theorem Follows.mono {x : Async S α} (h : Follows P mid g x) (hmid : ∀ g a, mid g a → post g a) :
    Follows P post g x := by
  induction x generalizing g with
  | done a => exact hmid g a h
  | panicked why => trivial
  | perform o resume ih => exact ⟨h.1, fun r hr => ih r (h.2 r hr)⟩

/-- A composed program follows the protocol if its parts do, one behind the other. -/
theorem follows_bind {x : Async S α} {f : α → Async S β} (hx : Follows P mid g x)
    (hf : ∀ g a, mid g a → Follows P post' g (f a)) : Follows P post' g (x >>= f) := by
  change Follows P post' g (x.bind f)
  induction x generalizing g with
  | done a => exact hf g a hx
  | panicked why => trivial
  | perform o resume ih => exact ⟨hx.1, fun r hr => ih r (hx.2 r hr)⟩

/-- A synchronous part stays in its state. -/
theorem follows_lift_bind {x : Panicking α} {f : α → Async S β}
    (hf : ∀ a, x = .ok a → Follows P post' g (f a)) : Follows P post' g (liftM x >>= f) := by
  cases x with
  | ok a => exact hf a rfl
  | error why => trivial

theorem follows_tryThen {x : Async S (Except ε Unit)} {y : Async S (Except ε α)}
    {mid : G → Except ε Unit → Prop} {post : G → Except ε α → Prop} (hx : Follows P mid g x)
    (herror : ∀ g e, mid g (.error e) → post g (.error e))
    (hok : ∀ g, mid g (.ok ()) → Follows P post g y) : Follows P post g (tryThen x y) := by
  refine follows_bind hx ?_
  intro g r hr
  cases r with
  | error e => exact herror g e hr
  | ok u => exact hok g hr

/-- A loop whose body returns to the states of `I`. -/
theorem follows_forRange {body : ℕ → Async S (Except ε Unit)} {I : G → Prop}
    (hbody : ∀ i g, I g → Follows P (fun g _ => I g) g (body i)) (lo n : ℕ) (hg : I g) :
    Follows P (fun g _ => I g) g (forRange body lo n) := by
  induction n generalizing lo g with
  | zero => exact hg
  | succ n ih => exact follows_tryThen (hbody lo g hg) (fun g e h => h) fun g h => ih (lo + 1) h

end

end Async

end EmbassyKnx
