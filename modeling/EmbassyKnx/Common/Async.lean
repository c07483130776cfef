import EmbassyKnx.Common.Rust

/-!
# Asynchronous computations

An `async fn` as an interaction program: it returns, panics, or performs an
operation of its environment and resumes with the operation's result. A
`Handler` plays the environment on a world `W`; an operation it does not answer
stays pending for ever. Dropping a future at an await point leaves the world as
the future left it there: `Suspends` relates a program and a starting world to
the operations it can be dropped at and the worlds at those moments.

* `exec_bind`, `suspends_bind`: both semantics are compositional.
* `dropsAt_bind_left`, `dropsAt_bind_right`: parts that do not wait are not where a
  future is dropped.
-/

namespace EmbassyKnx

open Rust

/-- The operations a program may perform and the type of each one's result. -/
structure Signature where
  Op : Type
  Ret : Op → Type

/-- An asynchronous computation over the operations of `S`. -/
inductive Async (S : Signature) (α : Type) : Type
  | done (a : α)
  | panicked (why : Panic)
  | perform (op : S.Op) (resume : S.Ret op → Async S α)

namespace Async

variable {S : Signature} {α β γ W : Type}

/-- `x.await` followed by `f`. -/
def bind : Async S α → (α → Async S β) → Async S β
  | .done a, f => f a
  | .panicked why, _ => .panicked why
  | .perform op resume, f => .perform op fun r => (resume r).bind f

/-- A synchronous computation. -/
def lift : Panicking α → Async S α
  | .ok a => .done a
  | .error why => .panicked why

/-- Perform one operation. -/
def op (o : S.Op) : Async S (S.Ret o) := .perform o .done

instance : Monad (Async S) where
  pure := .done
  bind := bind

instance : MonadLift Panicking (Async S) := ⟨lift⟩

theorem bind_done (x : Async S α) : x.bind .done = x := by
  induction x with
  | done a => rfl
  | panicked why => rfl
  | perform o resume ih => simp only [bind, ih]

theorem bind_assoc (x : Async S α) (f : α → Async S β) (g : β → Async S γ) :
    (x.bind f).bind g = x.bind fun a => (f a).bind g := by
  induction x with
  | done a => rfl
  | panicked why => rfl
  | perform o resume ih => simp only [bind, ih]

instance : LawfulMonad (Async S) :=
  LawfulMonad.mk' (Async S) bind_done (fun _ _ => rfl) bind_assoc

theorem lift_ok_bind (a : α) (f : α → Async S β) :
    (liftM (Except.ok a : Panicking α) : Async S α) >>= f = f a := rfl

/-- `x.await?;` followed by `y`. -/
def tryThen {ε : Type} (x : Async S (Except ε Unit)) (y : Async S (Except ε α)) :
    Async S (Except ε α) := do
  match ← x with
  | .error e => return .error e
  | .ok () => y

/-- `for i in lo..lo + n { body(i)?; }`. -/
def forRange {ε : Type} (body : ℕ → Async S (Except ε Unit)) : (lo n : ℕ) → Async S (Except ε Unit)
  | _, 0 => pure (.ok ())
  | lo, n + 1 => tryThen (body lo) (forRange body (lo + 1) n)

/-! ## Running to completion -/

/-- The environment: what an operation returns in a world and the world after it;
    `none` if it stays pending. -/
abbrev Handler (S : Signature) (W : Type) : Type := (o : S.Op) → W → Option (S.Ret o × W)

/-- How a run ends. -/
inductive Outcome (W α : Type) : Type
  | returned (a : α) (w : W)
  | panicked (why : Panic) (w : W)
  | pending (w : W)

namespace Outcome

/-- The world in which a run ends. -/
def world : Outcome W α → W
  | .returned _ w => w
  | .panicked _ w => w
  | .pending w => w

/-- Continue a run that has returned. -/
def andThen : Outcome W α → (α → W → Outcome W β) → Outcome W β
  | .returned a w, f => f a w
  | .panicked why w, _ => .panicked why w
  | .pending w, _ => .pending w

/-- The outcome of a single operation performed in `w`. -/
def ofReply (w : W) : Option (α × W) → Outcome W α
  | some (r, w') => .returned r w'
  | none => .pending w

@[simp] theorem ofReply_some (w w' : W) (r : α) : ofReply w (some (r, w')) = .returned r w' := rfl

@[simp] theorem ofReply_none (w : W) : ofReply w (none : Option (α × W)) = .pending w := rfl

@[simp] theorem andThen_returned (a : α) (w : W) (f : α → W → Outcome W β) :
    (Outcome.returned a w).andThen f = f a w := rfl

@[simp] theorem andThen_panicked (why : Panic) (w : W) (f : α → W → Outcome W β) :
    (Outcome.panicked why w).andThen f = .panicked why w := rfl

@[simp] theorem andThen_pending (w : W) (f : α → W → Outcome W β) :
    (Outcome.pending w).andThen f = .pending w := rfl

/-- The run ended in a panic. -/
def IsPanic : Outcome W α → Prop
  | .panicked _ _ => True
  | _ => False

@[simp] theorem isPanic_returned (a : α) (w : W) : ¬(Outcome.returned a w).IsPanic := id

@[simp] theorem isPanic_panicked (why : Panic) (w : W) :
    (Outcome.panicked why w : Outcome W α).IsPanic := trivial

@[simp] theorem isPanic_pending (w : W) : ¬(Outcome.pending w : Outcome W α).IsPanic := id

/-- A panic ends the whole run. -/
theorem IsPanic.andThen {o : Outcome W α} (h : o.IsPanic) (f : α → W → Outcome W β) :
    (o.andThen f).IsPanic := by
  cases o with
  | returned a w => exact absurd h id
  | panicked why w => exact trivial
  | pending w => exact absurd h id

instance (o : Outcome W α) : Decidable o.IsPanic :=
  match o with
  | .returned _ _ => isFalse id
  | .panicked _ _ => isTrue trivial
  | .pending _ => isFalse id

end Outcome

/-- Run a program from a world until it returns, panics or stays pending. -/
def exec (h : Handler S W) : Async S α → W → Outcome W α
  | .done a, w => .returned a w
  | .panicked why, w => .panicked why w
  | .perform o resume, w =>
    match h o w with
    | some (r, w') => exec h (resume r) w'
    | none => .pending w

section Exec

variable (h : Handler S W)

@[simp] theorem exec_pure (a : α) (w : W) : exec h (pure a : Async S α) w = .returned a w := rfl

@[simp] theorem exec_bind (x : Async S α) (f : α → Async S β) (w : W) :
    exec h (x >>= f) w = (exec h x w).andThen fun a w' => exec h (f a) w' := by
  change exec h (x.bind f) w = _
  induction x generalizing w with
  | done a => rfl
  | panicked why => rfl
  | perform o resume ih =>
    simp only [bind, exec]
    cases h o w with
    | none => rfl
    | some rw' => exact ih rw'.1 rw'.2

theorem exec_op (o : S.Op) (w : W) : exec h (op o) w = .ofReply w (h o w) := by
  simp only [op, exec]
  cases h o w <;> rfl

@[simp] theorem exec_lift_ok (a : α) (w : W) :
    exec h (liftM (Except.ok a : Panicking α) : Async S α) w = .returned a w := rfl

@[simp] theorem exec_lift_error (why : Panic) (w : W) :
    exec h (liftM (Except.error why : Panicking α) : Async S α) w = .panicked why w := rfl

@[simp] theorem exec_panicked (why : Panic) (w : W) :
    exec h (.panicked why : Async S α) w = .panicked why w := rfl

/-! ### Invariants of the world -/

section Invariant

variable {I : W → Prop} {ε : Type}

/-- What holds of the world where a first part ends, and is kept by the second, holds where
    the composition ends. -/
theorem world_exec_bind {x : Async S α} {f : α → Async S β} {w : W} (hx : I (exec h x w).world)
    (hf : ∀ a w', I w' → I (exec h (f a) w').world) : I (exec h (x >>= f) w).world := by
  rw [exec_bind]
  cases hrun : exec h x w with
  | returned a w' => rw [hrun] at hx; exact hf a w' hx
  | panicked why w' => rw [hrun] at hx; exact hx
  | pending w' => rw [hrun] at hx; exact hx

theorem world_exec_tryThen {x : Async S (Except ε Unit)} {y : Async S (Except ε α)} {w : W}
    (hx : I (exec h x w).world) (hy : ∀ w', I w' → I (exec h y w').world) :
    I (exec h (tryThen x y) w).world := by
  refine world_exec_bind h hx ?_
  intro r w' hw'
  cases r with
  | error e => exact hw'
  | ok u => exact hy w' hw'

theorem world_exec_forRange {body : ℕ → Async S (Except ε Unit)}
    (hbody : ∀ i w, I w → I (exec h (body i) w).world) (lo n : ℕ) {w : W} (hw : I w) :
    I (exec h (forRange body lo n) w).world := by
  induction n generalizing lo w with
  | zero => exact hw
  | succ n ih => exact world_exec_tryThen h (hbody lo w hw) fun w' hw' => ih (lo + 1) hw'

end Invariant

end Exec

/-! ## Dropping a future -/

/-- Run from `w`, the program reaches operation `o` in the world `w'`: if it is
    dropped while it waits for `o`, the world it leaves is `w'`. -/
inductive Suspends (h : Handler S W) : Async S α → W → S.Op → W → Prop
  | here {o : S.Op} {resume : S.Ret o → Async S α} {w : W} :
      Suspends h (.perform o resume) w o w
  | later {o o' : S.Op} {resume : S.Ret o → Async S α} {w w₁ w' : W} {r : S.Ret o} :
      h o w = some (r, w₁) → Suspends h (resume r) w₁ o' w' → Suspends h (.perform o resume) w o' w'

section Suspends

variable {h : Handler S W}

@[simp] theorem not_suspends_pure {a : α} {w w' : W} {o : S.Op} :
    ¬Suspends h (pure a : Async S α) w o w' := by
  intro hs
  cases hs

@[simp] theorem not_suspends_panicked {why : Panic} {w w' : W} {o : S.Op} :
    ¬Suspends h (.panicked why : Async S α) w o w' := by
  intro hs
  cases hs

@[simp] theorem not_suspends_lift {x : Panicking α} {w w' : W} {o : S.Op} :
    ¬Suspends h (liftM x : Async S α) w o w' := by
  cases x with
  | ok a => exact not_suspends_pure
  | error why => exact not_suspends_panicked

theorem suspends_perform {o o' : S.Op} {resume : S.Ret o → Async S α} {w w' : W} :
    Suspends h (.perform o resume) w o' w' ↔
      (o' = o ∧ w' = w) ∨ ∃ r w₁, h o w = some (r, w₁) ∧ Suspends h (resume r) w₁ o' w' := by
  constructor
  · intro hs
    cases hs with
    | here => exact .inl ⟨rfl, rfl⟩
    | later hr hs => exact .inr ⟨_, _, hr, hs⟩
  · rintro (⟨rfl, rfl⟩ | ⟨r, w₁, hr, hs⟩)
    · exact .here
    · exact .later hr hs

/-- A composed future is dropped in its first part, or in its second part after the
    first part has returned. -/
@[simp] theorem suspends_bind {x : Async S α} {f : α → Async S β} {w w' : W} {o : S.Op} :
    Suspends h (x >>= f) w o w' ↔
      Suspends h x w o w' ∨ ∃ a w₁, exec h x w = .returned a w₁ ∧ Suspends h (f a) w₁ o w' := by
  change Suspends h (x.bind f) w o w' ↔ _
  induction x generalizing w with
  | done a =>
    constructor
    · intro hs
      exact .inr ⟨a, w, rfl, hs⟩
    · rintro (hs | ⟨a', w₁, he, hs⟩)
      · cases hs
      · cases he
        exact hs
  | panicked why =>
    constructor
    · intro hs
      cases hs
    · rintro (hs | ⟨a', w₁, he, -⟩)
      · simp at hs
      · simp at he
  | perform o' resume ih =>
    simp only [bind, suspends_perform, exec]
    cases hr : h o' w with
    | none => simp
    | some rw' =>
      obtain ⟨r, w₁⟩ := rw'
      have hone : ∀ P : S.Ret o' → W → Prop,
          (∃ r' w₂, some (r, w₁) = some (r', w₂) ∧ P r' w₂) ↔ P r w₁ := by
        intro P
        constructor
        · rintro ⟨r', w₂, he, hp⟩
          cases he
          exact hp
        · intro hp
          exact ⟨r, w₁, rfl, hp⟩
      simp only [hone, ih, or_assoc]

end Suspends

/-! ### Operations that wait -/

/-- A future is dropped at an operation that waits: one of `waits`. -/
def DropsAt (h : Handler S W) (waits : S.Op → Prop) (x : Async S α) (w : W) (o : S.Op) (w' : W) :
    Prop :=
  Suspends h x w o w' ∧ waits o

/-- The program performs no operation that waits. -/
def NeverWaits (h : Handler S W) (waits : S.Op → Prop) (x : Async S α) : Prop :=
  ∀ w o w', ¬DropsAt h waits x w o w'

section DropsAt

variable {h : Handler S W} {waits : S.Op → Prop} {w w' : W} {o : S.Op}

theorem dropsAt_bind {x : Async S α} {f : α → Async S β} :
    DropsAt h waits (x >>= f) w o w' ↔ DropsAt h waits x w o w' ∨
      ∃ a w₁, exec h x w = .returned a w₁ ∧ DropsAt h waits (f a) w₁ o w' := by
  unfold DropsAt
  rw [suspends_bind]
  constructor
  · rintro ⟨hs | ⟨a, w₁, hrun, hs⟩, hwaits⟩
    · exact .inl ⟨hs, hwaits⟩
    · exact .inr ⟨a, w₁, hrun, hs, hwaits⟩
  · rintro (⟨hs, hwaits⟩ | ⟨a, w₁, hrun, hs, hwaits⟩)
    · exact ⟨.inl hs, hwaits⟩
    · exact ⟨.inr ⟨a, w₁, hrun, hs⟩, hwaits⟩

theorem dropsAt_perform {resume : S.Ret o → Async S α} {o' : S.Op} :
    DropsAt h waits (.perform o resume) w o' w' ↔ (o' = o ∧ w' = w ∧ waits o) ∨
      ∃ r w₁, h o w = some (r, w₁) ∧ DropsAt h waits (resume r) w₁ o' w' := by
  unfold DropsAt
  rw [suspends_perform]
  constructor
  · rintro ⟨⟨rfl, rfl⟩ | ⟨r, w₁, hr, hs⟩, hwaits⟩
    · exact .inl ⟨rfl, rfl, hwaits⟩
    · exact .inr ⟨r, w₁, hr, hs, hwaits⟩
  · rintro (⟨rfl, rfl, hwaits⟩ | ⟨r, w₁, hr, hs, hwaits⟩)
    · exact ⟨.inl ⟨rfl, rfl⟩, hwaits⟩
    · exact ⟨.inr ⟨r, w₁, hr, hs⟩, hwaits⟩

theorem neverWaits_pure (a : α) : NeverWaits h waits (pure a : Async S α) := by
  intro w o w' hd
  exact not_suspends_pure hd.1

theorem neverWaits_lift (x : Panicking α) : NeverWaits h waits (liftM x : Async S α) := by
  intro w o w' hd
  exact not_suspends_lift hd.1

theorem neverWaits_perform {resume : S.Ret o → Async S α} (ho : ¬waits o)
    (hresume : ∀ r, NeverWaits h waits (resume r)) : NeverWaits h waits (.perform o resume) := by
  intro w o' w' hd
  rcases dropsAt_perform.mp hd with ⟨-, -, hwaits⟩ | ⟨r, w₁, -, hd⟩
  · exact ho hwaits
  · exact hresume r _ _ _ hd

theorem neverWaits_bind {x : Async S α} {f : α → Async S β} (hx : NeverWaits h waits x)
    (hf : ∀ a, NeverWaits h waits (f a)) : NeverWaits h waits (x >>= f) := by
  intro w o w' hd
  rcases dropsAt_bind.mp hd with hd | ⟨a, w₁, -, hd⟩
  · exact hx _ _ _ hd
  · exact hf a _ _ _ hd

/-- Behind a part that does not wait, a future is dropped in the rest only. -/
theorem dropsAt_bind_right {x : Async S α} {f : α → Async S β} (hx : NeverWaits h waits x) {a : α}
    {w₁ : W} (hrun : exec h x w = .returned a w₁) :
    DropsAt h waits (x >>= f) w o w' ↔ DropsAt h waits (f a) w₁ o w' := by
  rw [dropsAt_bind, or_iff_right (hx w o w')]
  constructor
  · rintro ⟨a', w₂, hrun', hd⟩
    rw [hrun] at hrun'
    cases hrun'
    exact hd
  · intro hd
    exact ⟨a, w₁, hrun, hd⟩

/-- In front of a part that does not wait, a future is dropped in the first part only. -/
theorem dropsAt_bind_left {x : Async S α} {f : α → Async S β} (hf : ∀ a, NeverWaits h waits (f a)) :
    DropsAt h waits (x >>= f) w o w' ↔ DropsAt h waits x w o w' := by
  rw [dropsAt_bind, or_iff_left]
  rintro ⟨a, w₁, -, hd⟩
  exact hf a _ _ _ hd

end DropsAt

end Async

end EmbassyKnx
