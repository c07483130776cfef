import Mathlib.Data.List.Basic
import Mathlib.Tactic.Common

/-!
# Panicking Rust computations

Safe Rust code either returns or panics. `Panicking α` is a computation of that
kind, with the panics that indexing, slicing, arithmetic and `RefCell` can
raise. Integer arithmetic depends on the Cargo profile: the `dev` profile
traps when a result leaves its type, the `release` profile wraps.

* `index_eq`, `slice_eq`: indexing and slicing return exactly when they are in
  bounds.
* `u8Add_of_lt`, `u8Sub_of_le`: in-range `u8` arithmetic never panics, on
  either profile.
-/

namespace EmbassyKnx.Rust

/-- The two Cargo profiles, as far as arithmetic goes: `dev` has
    `overflow-checks`, `release` has not. -/
inductive Profile
  | dev
  | release
  deriving DecidableEq, Repr

/-- The panics of safe Rust code. -/
inductive Panic
  /-- `a[i]` or `a[i..j]` outside `a`. -/
  | indexOutOfBounds
  /-- An arithmetic result outside its integer type (`overflow-checks`). -/
  | arithmeticOverflow
  /-- `RefCell::borrow_mut` while another borrow is alive. -/
  | alreadyBorrowed
  /-- `clone_from_slice` on slices of different lengths. -/
  | sliceLengthMismatch
  /-- `panic!`, `unwrap!` on `None` and similar explicit panics. -/
  | explicit
  deriving DecidableEq, Repr

/-- A computation that returns a value or panics. -/
abbrev Panicking (α : Type) := Except Panic α

section Panicking

variable {α β : Type} (f : α → Panicking β)

@[simp] theorem ok_bind (a : α) : ((.ok a : Panicking α) >>= f) = f a := rfl

@[simp] theorem error_bind (why : Panic) : ((.error why : Panicking α) >>= f) = .error why := rfl

/-- A composition returns when both parts do. -/
theorem bind_eq_ok_iff {x : Panicking α} {b : β} :
    x >>= f = .ok b ↔ ∃ a, x = .ok a ∧ f a = .ok b := by
  cases x with
  | ok a =>
    constructor
    · intro h
      exact ⟨a, rfl, h⟩
    · rintro ⟨_, hx, h⟩
      cases hx
      exact h
  | error why => exact iff_of_false nofun nofun

end Panicking

/-! ## Slices -/

section Slices

variable {α : Type}

/-- `a[i]`. -/
def index (a : List α) (i : ℕ) : Panicking α :=
  match a[i]? with
  | some x => .ok x
  | none => .error .indexOutOfBounds

/-- `&a[lo..hi]`. -/
def slice (a : List α) (lo hi : ℕ) : Panicking (List α) :=
  if lo ≤ hi ∧ hi ≤ a.length then .ok ((a.take hi).drop lo) else .error .indexOutOfBounds

/-- `&a[lo..]`. -/
def sliceFrom (a : List α) (lo : ℕ) : Panicking (List α) := slice a lo a.length

theorem index_eq {a : List α} {i : ℕ} (h : i < a.length) : index a i = .ok a[i] := by
  simp [index, h]

theorem index_of_getElem? {a : List α} {i : ℕ} {x : α} (h : a[i]? = some x) :
    index a i = .ok x := by
  simp [index, h]

@[simp] theorem index_cons_zero (x : α) (a : List α) : index (x :: a) 0 = .ok x := rfl

@[simp] theorem index_cons_succ (x : α) (a : List α) (i : ℕ) :
    index (x :: a) (i + 1) = index a i := rfl

theorem slice_eq {a : List α} {lo hi : ℕ} (h : lo ≤ hi) (h' : hi ≤ a.length) :
    slice a lo hi = .ok ((a.take hi).drop lo) := by
  simp [slice, h, h']

theorem sliceFrom_eq {a : List α} {lo : ℕ} (h : lo ≤ a.length) :
    sliceFrom a lo = .ok (a.drop lo) := by
  simp [sliceFrom, slice_eq h (Nat.le_refl _)]

/-- The first two elements of a tail slice are elements of the slice. -/
theorem drop_eq_cons_cons {a : List α} {lo : ℕ} (h : lo + 1 < a.length) :
    ∃ rest, a.drop lo = a[lo] :: a[lo + 1] :: rest :=
  ⟨a.drop (lo + 2), by rw [List.drop_eq_getElem_cons (by omega), List.drop_eq_getElem_cons h]⟩

end Slices

/-! ## `u8` arithmetic -/

/-- What an arithmetic operation does whose exact result does not fit: the
    `dev` profile panics, the `release` profile keeps the wrapped result. -/
def outOfRange (p : Profile) (wrapped : UInt8) : Panicking UInt8 :=
  match p with
  | .dev => .error .arithmeticOverflow
  | .release => .ok wrapped

/-- `a + b` on `u8`. -/
def u8Add (p : Profile) (a b : UInt8) : Panicking UInt8 :=
  if a.toNat + b.toNat < 256 then .ok (a + b) else outOfRange p (a + b)

/-- `a - b` on `u8`. -/
def u8Sub (p : Profile) (a b : UInt8) : Panicking UInt8 :=
  if b ≤ a then .ok (a - b) else outOfRange p (a - b)

theorem u8Add_of_lt (p : Profile) {a b : UInt8} (h : a.toNat + b.toNat < 256) :
    u8Add p a b = .ok (a + b) := by
  simp [u8Add, h]

/-- Whatever the profile, a sum that is returned is the wrapped one. -/
theorem u8Add_ok {p : Profile} {a b x : UInt8} (h : u8Add p a b = .ok x) : x = a + b := by
  unfold u8Add at h
  split_ifs at h with hlt
  · exact (Except.ok.inj h).symm
  · cases p with
    | dev => exact nomatch h
    | release => exact (Except.ok.inj h).symm

theorem u8Sub_ok {p : Profile} {a b x : UInt8} (h : u8Sub p a b = .ok x) : x = a - b := by
  unfold u8Sub at h
  split_ifs at h with hle
  · exact (Except.ok.inj h).symm
  · cases p with
    | dev => simp [outOfRange] at h
    | release => exact (Except.ok.inj h).symm

theorem u8Sub_of_le (p : Profile) {a b : UInt8} (h : b ≤ a) : u8Sub p a b = .ok (a - b) := by
  simp [u8Sub, h]

/-! ### Overflow checks -/

/-- The computation panics on an overflow only, and only where overflow is checked. -/
def OverflowsOnly {α : Type} (p : Profile) (x : Panicking α) : Prop :=
  ∀ why, x = .error why → p = .dev ∧ why = .arithmeticOverflow

section OverflowsOnly

variable {α β : Type} {p : Profile}

theorem overflowsOnly_ok (a : α) : OverflowsOnly p (.ok a) := by
  intro why h
  simp at h

theorem overflowsOnly_bind {x : Panicking α} {f : α → Panicking β} (hx : OverflowsOnly p x)
    (hf : ∀ a, OverflowsOnly p (f a)) : OverflowsOnly p (x >>= f) := by
  cases x with
  | ok a => exact hf a
  | error why =>
    intro why' h
    cases h
    exact hx why rfl

theorem overflowsOnly_outOfRange (x : UInt8) : OverflowsOnly p (outOfRange p x) := by
  intro why h
  cases p with
  | dev => exact ⟨rfl, (Except.error.inj h).symm⟩
  | release => simp [outOfRange] at h

theorem overflowsOnly_u8Add (a b : UInt8) : OverflowsOnly p (u8Add p a b) := by
  unfold u8Add
  split_ifs
  · exact overflowsOnly_ok _
  · exact overflowsOnly_outOfRange _

theorem overflowsOnly_u8Sub (a b : UInt8) : OverflowsOnly p (u8Sub p a b) := by
  unfold u8Sub
  split_ifs
  · exact overflowsOnly_ok _
  · exact overflowsOnly_outOfRange _

end OverflowsOnly

end EmbassyKnx.Rust
