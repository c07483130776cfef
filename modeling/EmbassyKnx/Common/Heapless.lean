import EmbassyKnx.Common.Rust

/-!
# `heapless::Vec`

A vector of at most `cap` elements, kept in place. The bound is a field of the
type, so every buffer of the development satisfies it by construction.

* `resizeDefault_eq_some_iff`: `resize_default` succeeds exactly up to the capacity.
* `toList_overwrite`: writing a slice replaces exactly the octets under it.
-/

namespace EmbassyKnx.Heapless

open Rust

/-- `heapless::Vec<α, cap>`. -/
@[ext] structure Vec (α : Type) (cap : ℕ) where
  toList : List α
  length_le : toList.length ≤ cap
  deriving DecidableEq, Repr

/-- `dst[lo..].copy_from_slice(src)`, element by element; elements past the end
    of `dst` are dropped. -/
def blit {α : Type} (dst : List α) (lo : ℕ) : List α → List α
  | [] => dst
  | x :: src => blit (dst.set lo x) (lo + 1) src

section Blit

variable {α : Type}

@[simp] theorem length_blit (src dst : List α) (lo : ℕ) : (blit dst lo src).length = dst.length := by
  induction src generalizing dst lo with
  | nil => rfl
  | cons x src ih => rw [blit, ih, List.length_set]

theorem blit_eq {src dst : List α} {lo : ℕ} (h : lo + src.length ≤ dst.length) :
    blit dst lo src = dst.take lo ++ src ++ dst.drop (lo + src.length) := by
  induction src generalizing dst lo with
  | nil => simp [blit]
  | cons x src ih =>
    simp only [List.length_cons] at h
    rw [blit, ih (by rw [List.length_set]; omega), List.drop_set_of_lt (by omega),
      List.take_succ_eq_append_getElem (by rw [List.length_set]; omega), List.getElem_set_self,
      List.take_set_of_le (Nat.le_refl lo)]
    simp only [List.length_cons, List.append_assoc, List.cons_append, List.nil_append]
    rw [show lo + 1 + src.length = lo + (src.length + 1) by omega]

end Blit

namespace Vec

variable {α : Type} {cap : ℕ}

/-- `Vec::new()`. -/
def empty : Vec α cap := ⟨[], Nat.zero_le _⟩

@[simp] theorem toList_empty : (empty : Vec α cap).toList = [] := rfl

/-- `vec.resize_default(n)`; `none` is `Err(())`. -/
def resizeDefault [Inhabited α] (v : Vec α cap) (n : ℕ) : Option (Vec α cap) :=
  if h : n ≤ cap then
    some ⟨v.toList.take n ++ List.replicate (n - v.toList.length) default, by simp; omega⟩
  else none

theorem resizeDefault_eq_some_iff [Inhabited α] {v w : Vec α cap} {n : ℕ} :
    v.resizeDefault n = some w ↔
      n ≤ cap ∧ w.toList = v.toList.take n ++ List.replicate (n - v.toList.length) default := by
  unfold resizeDefault
  split_ifs with h
  · rw [Option.some.injEq, Vec.ext_iff, eq_comm]; simp [h]
  · simp [h]

theorem resizeDefault_of_le [Inhabited α] (v : Vec α cap) {n : ℕ} (h : n ≤ cap) :
    ∃ w, v.resizeDefault n = some w ∧
      w.toList = v.toList.take n ++ List.replicate (n - v.toList.length) default :=
  ⟨⟨_, by simp; omega⟩, resizeDefault_eq_some_iff.mpr ⟨h, rfl⟩, rfl⟩

/-- `vec[i] = f(vec[i])`, panicking outside the vector. -/
def modifyAt (v : Vec α cap) (i : ℕ) (f : α → α) : Panicking (Vec α cap) :=
  if i < v.toList.length then
    .ok ⟨v.toList.modify i f, by simpa using v.length_le⟩
  else .error .indexOutOfBounds

/-- `vec[i] = x`, panicking outside the vector. -/
def setAt (v : Vec α cap) (i : ℕ) (x : α) : Panicking (Vec α cap) := v.modifyAt i fun _ => x

/-- Write `src` into the elements from `lo` on. -/
def overwrite (v : Vec α cap) (lo : ℕ) (src : List α) : Vec α cap :=
  ⟨blit v.toList lo src, by simpa using v.length_le⟩

@[simp] theorem toList_overwrite (v : Vec α cap) (lo : ℕ) (src : List α) :
    (v.overwrite lo src).toList = blit v.toList lo src := rfl

/-- `write(&mut vec[lo..hi])`; `write` returns what it leaves in the slice. -/
def writeSlice (v : Vec α cap) (lo hi : ℕ) (write : List α → Panicking (List α)) :
    Panicking (Vec α cap) := do
  return v.overwrite lo (← write (← slice v.toList lo hi))

/-- `vec.clone_from_slice(src)`. -/
def cloneFromSlice (v : Vec α cap) (src : List α) : Panicking (Vec α cap) :=
  if src.length = v.toList.length then .ok (v.overwrite 0 src) else .error .sliceLengthMismatch

theorem modifyAt_of_lt {v : Vec α cap} {i : ℕ} (h : i < v.toList.length) (f : α → α) :
    ∃ w, v.modifyAt i f = .ok w ∧ w.toList = v.toList.modify i f :=
  ⟨_, if_pos h, rfl⟩

theorem toList_of_modifyAt {v w : Vec α cap} {i : ℕ} {f : α → α} (h : v.modifyAt i f = .ok w) :
    w.toList = v.toList.modify i f := by
  unfold modifyAt at h
  split_ifs at h
  cases h
  rfl

theorem modifyAt_append {v : Vec α cap} {front back : List α} {x : α} (h : v.toList = front ++ x :: back)
    (f : α → α) : ∃ w, v.modifyAt front.length f = .ok w ∧ w.toList = front ++ f x :: back := by
  have hlt : front.length < v.toList.length := by simp [h]
  obtain ⟨w, hw, hl⟩ := modifyAt_of_lt hlt f
  refine ⟨w, hw, ?_⟩
  rw [hl, List.modify_eq_take_cons_drop hlt]
  simp [h]

end Vec

end EmbassyKnx.Heapless
