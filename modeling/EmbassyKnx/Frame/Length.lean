import EmbassyKnx.Frame.Header

/-!
# `length()` and `set_length()`

A frame records its length twice: as the length of its block and, less a constant, in the
octet `LG_FIELD`. `length()` reads the octet. `set_length` writes it and then resizes the
block, and neither of its two bounds excludes anything, since a length that violates one
meets the other. The standard layout ORs the low nibble of `length - 8` into the octet; the
extended layout stores the length that the block still has.

* `standard_length_eq`, `extended_length_of_le`: what `length()` returns.
* `standard_setLength_of_lg`, `extended_setLength_of_lg`: what `set_length` leaves, once its
  `u8` arithmetic is done.
-/

namespace EmbassyKnx

open Rust Heapless Octets FrameLayout FrameReader FrameWriter

/-- Modifying an octet into itself leaves the octets as they are, and nothing else does. -/
theorem modify_eq_self_iff {d : List UInt8} {i : ℕ} (h : i < d.length) (g : UInt8 → UInt8) :
    d.modify i g = d ↔ g (octetAt d i) = octetAt d i := by
  constructor
  · intro heq
    have hoctet := octetAt_modify d g (i := i) h
    rw [heq, if_pos rfl] at hoctet
    exact hoctet.symm
  · intro hfix
    rw [octetAt_eq_getElem h] at hfix
    rw [List.modify_eq_take_cons_drop h, hfix, ← List.drop_eq_getElem_cons h, List.take_append_drop]

/-! ## `length` -/

theorem nibble_le (x : UInt8) : (x &&& 0x0F).toNat ≤ 15 := by
  revert x
  exact forall_octet (by decide +kernel)

theorem standard_length_eq (p : Profile) {f : StandardFrame} (h : 5 < (data f).length) :
    length p f = .ok ((octetAt (data f) 5 &&& 0xF) + 7 + 1) := by
  have hnibble : ∀ x : UInt8, (x &&& 0xF).toNat + 7 < 256 ∧ ((x &&& 0xF) + 7).toNat + 1 < 256 :=
    forall_octet (by decide +kernel)
  obtain ⟨h₁, h₂⟩ := hnibble (octetAt (data f) 5)
  change (do
    let lg ← index (data f) 5
    u8Add p (← u8Add p (lg &&& 0xF) 7) 1) = _
  rw [index_eq_octetAt h]
  change (do u8Add p (← u8Add p (octetAt (data f) 5 &&& 0xF) 7) 1) = _
  rw [u8Add_of_lt p h₁]
  exact u8Add_of_lt p h₂

/-- The value of `length()` as a number. -/
theorem standard_length_toNat (x : UInt8) : ((x &&& 0xF) + 7 + 1).toNat = (x &&& 0x0F).toNat + 8 := by
  revert x
  exact forall_octet (by decide +kernel)

/-- Is octet 5 a length that `length()` can add its header to? -/
theorem extended_length_of_le (p : Profile) {f : ExtendedFrame} (h : 5 < (data f).length)
    (hle : (octetAt (data f) 5).toNat ≤ 246) :
    ∃ l, length p f = .ok l ∧ l.toNat = (octetAt (data f) 5).toNat + 9 := by
  have hfit : ∀ x : UInt8, x.toNat ≤ 246 → x.toNat + (8 : UInt8).toNat < 256 ∧
      (x + 8).toNat + (1 : UInt8).toNat < 256 ∧ (x + 8 + 1).toNat = x.toNat + 9 :=
    forall_octet (by decide +kernel)
  obtain ⟨h₁, h₂, hnat⟩ := hfit _ hle
  refine ⟨octetAt (data f) 5 + 8 + 1, ?_, hnat⟩
  change (do
    let lg ← index (data f) 5
    u8Add p (← u8Add p lg 8) 1) = _
  simp only [index_eq_octetAt h, ok_bind, u8Add_of_lt p h₁, u8Add_of_lt p h₂]

/-- From 247 on the sum of `length()` leaves `u8`: it panics with overflow checks
    and is smaller than the smallest frame without. -/
theorem extended_length_of_gt (p : Profile) {f : ExtendedFrame} (h : 5 < (data f).length)
    (hgt : 246 < (octetAt (data f) 5).toNat) :
    match p with
    | .dev => length p f = .error .arithmeticOverflow
    | .release => ∃ l, length p f = .ok l ∧ l.toNat < 9 := by
  have hwrap : ∀ x : UInt8, 246 < x.toNat → u8Add .dev x 8 >>= (u8Add .dev · 1) =
      .error .arithmeticOverflow ∧ u8Add .release x 8 >>= (u8Add .release · 1) = .ok (x + 8 + 1) ∧
      (x + 8 + 1).toNat < 9 := forall_octet (by decide +kernel)
  obtain ⟨hdev, hrel, hlt⟩ := hwrap _ hgt
  have hlength : ∀ q, length q f = u8Add q (octetAt (data f) 5) 8 >>= (u8Add q · 1) := by
    intro q
    change (do
      let lg ← index (data f) 5
      u8Add q (← u8Add q lg 8) 1) = _
    rw [index_eq_octetAt h, ok_bind]
  cases p with
  | dev => exact (hlength .dev).trans hdev
  | release => exact ⟨_, (hlength .release).trans hrel, hlt⟩

/-! ## `set_length` -/

/-- The end of `set_length`: the block `v`, in which the length octet is written, is resized;
    the frame keeps that octet when this fails. -/
def resized {T : Type} [FrameWriter T] (v : FrameVec) (n : ℕ) : T × FrameResult Unit :=
  match v.resizeDefault n with
  | some w => (ofBuf w, .ok ())
  | none => (ofBuf v, .error .invalidLength)

section Resized

variable {T : Type} [FrameWriter T] {v : FrameVec} {n : ℕ}

theorem resized_of_le (hn : n ≤ 264) : ∃ g : T, resized v n = (g, .ok ()) ∧
    data g = v.toList.take n ++ List.replicate (n - v.toList.length) 0 := by
  obtain ⟨w, hw, hwl⟩ := v.resizeDefault_of_le (n := n) hn
  refine ⟨ofBuf w, ?_, ?_⟩
  · rw [resized, hw]
  · rw [data_ofBuf]
    exact hwl

theorem resized_of_gt (hn : 264 < n) : (resized v n : T × FrameResult Unit) =
    (ofBuf v, .error .invalidLength) := by
  have hnone : v.resizeDefault n = none := dif_neg (Nat.not_le_of_lt hn)
  rw [resized, hnone]

/-- Octets that a resized block has kept. -/
theorem octetAt_take_append {d rest : List UInt8} {i n : ℕ} (hn : i < n) (hd : i < d.length) :
    octetAt (d.take n ++ rest) i = octetAt d i := by
  have hlt : i < (d.take n).length := by rw [List.length_take]; omega
  rw [octetAt_append_left hlt, octetAt_eq_getElem hlt, List.getElem_take, octetAt_eq_getElem hd]

theorem octetAt_resized {g : T} {r : FrameResult Unit} (h : resized v n = (g, r)) {i : ℕ}
    (hn : i < n) (hlen : i < v.toList.length) : octetAt (data g) i = octetAt v.toList i := by
  by_cases hle : n ≤ 264
  · obtain ⟨g', hg', hdata⟩ := resized_of_le (T := T) (v := v) hle
    rw [hg'] at h
    cases h
    rw [hdata, octetAt_take_append hn hlen]
  · rw [resized_of_gt (Nat.lt_of_not_le hle)] at h
    cases h
    rw [data_ofBuf]

end Resized

section SetLength

variable (p : Profile) {n : ℕ}

/-- `length as u8 - HEADER_LENGTH as u8 - 1` of the standard layout. -/
def standardLg (p : Profile) (n : ℕ) : Panicking UInt8 := do
  u8Sub p (← u8Sub p (UInt8.ofNat n) 7) 1

/-- `self.0.len() as u8 - HEADER_LENGTH as u8 - 1` of the extended layout. -/
def extendedLg (p : Profile) (len : ℕ) : Panicking UInt8 := do
  u8Sub p (← u8Sub p (UInt8.ofNat len) 8) 1

theorem standardLg_eq (hn : 8 ≤ n % 256) :
    ∃ lg, standardLg p n = .ok lg ∧ lg.toNat = n % 256 - 8 := by
  have hsub : ∀ x : UInt8, 8 ≤ x.toNat → 7 ≤ x ∧ 1 ≤ x - 7 ∧ (x - 7 - 1).toNat = x.toNat - 8 :=
    forall_octet (by decide +kernel)
  obtain ⟨h7, h1, hnat⟩ := hsub (UInt8.ofNat n) hn
  refine ⟨_, ?_, hnat⟩
  rw [standardLg, u8Sub_of_le p h7, ok_bind, u8Sub_of_le p h1]

theorem standardLg_overflow (hn : n % 256 < 8) : standardLg .dev n = .error .arithmeticOverflow := by
  have hsub : ∀ x : UInt8, x.toNat < 8 →
      u8Sub .dev x 7 >>= (u8Sub .dev · 1) = .error .arithmeticOverflow :=
    forall_octet (by decide +kernel)
  exact hsub (UInt8.ofNat n) hn

theorem extendedLg_overflow (hn : n % 256 < 9) : extendedLg .dev n = .error .arithmeticOverflow := by
  have hsub : ∀ x : UInt8, x.toNat < 9 →
      u8Sub .dev x 8 >>= (u8Sub .dev · 1) = .error .arithmeticOverflow :=
    forall_octet (by decide +kernel)
  exact hsub (UInt8.ofNat n) hn

/-- The bounds of `set_length` hold of every length. -/
theorem bounds_hold (n : ℕ) : (n ≤ maxFrameSize StandardFrame ∨ n ≥ minFrameSize StandardFrame) ∧
    (n ≤ maxFrameSize ExtendedFrame ∨ n ≥ minFrameSize ExtendedFrame) := by
  show (n ≤ 24 ∨ n ≥ 8) ∧ (n ≤ 263 ∨ n ≥ 9)
  omega

theorem standard_setLength_steps (f : StandardFrame) : StandardFrame.setLength p f n =
    standardLg p n >>= fun lg => f.buf.modifyAt 5 (· ||| (lg &&& 0xF)) >>= fun v =>
      .ok (resized v n) := by
  rw [StandardFrame.setLength, if_pos (bounds_hold n).1, standardLg, bind_assoc]
  apply bind_congr
  intro x
  apply bind_congr
  intro lg
  apply bind_congr
  intro v
  unfold resized
  cases v.resizeDefault n <;> rfl

theorem extended_setLength_steps (f : ExtendedFrame) : ExtendedFrame.setLength p f n =
    extendedLg p (data f).length >>= fun lg => f.buf.setAt 5 lg >>= fun v => .ok (resized v n) := by
  rw [ExtendedFrame.setLength, if_pos (bounds_hold n).2, extendedLg, bind_assoc]
  apply bind_congr
  intro x
  apply bind_congr
  intro lg
  apply bind_congr
  intro v
  unfold resized
  cases v.resizeDefault n <;> rfl

theorem standard_setLength_of_lg {f : StandardFrame} (h : 5 < (data f).length) {lg : UInt8}
    (hlg : standardLg p n = .ok lg) :
    ∃ v : FrameVec, v.toList = (data f).modify 5 (· ||| (lg &&& 0xF)) ∧
      StandardFrame.setLength p f n = .ok (resized v n) := by
  obtain ⟨v, hv, hl⟩ := Vec.modifyAt_of_lt (v := f.buf) h (· ||| (lg &&& 0xF))
  refine ⟨v, hl, ?_⟩
  rw [standard_setLength_steps, hlg, ok_bind, hv, ok_bind]

theorem extended_setLength_of_lg {f : ExtendedFrame} (h : 5 < (data f).length) {lg : UInt8}
    (hlg : extendedLg p (data f).length = .ok lg) :
    ∃ v : FrameVec, v.toList = (data f).set 5 lg ∧
      ExtendedFrame.setLength p f n = .ok (resized v n) := by
  obtain ⟨v, hv, hl⟩ := Vec.modifyAt_of_lt (v := f.buf) h fun _ => lg
  refine ⟨v, by rw [hl, List.modify_eq_set]; rfl, ?_⟩
  rw [extended_setLength_steps, hlg, ok_bind, Vec.setAt, hv, ok_bind]

/-- `set_length` writes no octet but `LG_FIELD`. -/
theorem standard_setLength_octetAt {f g : StandardFrame} {r : FrameResult Unit}
    (h : StandardFrame.setLength p f n = .ok (g, r)) {i : ℕ} (hi : i ≠ 5) (hn : i < n)
    (hlen : i < (data f).length) : octetAt (data g) i = octetAt (data f) i := by
  rw [standard_setLength_steps] at h
  obtain ⟨lg, -, h⟩ := (bind_eq_ok_iff _).mp h
  obtain ⟨v, hv, h⟩ := (bind_eq_ok_iff _).mp h
  have hl : v.toList = (data f).modify 5 _ := Vec.toList_of_modifyAt hv
  rw [octetAt_resized (Except.ok.inj h) hn (by rwa [hl, List.length_modify]), hl,
    octetAt_modify _ _ hlen, if_neg (Ne.symm hi)]

theorem extended_setLength_octetAt {f g : ExtendedFrame} {r : FrameResult Unit}
    (h : ExtendedFrame.setLength p f n = .ok (g, r)) {i : ℕ} (hi : i ≠ 5) (hn : i < n)
    (hlen : i < (data f).length) : octetAt (data g) i = octetAt (data f) i := by
  rw [extended_setLength_steps] at h
  obtain ⟨lg, -, h⟩ := (bind_eq_ok_iff _).mp h
  obtain ⟨v, hv, h⟩ := (bind_eq_ok_iff _).mp h
  have hl : v.toList = (data f).modify 5 _ := Vec.toList_of_modifyAt hv
  rw [octetAt_resized (Except.ok.inj h) hn (by rwa [hl, List.length_modify]), hl,
    octetAt_modify _ _ hlen, if_neg (Ne.symm hi)]

end SetLength

end EmbassyKnx
