import Mathlib.Data.List.Basic
import Mathlib.Tactic.Common

/-!
# Octets and XOR sums

* `xorAll_append`, `xorAll_replicate_zero`: the XOR sum of an octet string is
  additive and blind to zero padding.
* `xorAll_complement`: appending the complement of the XOR sum makes the sum
  `0xFF`; `complement_eq_zero_iff` is the receiving side's test.
* `u16_of_octets`: splitting a 16-bit word into octets and joining them again.
* `forall_octet`: a statement about one octet is decided by its 256 cases.
-/

namespace EmbassyKnx.Octets

/-! ## Case analysis -/

/-- To prove something of every octet, prove it of every 8-bit vector; the latter
    is decidable. -/
theorem forall_octet {P : UInt8 → Prop} (h : ∀ x : BitVec 8, P (UInt8.ofBitVec x)) (x : UInt8) :
    P x := h x.toBitVec

/-! ## Bits -/

theorem and_or_distrib_right (x y m : UInt8) : (x ||| y) &&& m = (x &&& m) ||| (y &&& m) := by
  apply UInt8.toNat_inj.mp
  rw [UInt8.toNat_and, UInt8.toNat_or, UInt8.toNat_or, UInt8.toNat_and, UInt8.toNat_and,
    Nat.and_or_distrib_right]

theorem and_ones (x : UInt8) : x &&& 0xFF = x := by
  revert x
  exact forall_octet (by decide +kernel)

/-! ## XOR sums -/

/-- `octets.iter().fold(0, |acc, &v| acc ^ v)`. -/
def xorAll (octets : List UInt8) : UInt8 := octets.foldl (fun acc v => acc ^^^ v) 0

theorem foldl_xor (octets : List UInt8) (acc : UInt8) :
    octets.foldl (fun acc v => acc ^^^ v) acc = acc ^^^ xorAll octets := by
  induction octets generalizing acc with
  | nil => simp [xorAll]
  | cons x xs ih => rw [xorAll, List.foldl_cons, List.foldl_cons, ih, ih (0 ^^^ x), UInt8.zero_xor,
      UInt8.xor_assoc]

@[simp] theorem xorAll_nil : xorAll [] = 0 := rfl

@[simp] theorem xorAll_cons (x : UInt8) (xs : List UInt8) : xorAll (x :: xs) = x ^^^ xorAll xs := by
  rw [xorAll, List.foldl_cons, foldl_xor, UInt8.zero_xor]

@[simp] theorem xorAll_append (xs ys : List UInt8) : xorAll (xs ++ ys) = xorAll xs ^^^ xorAll ys := by
  rw [xorAll, List.foldl_append, foldl_xor, ← xorAll]

@[simp] theorem xorAll_replicate_zero (n : ℕ) : xorAll (List.replicate n 0) = 0 := by
  induction n with
  | zero => rfl
  | succ n ih => rw [List.replicate_succ, xorAll_cons, ih, UInt8.xor_self]

theorem complement_eq_zero_iff (x : UInt8) : 0 = ~~~x ↔ x = 0xFF := by
  revert x
  exact forall_octet (by decide +kernel)

/-- An octet string closed with the complement of its XOR sum has XOR sum `0xFF`. -/
theorem xorAll_complement (xs : List UInt8) : xorAll (xs ++ [~~~xorAll xs]) = 0xFF := by
  rw [xorAll_append, xorAll_cons, xorAll_nil, UInt8.xor_zero]
  generalize xorAll xs = x
  revert x
  exact forall_octet (by decide +kernel)

/-! ## 16-bit words -/

/-- Splitting a word high octet first and joining the octets again. -/
theorem u16_of_octets (w : UInt16) :
    ((w >>> 8).toUInt8.toUInt16 <<< 8) ||| (w &&& 0xFF).toUInt8.toUInt16 = w := by
  apply UInt16.toNat_inj.mp
  have hw := w.toNat_lt
  have hand : w.toNat &&& 255 = w.toNat % 256 := Nat.and_two_pow_sub_one_eq_mod w.toNat 8
  simp only [UInt16.toNat_or, UInt16.toNat_shiftLeft, UInt8.toNat_toUInt16, UInt16.toNat_toUInt8,
    UInt16.toNat_shiftRight, UInt16.toNat_and, UInt16.reduceToNat, hand, Nat.shiftLeft_eq,
    Nat.shiftRight_eq_div_pow, Nat.mod_mod, Nat.reduceMod, Nat.reducePow]
  rw [Nat.mod_eq_of_lt (by omega : w.toNat / 256 < 256), Nat.mod_eq_of_lt (by omega)]
  rw [show w.toNat / 256 * 256 = (w.toNat / 256) <<< 8 by rw [Nat.shiftLeft_eq],
    ← Nat.shiftLeft_add_eq_or_of_lt (by omega : w.toNat % 256 < 2 ^ 8), Nat.shiftLeft_eq]
  omega

theorem toNat_of_octets (hi lo : UInt8) :
    ((hi.toUInt16 <<< 8) ||| lo.toUInt16).toNat = hi.toNat * 256 + lo.toNat := by
  have hhi := hi.toNat_lt
  have hlo := lo.toNat_lt
  rw [UInt16.toNat_or, UInt16.toNat_shiftLeft, UInt8.toNat_toUInt16, UInt8.toNat_toUInt16]
  show hi.toNat <<< 8 % 65536 ||| lo.toNat = _
  rw [Nat.mod_eq_of_lt (by rw [Nat.shiftLeft_eq]; omega),
    ← Nat.shiftLeft_add_eq_or_of_lt (by omega : lo.toNat < 2 ^ 8), Nat.shiftLeft_eq]

/-- A joined word has the octets it has been joined from. -/
theorem u16_of_octets_eq_iff (hi lo : UInt8) (w : UInt16) :
    (hi.toUInt16 <<< 8) ||| lo.toUInt16 = w ↔
      hi = (w >>> 8).toUInt8 ∧ lo = (w &&& 0xFF).toUInt8 := by
  constructor
  · rintro rfl
    have hword := toNat_of_octets hi lo
    have hhi := hi.toNat_lt
    have hlo := lo.toNat_lt
    constructor
    · apply UInt8.toNat_inj.mp
      rw [UInt16.toNat_toUInt8, UInt16.toNat_shiftRight, hword]
      show hi.toNat = (hi.toNat * 256 + lo.toNat) >>> 8 % 256
      rw [Nat.shiftRight_eq_div_pow]
      omega
    · apply UInt8.toNat_inj.mp
      rw [UInt16.toNat_toUInt8, UInt16.toNat_and, hword]
      show lo.toNat = ((hi.toNat * 256 + lo.toNat) &&& (2 ^ 8 - 1)) % 256
      rw [Nat.and_two_pow_sub_one_eq_mod]
      omega
  · rintro ⟨rfl, rfl⟩
    exact u16_of_octets w

/-- The low octet of a joined word. -/
theorem toUInt8_of_octets (m : UInt16) (y : UInt8) : ((m <<< 8) ||| y.toUInt16).toUInt8 = y := by
  apply UInt8.toNat_inj.mp
  have hy := y.toNat_lt
  have hshift : (m.toNat <<< 8 % 65536) % 2 ^ 8 = 0 := by
    rw [Nat.shiftLeft_eq]
    omega
  show ((m <<< 8) ||| y.toUInt16).toNat % 2 ^ 8 = y.toNat
  rw [UInt16.toNat_or, UInt16.toNat_shiftLeft, UInt8.toNat_toUInt16, Nat.or_mod_two_pow]
  show (m.toNat <<< 8 % 65536) % 2 ^ 8 ||| y.toNat % 2 ^ 8 = y.toNat
  rw [hshift, Nat.zero_or, Nat.mod_eq_of_lt hy]

end EmbassyKnx.Octets
