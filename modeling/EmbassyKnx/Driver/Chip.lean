import EmbassyKnx.Common.Octets
import Mathlib.Data.List.GetD
import Mathlib.Logic.Function.Basic

/-!
# Reference model of the bus coupler's transmit buffer

What the octets the host writes mean to the chip: they come in pairs of a
command and an operand. A command `10iiiiii` stores its operand at index `i`;
`01mmmmmm` stores it at index `m` and puts the octets 0 to `m` on the bus.

* `chip_store_range`: a run of store commands with ascending indices fills that
  part of the buffer.
* `chip_frame`: a frame stored octet by octet is put on the bus as it is,
  whatever the buffer held before.
-/

namespace EmbassyKnx.Driver

open Octets

/-- The frames the chip puts on the bus for the octets it is sent. -/
def chip (buffer : ℕ → UInt8) : List UInt8 → List (List UInt8)
  | command :: octet :: rest =>
    if command &&& 0xC0 = 0x80 then
      chip (Function.update buffer (command &&& 0x3F).toNat octet) rest
    else if command &&& 0xC0 = 0x40 then
      let m := (command &&& 0x3F).toNat
      let buffer := Function.update buffer m octet
      (List.range (m + 1)).map buffer :: chip buffer rest
    else chip buffer rest
  | _ => []

theorem chip_store {i : ℕ} (hi : i < 64) (buffer : ℕ → UInt8) (octet : UInt8) (rest : List UInt8) :
    chip buffer ((0x80 + UInt8.ofNat i) :: octet :: rest) =
      chip (Function.update buffer i octet) rest := by
  have hcmd : ∀ i < 64, (0x80 + UInt8.ofNat i) &&& 0xC0 = 0x80 ∧
      ((0x80 + UInt8.ofNat i) &&& 0x3F).toNat = i := by decide +kernel
  obtain ⟨hstore, hindex⟩ := hcmd i hi
  rw [chip, if_pos hstore, hindex]

theorem chip_end {m : ℕ} (hm : m < 64) (buffer : ℕ → UInt8) (octet : UInt8) :
    chip buffer [0x40 ||| UInt8.ofNat m, octet] =
      [(List.range (m + 1)).map (Function.update buffer m octet)] := by
  have hcmd : ∀ m < 64, ¬(0x40 ||| UInt8.ofNat m) &&& 0xC0 = 0x80 ∧
      (0x40 ||| UInt8.ofNat m) &&& 0xC0 = 0x40 ∧
      ((0x40 ||| UInt8.ofNat m) &&& 0x3F).toNat = m := by decide +kernel
  obtain ⟨hnot, hend, hindex⟩ := hcmd m hm
  rw [chip, if_neg hnot, if_pos hend, hindex]
  rfl

/-- The commands that store the octets `octets` from index `lo` on. -/
def storeCommands (lo : ℕ) : List UInt8 → List UInt8
  | [] => []
  | octet :: octets => (0x80 + UInt8.ofNat lo) :: octet :: storeCommands (lo + 1) octets

/-- A buffer into which `octets` have been stored from index `lo` on. -/
def storedAt (buffer : ℕ → UInt8) (lo : ℕ) (octets : List UInt8) : ℕ → UInt8 :=
  fun k => if lo ≤ k ∧ k < lo + octets.length then octets.getD (k - lo) 0 else buffer k

theorem storedAt_nil (buffer : ℕ → UInt8) (lo : ℕ) : storedAt buffer lo [] = buffer := by
  funext k
  rw [storedAt, List.length_nil, if_neg (by omega)]

theorem storedAt_cons (buffer : ℕ → UInt8) (lo : ℕ) (octet : UInt8) (octets : List UInt8) :
    storedAt (Function.update buffer lo octet) (lo + 1) octets =
      storedAt buffer lo (octet :: octets) := by
  funext k
  unfold storedAt
  simp only [List.length_cons, Function.update_apply]
  by_cases hk : k = lo
  · subst hk
    rw [if_neg (by omega), if_pos rfl, if_pos (by omega), Nat.sub_self, List.getD_cons_zero]
  · by_cases hlt : lo + 1 ≤ k ∧ k < lo + 1 + octets.length
    · rw [if_pos hlt, if_pos (by omega), show k - lo = k - (lo + 1) + 1 by omega,
        List.getD_cons_succ]
    · rw [if_neg hlt, if_neg hk, if_neg (by omega)]

/-- A buffer that holds a frame up to its last octet, read out. -/
theorem map_range_storedAt (buffer : ℕ → UInt8) (octets : List UInt8) (last : UInt8) :
    (List.range (octets.length + 1)).map
        (Function.update (storedAt buffer 0 octets) octets.length last) = octets ++ [last] := by
  refine List.ext_getElem (by simp) ?_
  intro k hk hk'
  simp only [List.length_append, List.length_singleton] at hk'
  simp only [List.getElem_map, List.getElem_range, Function.update_apply]
  by_cases hlast : k = octets.length
  · subst hlast
    simp
  · rw [if_neg hlast, List.getElem_append_left (by omega), storedAt, if_pos (by omega),
      Nat.sub_zero, List.getD_eq_getElem _ _ (by omega)]

theorem chip_store_range (buffer : ℕ → UInt8) (octets rest : List UInt8) {lo : ℕ}
    (h : lo + octets.length ≤ 64) :
    chip buffer (storeCommands lo octets ++ rest) = chip (storedAt buffer lo octets) rest := by
  induction octets generalizing buffer lo with
  | nil => rw [storeCommands, List.nil_append, storedAt_nil]
  | cons octet octets ih =>
    simp only [List.length_cons] at h
    rw [storeCommands, List.cons_append, List.cons_append, chip_store (by omega), ih _ (by omega),
      storedAt_cons]

/-- A frame that is stored octet by octet, its last octet with the end command, is put on
    the bus as it is. -/
theorem chip_frame (buffer : ℕ → UInt8) (octets : List UInt8) (last : UInt8)
    (h : octets.length < 64) :
    chip buffer (storeCommands 0 octets ++ [0x40 ||| UInt8.ofNat octets.length, last]) =
      [octets ++ [last]] := by
  rw [chip_store_range buffer octets _ (by omega), chip_end h, map_range_storedAt]

end EmbassyKnx.Driver
