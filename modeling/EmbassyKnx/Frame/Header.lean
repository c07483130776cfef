import EmbassyKnx.Frame.Frame
import Mathlib.Data.List.GetD
import Mathlib.Logic.Function.Basic

/-!
# Header fields of a frame that is long enough

The accessors of `FrameReader` read fixed offsets and panic on a frame that is
too short for them. On a frame of at least `MIN_FRAME_SIZE` octets none of them
does, and each returns a function of the octets (`srcAddrOf`, `dstAddrOf`,
`tpciOf`, …). `Frame.Sized` is that bound; the driver only delivers frames that
satisfy it.
-/

namespace EmbassyKnx

open Rust Heapless Octets FrameLayout FrameReader FrameWriter

/-- Octet `i` of a buffer, `0` outside it. -/
def octetAt (d : List UInt8) (i : ℕ) : UInt8 := d.getD i 0

/-- The 16-bit word whose high octet is octet `i`. -/
def wordAt (d : List UInt8) (i : ℕ) : UInt16 :=
  ((octetAt d i).toUInt16 <<< 8) ||| (octetAt d (i + 1)).toUInt16

@[simp] theorem octetAt_cons_zero (x : UInt8) (d : List UInt8) : octetAt (x :: d) 0 = x := rfl

@[simp] theorem octetAt_cons_succ (x : UInt8) (d : List UInt8) (i : ℕ) :
    octetAt (x :: d) (i + 1) = octetAt d i := rfl

theorem octetAt_append_left {d : List UInt8} {i : ℕ} (h : i < d.length) (rest : List UInt8) :
    octetAt (d ++ rest) i = octetAt d i :=
  List.getD_append _ _ _ _ h

theorem octetAt_eq_getElem {d : List UInt8} {i : ℕ} (h : i < d.length) : octetAt d i = d[i] :=
  List.getD_eq_getElem _ _ h

theorem octetAt_drop (d : List UInt8) (i j : ℕ) : octetAt (d.drop i) j = octetAt d (i + j) := by
  simp [octetAt, List.getD_eq_getElem?_getD]

theorem wordAt_append_left {d : List UInt8} {i : ℕ} (h : i + 1 < d.length) (rest : List UInt8) :
    wordAt (d ++ rest) i = wordAt d i := by
  rw [wordAt, octetAt_append_left (by omega), octetAt_append_left h, wordAt]

theorem index_eq_octetAt {d : List UInt8} {i : ℕ} (h : i < d.length) :
    index d i = .ok (octetAt d i) := by
  rw [index_eq h, octetAt_eq_getElem h]

theorem u16OfSlice_drop {d : List UInt8} {i : ℕ} (h : i + 1 < d.length) :
    u16OfSlice (d.drop i) = .ok (wordAt d i) := by
  obtain ⟨rest, hd⟩ := drop_eq_cons_cons h
  rw [hd, u16OfSlice_cons_cons, wordAt, octetAt_eq_getElem h, octetAt_eq_getElem (by omega)]

/-- The fixed offsets of a layout lie inside its smallest frame, and no other field shares
    the TPCI octet. -/
class HeaderFits (T : Type) [FrameLayout T] : Prop where
  headerLength_lt : headerLength T < minFrameSize T
  atField_lt : atField T < headerLength T
  hopCountField_lt : hopCountField T < headerLength T
  atField_ne : atField T ≠ tpciOffset T
  hopCountField_ne : hopCountField T ≠ tpciOffset T

instance : HeaderFits StandardFrame := ⟨by decide, by decide, by decide, by decide, by decide⟩

instance : HeaderFits ExtendedFrame := ⟨by decide, by decide, by decide, by decide, by decide⟩

section Fields

variable (T : Type) [FrameLayout T]

/-- The source address in a buffer of layout `T`. -/
def srcAddrOf (d : List UInt8) : IndividualAddress := ⟨wordAt d (srcAddrOffset T)⟩

/-- The destination address in a buffer of layout `T`. -/
def dstAddrOf (d : List UInt8) : Address :=
  match AddressType.ofU8 (octetAt d (atField T) >>> 7) with
  | .group => .group ⟨wordAt d (dstAddrOffset T)⟩
  | .individual => .individual ⟨wordAt d (dstAddrOffset T)⟩

/-- The octet that holds the TPCI and the upper APCI bits. -/
def tpciOf (d : List UInt8) : UInt8 := octetAt d (tpciOffset T)

theorem dstAddrOf_append_left [HeaderFits T] {d : List UInt8} (h : headerLength T ≤ d.length)
    (rest : List UInt8) : dstAddrOf T (d ++ rest) = dstAddrOf T d := by
  have hat := HeaderFits.atField_lt (T := T)
  have hdst : dstAddrOffset T + 1 < headerLength T := by simp [dstAddrOffset, headerLength]
  rw [dstAddrOf, octetAt_append_left (by omega), wordAt_append_left (by omega), dstAddrOf]

end Fields

section Accessors

variable {T : Type} [FrameReader T] {f : T}

theorem srcAddr_eq (h : headerLength T ≤ (data f).length) :
    srcAddr f = .ok (srcAddrOf T (data f)) := by
  have hsrc : srcAddrOffset T + 1 < headerLength T := by simp [srcAddrOffset, headerLength]
  rw [srcAddr, sliceFrom_eq (by omega)]
  change IndividualAddress.ofSlice _ = _
  rw [IndividualAddress.ofSlice, u16OfSlice_drop (by omega)]
  rfl

theorem dstAddr_eq [HeaderFits T] (h : headerLength T ≤ (data f).length) :
    dstAddr f = .ok (dstAddrOf T (data f)) := by
  have hat := HeaderFits.atField_lt (T := T)
  have hdst : dstAddrOffset T + 1 < headerLength T := by simp [dstAddrOffset, headerLength]
  have hword := u16OfSlice_drop (d := data f) (i := dstAddrOffset T) (by omega)
  rw [dstAddr, sliceFrom_eq (by omega), addrType, index_eq_octetAt (by omega), dstAddrOf]
  simp only [bind, Except.bind, pure, Except.pure]
  generalize AddressType.ofU8 (octetAt (data f) (atField T) >>> 7) = kind
  cases kind with
  | individual => simp only [IndividualAddress.ofSlice, hword]; rfl
  | group => simp only [GroupAddress.ofSlice, hword]; rfl

theorem tpci_eight_eq (h : headerLength T ≤ (data f).length) :
    tpci f .eight = .ok (tpciOf T (data f)) := by
  have htpci : tpciOffset T < headerLength T := by simp [tpciOffset, headerLength]
  exact index_eq_octetAt (by omega)

theorem tpci_six_eq (h : headerLength T ≤ (data f).length) :
    tpci f .six = .ok (tpciOf T (data f) >>> 2) := by
  have htpci : tpciOffset T < headerLength T := by simp [tpciOffset, headerLength]
  rw [tpci, index_eq_octetAt (by omega)]
  rfl

theorem tpciSeq_eq (h : headerLength T ≤ (data f).length) :
    tpciSeq f = .ok ((tpciOf T (data f) >>> 2) &&& 0x7) := by
  have htpci : tpciOffset T < headerLength T := by simp [tpciOffset, headerLength]
  rw [tpciSeq, index_eq_octetAt (by omega)]
  rfl

end Accessors

/-! ## Writing header fields -/

section Writers

variable {T : Type} [FrameWriter T] {f : T}

theorem data_ofBuf (v : FrameVec) : data (ofBuf v : T) = v.toList := by
  rw [data, buf_ofBuf]

theorem modifyData_eq {f : T} {i : ℕ} (h : i < (data f).length) (g : UInt8 → UInt8) :
    ∃ f', modifyData f i g = .ok f' ∧ data f' = (data f).modify i g := by
  obtain ⟨v, hv, hl⟩ := Vec.modifyAt_of_lt h g
  refine ⟨ofBuf v, ?_, by rw [data_ofBuf, hl]; rfl⟩
  rw [modifyData, hv]
  rfl

/-- A frame after a write that leaves its length and its TPCI octet alone. -/
def KeepsTpci (f f' : T) : Prop :=
  (data f').length = (data f).length ∧ tpciOf T (data f') = tpciOf T (data f)

theorem KeepsTpci.trans {f f' f'' : T} (h : KeepsTpci f f') (h' : KeepsTpci f' f'') :
    KeepsTpci f f'' :=
  ⟨h'.1.trans h.1, h'.2.trans h.2⟩

theorem octetAt_modify (d : List UInt8) {i j : ℕ} (g : UInt8 → UInt8) (hj : j < d.length) :
    octetAt (d.modify i g) j = if i = j then g (octetAt d j) else octetAt d j := by
  rw [octetAt_eq_getElem (by rwa [List.length_modify]), octetAt_eq_getElem hj, List.getElem_modify]

theorem octetAt_modify_eq {d : List UInt8} {i : ℕ} (h : i < d.length) (g : UInt8 → UInt8) :
    octetAt (d.modify i g) = Function.update (octetAt d) i (g (octetAt d i)) := by
  funext j
  rw [Function.update_apply]
  by_cases hj : j < d.length
  · rw [octetAt_modify d g hj]
    by_cases hij : i = j
    · rw [if_pos hij, if_pos hij.symm, hij]
    · rw [if_neg hij, if_neg (Ne.symm hij)]
  · have hlen : (d.modify i g).length ≤ j := by rw [List.length_modify]; omega
    rw [if_neg (by omega), octetAt, octetAt, List.getD_eq_default _ _ hlen,
      List.getD_eq_default _ _ (by omega)]

theorem modifyData_keepsTpci {i : ℕ} (hi : i < headerLength T) (hne : i ≠ tpciOffset T)
    (h : headerLength T ≤ (data f).length) (g : UInt8 → UInt8) :
    ∃ f', modifyData f i g = .ok f' ∧ KeepsTpci f f' := by
  have htpci : tpciOffset T < headerLength T := by simp [tpciOffset, headerLength]
  obtain ⟨f', hf', hdata⟩ := modifyData_eq (Nat.lt_of_lt_of_le hi h) g
  refine ⟨f', hf', ?_, ?_⟩
  · rw [hdata, List.length_modify]
  · rw [tpciOf, hdata, octetAt_modify _ _ (by omega), if_neg hne, tpciOf]

theorem writeU16_eq {off : ℕ} (h : off + 1 < (data f).length) (w : UInt16) :
    ∃ v, writeU16 w (buf f) off = .ok v ∧ v.toList =
      ((data f).modify off fun _ => (w >>> 8).toUInt8).modify (off + 1)
        fun _ => (w &&& 0xFF).toUInt8 := by
  have hlen : off + 1 < (buf f).toList.length := h
  obtain ⟨v₁, hv₁, hl₁⟩ := Vec.modifyAt_of_lt (v := buf f) (i := off) (by omega)
    fun _ => (w >>> 8).toUInt8
  obtain ⟨v₂, hv₂, hl₂⟩ := Vec.modifyAt_of_lt (v := v₁) (i := off + 1)
    (by rw [hl₁, List.length_modify]; exact hlen) fun _ => (w &&& 0xFF).toUInt8
  refine ⟨v₂, ?_, by rw [hl₂, hl₁]; rfl⟩
  rw [writeU16, Vec.setAt, hv₁]
  exact hv₂

/-- Writing an address in front of the TPCI octet. -/
theorem writeU16_keepsTpci {off : ℕ} (hoff : off + 1 < tpciOffset T)
    (h : headerLength T ≤ (data f).length) (w : UInt16) :
    ∃ v, writeU16 w (buf f) off = .ok v ∧
      KeepsTpci f (ofBuf v : T) := by
  have htpci : tpciOffset T < headerLength T := by simp [tpciOffset, headerLength]
  have hlen : off + 1 < (data f).length := by omega
  obtain ⟨v, hv, hl⟩ := writeU16_eq hlen w
  refine ⟨v, hv, ?_, ?_⟩
  · rw [data_ofBuf, hl, List.length_modify, List.length_modify]
  · rw [tpciOf, data_ofBuf, hl, octetAt_modify _ _ (by rw [List.length_modify]; omega),
      if_neg (by omega), octetAt_modify _ _ (by omega), if_neg (by omega), tpciOf]

end Writers

/-! ## `Frame` -/

namespace Frame

/-- `MIN_FRAME_SIZE` of the frame's layout. -/
def minFrameSize : Frame → ℕ
  | .standard _ => FrameLayout.minFrameSize StandardFrame
  | .extended _ => FrameLayout.minFrameSize ExtendedFrame

/-- The frame has at least `MIN_FRAME_SIZE` octets. -/
def Sized (f : Frame) : Prop := f.minFrameSize ≤ f.data.length

instance (f : Frame) : Decidable f.Sized := inferInstanceAs (Decidable (_ ≤ _))

theorem Sized.standard {f : StandardFrame} (h : (Frame.standard f).Sized) :
    headerLength StandardFrame ≤ (FrameReader.data f).length :=
  Nat.le_trans (Nat.le_of_lt HeaderFits.headerLength_lt) h

theorem Sized.two_le {f : Frame} (h : f.Sized) : 2 ≤ f.data.length := by
  cases f with
  | standard f => exact Nat.le_trans (show 2 ≤ FrameLayout.minFrameSize StandardFrame by decide) h
  | extended f => exact Nat.le_trans (show 2 ≤ FrameLayout.minFrameSize ExtendedFrame by decide) h

theorem Sized.extended {f : ExtendedFrame} (h : (Frame.extended f).Sized) :
    headerLength ExtendedFrame ≤ (FrameReader.data f).length :=
  Nat.le_trans (Nat.le_of_lt HeaderFits.headerLength_lt) h

end Frame

/-- A frame every header accessor can read. -/
structure SizedFrame where
  frame : Frame
  sized : frame.Sized
  deriving DecidableEq

namespace SizedFrame

/-- The source address. -/
def srcAddr (f : SizedFrame) : IndividualAddress :=
  match f.frame with
  | .standard g => srcAddrOf StandardFrame (data g)
  | .extended g => srcAddrOf ExtendedFrame (data g)

/-- The destination address. -/
def dstAddr (f : SizedFrame) : Address :=
  match f.frame with
  | .standard g => dstAddrOf StandardFrame (data g)
  | .extended g => dstAddrOf ExtendedFrame (data g)

/-- The TPCI octet. -/
def tpci (f : SizedFrame) : UInt8 :=
  match f.frame with
  | .standard g => tpciOf StandardFrame (data g)
  | .extended g => tpciOf ExtendedFrame (data g)

/-- What `tpci_seq` returns: three bits of the TPCI octet. -/
def tpciSeq (f : SizedFrame) : UInt8 := (f.tpci >>> 2) &&& 0x7

/-- The sequence-number field of the TPCI octet, bits 5 to 2. -/
def seqField (f : SizedFrame) : ℕ := ((f.tpci >>> 2) &&& 0xF).toNat

variable (f : SizedFrame)

theorem srcAddr_frame : f.frame.srcAddr = .ok f.srcAddr := by
  obtain ⟨frame | frame, h⟩ := f
  · exact srcAddr_eq h.standard
  · exact srcAddr_eq h.extended

theorem dstAddr_frame : f.frame.dstAddr = .ok f.dstAddr := by
  obtain ⟨frame | frame, h⟩ := f
  · exact dstAddr_eq h.standard
  · exact dstAddr_eq h.extended

theorem tpci_frame : f.frame.tpci .eight = .ok f.tpci := by
  obtain ⟨frame | frame, h⟩ := f
  · exact tpci_eight_eq h.standard
  · exact tpci_eight_eq h.extended

theorem tpci_six_frame : f.frame.tpci .six = .ok (f.tpci >>> 2) := by
  obtain ⟨frame | frame, h⟩ := f
  · exact tpci_six_eq h.standard
  · exact tpci_six_eq h.extended

theorem tpciSeq_frame : f.frame.tpciSeq = .ok f.tpciSeq := by
  obtain ⟨frame | frame, h⟩ := f
  · exact tpciSeq_eq h.standard
  · exact tpciSeq_eq h.extended

end SizedFrame

end EmbassyKnx
