import EmbassyKnx.Common.BitField
import EmbassyKnx.Frame.Header

/-!
# The header setters as independent fields

The setters of `FrameWriter` for the fields of a standard header (lines 245–270
and 289–312) share five octets. Those of the source address and of a whole TPCI
octet replace what has been there; all others are OR-ed in, and so is the address
type that comes with a destination address. A setter never disturbs a field that
shares no bit with its own, but a field has the value set only if the bits set
before are set in the value too.

* `set_eq`, `get_eq`: setters and getters are writes and reads of bit fields.
* `fieldsIndependent_iff`: the sequences of calls in which every field always has
  the last value set.
-/

namespace EmbassyKnx

open Rust Heapless Octets FrameLayout FrameReader FrameWriter

/-- The fields of a standard header that have a setter. -/
inductive HeaderField
  | priority
  | repeated
  | hopCount
  | srcAddr
  | dstAddr
  | tpci (bits : TpciBits)
  | tpciSeq
  | apci (bits : ApciBits)
  deriving DecidableEq, Repr

/-! ## Addresses -/

/-- The address type of a destination address. -/
def Address.addrType : Address → AddressType
  | .individual _ => .individual
  | .group _ => .group

/-- Its 16 bits. -/
def Address.word : Address → UInt16
  | .individual a => a.addr
  | .group a => a.addr

/-- The address of a type with these 16 bits. -/
def Address.ofWord : AddressType → UInt16 → Address
  | .individual, w => .individual ⟨w⟩
  | .group, w => .group ⟨w⟩

@[simp] theorem Address.ofWord_word (a : Address) : .ofWord a.addrType a.word = a := by
  cases a <;> rfl

@[simp] theorem Address.addrType_ofWord (t : AddressType) (w : UInt16) :
    (Address.ofWord t w).addrType = t := by
  cases t <;> rfl

@[simp] theorem Address.word_ofWord (t : AddressType) (w : UInt16) :
    (Address.ofWord t w).word = w := by
  cases t <;> rfl

theorem AddressType.ofU8_toU8 (t : AddressType) : ofU8 (t.toU8 <<< 7 >>> 7) = t := by
  cases t <;> rfl

theorem AddressType.toU8_ofU8 (x : UInt8) : (ofU8 (x >>> 7)).toU8 <<< 7 = x &&& 0x80 := by
  revert x
  exact forall_octet (by decide +kernel)

namespace HeaderField

/-- What the setter of a field takes. -/
abbrev Value : HeaderField → Type
  | .priority => Priority
  | .repeated => Repeated
  | .hopCount => UInt8
  | .srcAddr => IndividualAddress
  | .dstAddr => Address
  | .tpci _ => UInt8
  | .tpciSeq => UInt8
  | .apci _ => UInt16

/-- The getter of a field. -/
def get : (a : HeaderField) → StandardFrame → Panicking a.Value
  | .priority, f => FrameReader.priority f
  | .repeated, f => FrameReader.repeated f
  | .hopCount, f => FrameReader.hopCount f
  | .srcAddr, f => FrameReader.srcAddr f
  | .dstAddr, f => FrameReader.dstAddr f
  | .tpci bits, f => FrameReader.tpci f bits
  | .tpciSeq, f => FrameReader.tpciSeq f
  | .apci bits, f => FrameReader.apci f bits

/-- Its setter. -/
def set : (a : HeaderField) → StandardFrame → a.Value → Panicking StandardFrame
  | .priority, f, v => setPriority f v
  | .repeated, f, v => setRepeated f v
  | .hopCount, f, v => setHopCount f v
  | .srcAddr, f, v => setSrcAddr f v
  | .dstAddr, f, v => setDstAddr f v
  | .tpci bits, f, v => setTpci f bits v
  | .tpciSeq, f, v => setTpciSeq f v
  | .apci bits, f, v => setApci f bits v

/-! ## The bits of the fields -/

/-- Bits 2 and 3 of the control octet. -/
def priorityBits : BitField ℕ Priority :=
  .inOctet ctrl 0x0C false (fun _ => True) (·.toU8 <<< 2) (fun x => .ofU8 ((x >>> 2) &&& 0x3))
    nofun (fun _ => trivial) (forall_octet (by decide +kernel)) (fun v _ => by cases v <;> rfl)

/-- Bit 5 of the control octet. -/
def repeatedBits : BitField ℕ Repeated :=
  .inOctet ctrl 0x20 false (fun _ => True) (·.toU8 <<< 5) (fun x => .ofU8 ((x >>> 5) &&& 0x1))
    nofun (fun _ => trivial) (forall_octet (by decide +kernel)) (fun v _ => by cases v <;> rfl)

/-- Bits 4 to 6 of octet 5. -/
def hopCountBits : BitField ℕ UInt8 :=
  .inOctet (hopCountField StandardFrame) 0x70 false (· < 8) (fun v => (v &&& 0x7) <<< 4)
    (fun x => (x >>> 4) &&& 0x7) nofun (forall_octet (by decide +kernel))
    (forall_octet (by decide +kernel)) (forall_octet (by decide +kernel))

/-- The upper six bits of the TPCI octet. -/
def tpciSixBits : BitField ℕ UInt8 :=
  .inOctet (tpciOffset StandardFrame) 0xFC false (· < 64) (fun v => v <<< 2) (fun x => x >>> 2)
    nofun (forall_octet (by decide +kernel)) (forall_octet (by decide +kernel))
    (forall_octet (by decide +kernel))

/-- All of it. -/
def tpciEightBits : BitField ℕ UInt8 :=
  .inOctet (tpciOffset StandardFrame) 0xFF true (fun _ => True) (fun v => v) (fun x => x)
    (fun _ => rfl) (fun _ => trivial) (fun x => (and_ones x).symm) (fun _ _ => rfl)

/-- Bits 2 to 4 of the TPCI octet. -/
def tpciSeqBits : BitField ℕ UInt8 :=
  .inOctet (tpciOffset StandardFrame) 0x1C false (· < 8) (fun v => (v &&& 0x7) <<< 2)
    (fun x => (x >>> 2) &&& 0x7) nofun (forall_octet (by decide +kernel))
    (forall_octet (by decide +kernel)) (forall_octet (by decide +kernel))

/-- Octets 1 and 2. -/
def srcAddrBits : BitField ℕ IndividualAddress :=
  .inPair 1 2 (by decide) 0xFF 0xFF true (fun _ => True) (fun v => (v.addr >>> 8).toUInt8)
    (fun v => (v.addr &&& 0xFF).toUInt8) (fun hi lo => ⟨(hi.toUInt16 <<< 8) ||| lo.toUInt16⟩)
    (fun _ => ⟨rfl, rfl⟩) (fun _ _ => trivial)
    (fun hi lo => by
      obtain ⟨hhi, hlo⟩ := (u16_of_octets_eq_iff hi lo _).mp rfl
      rw [and_ones, and_ones]
      exact ⟨hhi.symm, hlo.symm⟩)
    (fun v _ => congrArg IndividualAddress.mk (u16_of_octets v.addr))

/-- Octets 3 and 4, and the address type in octet 5. -/
def dstAddrBits : BitField ℕ Address where
  InRange _ := True
  mask i := if i = 3 ∨ i = 4 then 0xFF else if i = 5 then 0x80 else 0
  replaces i := decide (i = 3 ∨ i = 4)
  encode v i :=
    if i = 3 then (v.word >>> 8).toUInt8 else if i = 4 then (v.word &&& 0xFF).toUInt8
    else if i = 5 then v.addrType.toU8 <<< 7 else 0
  decode x := .ofWord (.ofU8 (x 5 >>> 7)) (((x 3).toUInt16 <<< 8) ||| (x 4).toUInt16)
  mask_of_replaces i h := if_pos (of_decide_eq_true h)
  inRange_decode _ := trivial
  encode_decode x i := by
    obtain ⟨hhi, hlo⟩ := (u16_of_octets_eq_iff (x 3) (x 4) _).mp rfl
    by_cases h3 : i = 3
    · simp [h3, ← hhi, and_ones]
    · by_cases h4 : i = 4
      · simp [h4, ← hlo, and_ones]
      · by_cases h5 : i = 5 <;> simp [h3, h4, h5, AddressType.toU8_ofU8]
  decode_encode v _ := by
    show Address.ofWord (.ofU8 (v.addrType.toU8 <<< 7 >>> 7))
      (((v.word >>> 8).toUInt8.toUInt16 <<< 8) ||| (v.word &&& 0xFF).toUInt8.toUInt16) = v
    rw [u16_of_octets, AddressType.ofU8_toU8, Address.ofWord_word]

/-- The ten bits that `apci` reads from the TPCI octet and the one behind it. -/
def apciWord (hi lo : UInt8) : UInt16 := ((hi.toUInt16 &&& 0x3) <<< 8) ||| lo.toUInt16

theorem apciWord_eq (hi lo : UInt8) :
    apciWord hi lo = ((hi &&& 0x3).toUInt16 <<< 8) ||| lo.toUInt16 := by
  have hlow : ∀ x : UInt8, x.toUInt16 &&& 0x3 = (x &&& 0x3).toUInt16 :=
    forall_octet (by decide +kernel)
  rw [apciWord, hlow]

theorem apciWord_toNat (hi lo : UInt8) :
    (apciWord hi lo).toNat = hi.toNat % 4 * 256 + lo.toNat := by
  have hlow : ∀ x : UInt8, (x &&& 0x3).toNat = x.toNat % 4 := forall_octet (by decide +kernel)
  rw [apciWord_eq, toNat_of_octets, hlow]

theorem apciWord_shift_toNat (hi lo : UInt8) :
    (apciWord hi lo >>> 6).toNat = (apciWord hi lo).toNat / 64 := by
  rw [UInt16.toNat_shiftRight]
  exact Nat.shiftRight_eq_div_pow _ 6

/-- The octets that the ten bits have been read from. -/
theorem apciWord_octets (hi lo : UInt8) :
    (apciWord hi lo >>> 8).toUInt8 = hi &&& 0x3 ∧ (apciWord hi lo &&& 0xFF).toUInt8 = lo := by
  obtain ⟨hhi, hlo⟩ := (u16_of_octets_eq_iff (hi &&& 0x3) lo _).mp rfl
  rw [apciWord_eq]
  exact ⟨hhi.symm, hlo.symm⟩

/-- The octets that the upper four bits have been read from. -/
theorem apciWord_four_octets (hi lo : UInt8) :
    ((apciWord hi lo >>> 6) >>> 2).toUInt8 = hi &&& 0x3 ∧
      (((apciWord hi lo >>> 6) &&& 0x3) <<< 6).toUInt8 = lo &&& 0xC0 := by
  have hword := apciWord_toNat hi lo
  have hlow : ∀ x : UInt8, (x &&& 0x3).toNat = x.toNat % 4 := forall_octet (by decide +kernel)
  have hhigh : ∀ x : UInt8, (x &&& 0xC0).toNat = x.toNat / 64 * 64 :=
    forall_octet (by decide +kernel)
  have hshift := apciWord_shift_toNat hi lo
  have hlo := lo.toNat_lt
  constructor
  · apply UInt8.toNat_inj.mp
    rw [UInt16.toNat_toUInt8, UInt16.toNat_shiftRight, hshift, hlow]
    show ((apciWord hi lo).toNat / 64) >>> 2 % 256 = _
    rw [Nat.shiftRight_eq_div_pow]
    omega
  · apply UInt8.toNat_inj.mp
    rw [UInt16.toNat_toUInt8, UInt16.toNat_shiftLeft, UInt16.toNat_and, hshift, hhigh]
    show (((apciWord hi lo).toNat / 64 &&& (2 ^ 2 - 1)) <<< 6 % 65536) % 256 = _
    rw [Nat.and_two_pow_sub_one_eq_mod, Nat.shiftLeft_eq]
    omega

/-- Four bits, written and read. -/
theorem apciWord_four {v : UInt16} (hv : v < 16) :
    apciWord (v >>> 2).toUInt8 ((v &&& 0x3) <<< 6).toUInt8 >>> 6 = v := by
  have hall : ∀ n < 16, apciWord (UInt16.ofNat n >>> 2).toUInt8
      ((UInt16.ofNat n &&& 0x3) <<< 6).toUInt8 >>> 6 = UInt16.ofNat n := by decide +kernel
  have hn := hall v.toNat hv
  rwa [UInt16.ofNat_toNat] at hn

/-- Ten bits, written and read. -/
theorem apciWord_ten {v : UInt16} (hv : v < 1024) :
    apciWord (v >>> 8).toUInt8 (v &&& 0xFF).toUInt8 = v := by
  have hsmall : ∀ x : UInt8, x < 4 → x &&& 0x3 = x := forall_octet (by decide +kernel)
  have hhi : (v >>> 8).toUInt8 < 4 := by
    have hv' : v.toNat < 1024 := hv
    show (v >>> 8).toNat % 256 < 4
    rw [UInt16.toNat_shiftRight]
    show v.toNat >>> 8 % 256 < 4
    rw [Nat.shiftRight_eq_div_pow]
    omega
  rw [apciWord_eq, hsmall _ hhi, u16_of_octets]

theorem apciWord_lt (hi lo : UInt8) : apciWord hi lo < 1024 ∧ apciWord hi lo >>> 6 < 16 := by
  have hword := apciWord_toNat hi lo
  have hlo := lo.toNat_lt
  constructor
  · show (apciWord hi lo).toNat < 1024
    omega
  · have hshift := apciWord_shift_toNat hi lo
    show (apciWord hi lo >>> 6).toNat < 16
    omega

/-- Bits 0 and 1 of the TPCI octet, and the upper two bits of the octet behind it. -/
def apciFourBits : BitField ℕ UInt16 :=
  .inPair 6 7 (by decide) 0x03 0xC0 false (· < 16) (fun v => (v >>> 2).toUInt8)
    (fun v => ((v &&& 0x3) <<< 6).toUInt8) (fun hi lo => apciWord hi lo >>> 6) nofun
    (fun hi lo => (apciWord_lt hi lo).2) apciWord_four_octets (fun _ hv => apciWord_four hv)

/-- Bits 0 and 1 of the TPCI octet, and the octet behind it. -/
def apciTenBits : BitField ℕ UInt16 :=
  .inPair 6 7 (by decide) 0x03 0xFF false (· < 1024) (fun v => (v >>> 8).toUInt8)
    (fun v => (v &&& 0xFF).toUInt8) apciWord nofun (fun hi lo => (apciWord_lt hi lo).1)
    (fun hi lo => by rw [and_ones]; exact apciWord_octets hi lo) (fun _ hv => apciWord_ten hv)

/-- The bits of a field. -/
def bits : (a : HeaderField) → BitField ℕ a.Value
  | .priority => priorityBits
  | .repeated => repeatedBits
  | .hopCount => hopCountBits
  | .srcAddr => srcAddrBits
  | .dstAddr => dstAddrBits
  | .tpci .six => tpciSixBits
  | .tpci .eight => tpciEightBits
  | .tpciSeq => tpciSeqBits
  | .apci .four => apciFourBits
  | .apci .ten => apciTenBits

/-! ## Getters and setters -/

section Accessors

variable {f : StandardFrame}

/-- A getter reads its bits. -/
theorem get_eq (a : HeaderField) (h : 8 ≤ (data f).length) :
    a.get f = .ok (a.bits.decode (octetAt (data f))) := by
  have hheader : headerLength StandardFrame ≤ (data f).length :=
    Nat.le_trans (by decide) h
  cases a with
  | priority =>
    show FrameReader.priority f = _
    rw [FrameReader.priority, index_eq_octetAt (Nat.lt_of_lt_of_le (by decide) h)]
    rfl
  | repeated =>
    show FrameReader.repeated f = _
    rw [FrameReader.repeated, index_eq_octetAt (Nat.lt_of_lt_of_le (by decide) h)]
    rfl
  | hopCount =>
    show FrameReader.hopCount f = _
    rw [FrameReader.hopCount, index_eq_octetAt (Nat.lt_of_lt_of_le (by decide) h)]
    rfl
  | srcAddr => exact srcAddr_eq hheader
  | dstAddr =>
    refine (dstAddr_eq hheader).trans (congrArg Except.ok ?_)
    show dstAddrOf StandardFrame (data f) =
      .ofWord (.ofU8 (octetAt (data f) 5 >>> 7)) (wordAt (data f) 3)
    rcases hkind : AddressType.ofU8 (octetAt (data f) 5 >>> 7) with _ | _
    all_goals
      have hat : AddressType.ofU8 (octetAt (data f) (atField StandardFrame) >>> 7) = _ := hkind
      rw [dstAddrOf, hat]
      rfl
  | tpci bits =>
    cases bits with
    | six => exact tpci_six_eq hheader
    | eight => exact tpci_eight_eq hheader
  | tpciSeq => exact tpciSeq_eq hheader
  | apci bits =>
    show FrameReader.apci f bits = _
    rw [FrameReader.apci, index_eq_octetAt (Nat.lt_of_lt_of_le (by decide) h),
      index_eq_octetAt (Nat.lt_of_lt_of_le (by decide) h)]
    cases bits <;> rfl

/-- A step of a setter: it returns, and leaves these octets. -/
def Leaves (f : StandardFrame) (r : Panicking StandardFrame) (octets : ℕ → UInt8) : Prop :=
  ∃ f', r = .ok f' ∧ (data f').length = (data f).length ∧ octetAt (data f') = octets

theorem leaves_modifyData {i : ℕ} (h : i < (data f).length) (g : UInt8 → UInt8) :
    Leaves f (modifyData f i g)
      (Function.update (octetAt (data f)) i (g (octetAt (data f) i))) := by
  obtain ⟨f', hf', hdata⟩ := modifyData_eq h g
  refine ⟨f', hf', ?_, ?_⟩
  · rw [hdata, List.length_modify]
  · rw [hdata, octetAt_modify_eq h]

/-- Two steps. -/
theorem Leaves.bind {r : Panicking StandardFrame} {s : StandardFrame → Panicking StandardFrame}
    {x y : ℕ → UInt8} (hr : Leaves f r x)
    (hs : ∀ f', (data f').length = (data f).length → octetAt (data f') = x → Leaves f' (s f') y) :
    Leaves f (r >>= s) y := by
  obtain ⟨f', rfl, hlen, hdata⟩ := hr
  obtain ⟨f'', hf'', hlen', hdata'⟩ := hs f' hlen hdata
  exact ⟨f'', hf'', hlen'.trans hlen, hdata'⟩

/-- The write of an address. -/
theorem leaves_writeU16 (off : ℕ) (h : off + 1 < (data f).length) (w : UInt16) :
    Leaves f (do return ofBuf (← writeU16 w (buf f) off))
      (Function.update (Function.update (octetAt (data f)) off (w >>> 8).toUInt8) (off + 1)
        (w &&& 0xFF).toUInt8) := by
  obtain ⟨v, hv, hl⟩ := writeU16_eq h w
  refine ⟨ofBuf v, by rw [hv]; rfl, ?_, ?_⟩
  · rw [data_ofBuf, hl, List.length_modify, List.length_modify]
  · rw [data_ofBuf, hl, octetAt_modify_eq (by rw [List.length_modify]; exact h),
      octetAt_modify_eq (Nat.lt_of_succ_lt h)]

/-- The two octets of the APCI. -/
theorem leaves_apciOctets (h : 8 ≤ (data f).length) (hi lo : UInt8) :
    Leaves f (do
        let f ← modifyData f (apciOffset StandardFrame) (· ||| hi)
        modifyData f (apciOffset StandardFrame + 1) (· ||| lo))
      (Function.update (Function.update (octetAt (data f)) 6 (octetAt (data f) 6 ||| hi)) 7
        (octetAt (data f) 7 ||| lo)) := by
  refine (leaves_modifyData (i := 6) (by omega) (· ||| hi)).bind ?_
  intro f' hlen hdata
  have hseven : octetAt (data f') 7 = octetAt (data f) 7 := by
    rw [hdata]
    rfl
  have hstep := leaves_modifyData (f := f') (i := 7) (by omega) (· ||| lo)
  rwa [hseven, hdata] at hstep

theorem dstAddrBits_write (v : Address) (x : ℕ → UInt8) :
    dstAddrBits.write v x = Function.update (Function.update (Function.update x 5
      (x 5 ||| (v.addrType.toU8 <<< 7))) 3 (v.word >>> 8).toUInt8) 4 (v.word &&& 0xFF).toUInt8 := by
  funext i
  unfold BitField.write dstAddrBits
  by_cases h4 : i = 4
  · simp [h4]
  · by_cases h3 : i = 3
    · simp [h3]
    · by_cases h5 : i = 5 <;> simp [h3, h4, h5]

/-- A setter writes its bits. -/
theorem set_eq (a : HeaderField) (v : a.Value) (h : 8 ≤ (data f).length) :
    Leaves f (a.set f v) (a.bits.write v (octetAt (data f))) := by
  have hctrl : ctrl < (data f).length := Nat.lt_of_lt_of_le (by decide) h
  have htpci : tpciOffset StandardFrame < (data f).length := Nat.lt_of_lt_of_le (by decide) h
  cases a with
  | priority =>
    show Leaves f (setPriority f v) (priorityBits.write v _)
    rw [priorityBits, BitField.inOctet_write]
    exact leaves_modifyData hctrl _
  | repeated =>
    show Leaves f (setRepeated f v) (repeatedBits.write v _)
    rw [repeatedBits, BitField.inOctet_write]
    exact leaves_modifyData hctrl _
  | hopCount =>
    show Leaves f (setHopCount f v) (hopCountBits.write v _)
    rw [hopCountBits, BitField.inOctet_write]
    exact leaves_modifyData (Nat.lt_of_lt_of_le (by decide) h) _
  | srcAddr =>
    show Leaves f (setSrcAddr f v) (srcAddrBits.write v _)
    rw [srcAddrBits, BitField.inPair_write]
    exact leaves_writeU16 1 (by omega) v.addr
  | dstAddr =>
    show Leaves f (setDstAddr f v) (dstAddrBits.write v _)
    rw [dstAddrBits_write]
    have hat : atField StandardFrame < (data f).length := Nat.lt_of_lt_of_le (by decide) h
    cases v with
    | individual addr =>
      refine (leaves_modifyData hat (· ||| (AddressType.individual.toU8 <<< 7))).bind ?_
      intro f' hlen hdata
      have hword := leaves_writeU16 (f := f') 3 (by omega) addr.addr
      rwa [hdata] at hword
    | group addr =>
      refine (leaves_modifyData hat (· ||| (AddressType.group.toU8 <<< 7))).bind ?_
      intro f' hlen hdata
      have hword := leaves_writeU16 (f := f') 3 (by omega) addr.addr
      rwa [hdata] at hword
  | tpci bits =>
    cases bits with
    | six =>
      show Leaves f (setTpci f .six v) (tpciSixBits.write v _)
      rw [tpciSixBits, BitField.inOctet_write]
      exact leaves_modifyData htpci _
    | eight =>
      show Leaves f (setTpci f .eight v) (tpciEightBits.write v _)
      rw [tpciEightBits, BitField.inOctet_write]
      exact leaves_modifyData htpci _
  | tpciSeq =>
    show Leaves f (setTpciSeq f v) (tpciSeqBits.write v _)
    rw [tpciSeqBits, BitField.inOctet_write]
    exact leaves_modifyData htpci _
  | apci bits =>
    cases bits with
    | four =>
      show Leaves f (setApci f .four v) (apciFourBits.write v _)
      rw [apciFourBits, BitField.inPair_write]
      exact leaves_apciOctets h (v >>> 2).toUInt8 ((v &&& 0x3) <<< 6).toUInt8
    | ten =>
      show Leaves f (setApci f .ten v) (apciTenBits.write v _)
      rw [apciTenBits, BitField.inPair_write]
      exact leaves_apciOctets h (v >>> 8).toUInt8 (v &&& 0xFF).toUInt8

end Accessors

/-! ## Fields that overlap -/

/-- Do two fields share bits by their definition? A field and itself do, and fields in the TPCI
    octet and the one behind it. -/
def overlaps : HeaderField → HeaderField → Bool
  | .tpci _, .tpci _ => true
  | .tpci _, .tpciSeq => true
  | .tpciSeq, .tpci _ => true
  | .tpci .eight, .apci _ => true
  | .apci _, .tpci .eight => true
  | .apci _, .apci _ => true
  | a, b => decide (a = b)

/-- The ten fields. -/
def all : List HeaderField :=
  [.priority, .repeated, .hopCount, .srcAddr, .dstAddr, .tpci .six, .tpci .eight, .tpciSeq,
    .apci .four, .apci .ten]

theorem mem_all (a : HeaderField) : a ∈ all := by
  cases a with
  | tpci bits => cases bits <;> decide
  | apci bits => cases bits <;> decide
  | _ => decide

/-- A field lies in the first eight octets. -/
theorem mask_outside (a : HeaderField) {i : ℕ} (hi : 8 ≤ i) : a.bits.mask i = 0 := by
  have hne (k : ℕ) (hk : k < 8) : i ≠ k := by omega
  cases a with
  | priority => exact if_neg (hne 0 (by decide))
  | repeated => exact if_neg (hne 0 (by decide))
  | hopCount => exact if_neg (hne 5 (by decide))
  | srcAddr => exact (if_neg (hne 1 (by decide))).trans (if_neg (hne 2 (by decide)))
  | dstAddr =>
    exact (if_neg (not_or.mpr ⟨hne 3 (by decide), hne 4 (by decide)⟩)).trans
      (if_neg (hne 5 (by decide)))
  | tpci bits => cases bits <;> exact if_neg (hne 6 (by decide))
  | tpciSeq => exact if_neg (hne 6 (by decide))
  | apci bits =>
    cases bits <;> exact (if_neg (hne 6 (by decide))).trans (if_neg (hne 7 (by decide)))

theorem disjoint_iff (a b : HeaderField) : a.bits.Disjoint b.bits ↔ overlaps a b = false := by
  have hall : ∀ a ∈ all, ∀ b ∈ all,
      (∀ i < 8, a.bits.mask i &&& b.bits.mask i = 0) ↔ overlaps a b = false := by decide +kernel
  rw [← hall a (mem_all a) b (mem_all b)]
  constructor
  · intro h i _
    exact h i
  · intro h i
    by_cases hi : i < 8
    · exact h i hi
    · rw [mask_outside a (by omega), UInt8.zero_and]

end HeaderField

/-! ## Sequences of calls -/

/-- A call of a setter with a value in the range of its field. -/
abbrev Call : Type := BitField.Write HeaderField.bits

/-- The frame that a call leaves. -/
def Call.run (c : Call) (f : StandardFrame) : Panicking StandardFrame := c.field.set f c.value

/-- The frame that a sequence of calls leaves. -/
def runCalls (cs : List Call) (f : StandardFrame) : Panicking StandardFrame :=
  cs.foldlM (fun f c => c.run f) f

/-- The setters behave as independent fields over a sequence of calls. At every moment of it, a
    getter returns the last value set, unless an overlapping field has been set since; and a call
    changes no getter of a field that it does not overlap, the one of four APCI bits not the six
    data bits beside it. -/
structure FieldsIndependent (f : StandardFrame) (cs : List Call) : Prop where
  lastSet : ∀ before c since after, cs = before ++ c :: (since ++ after) →
    (∀ d ∈ since, HeaderField.overlaps d.field c.field = false) →
      ∃ g, runCalls (before ++ c :: since) f = .ok g ∧ c.field.get g = .ok c.value
  others : ∀ before c after, cs = before ++ c :: after →
    ∃ g g', runCalls before f = .ok g ∧ Call.run c g = .ok g' ∧
      (∀ b, HeaderField.overlaps c.field b = false → b.get g' = b.get g) ∧
      (c.field = .apci .four → octetAt (data g') 7 &&& 0x3F = octetAt (data g) 7 &&& 0x3F)

/-- No call meets a bit of its field that is set, but not in the value that it sets; the octets
    that the setter replaces do not matter. -/
def SetsOver (f : StandardFrame) (cs : List Call) : Prop :=
  ∀ before c after g, cs = before ++ c :: after → runCalls before f = .ok g →
    c.field.bits.Admits c.value (octetAt (data g))

section Calls

variable {f : StandardFrame}

/-- A sequence of calls is a sequence of writes of bit fields. -/
theorem leaves_runCalls (cs : List Call) (h : 8 ≤ (data f).length) :
    HeaderField.Leaves f (runCalls cs f) (BitField.applyAll cs (octetAt (data f))) := by
  induction cs generalizing f with
  | nil => exact ⟨f, rfl, rfl, rfl⟩
  | cons c cs ih =>
    refine (HeaderField.set_eq c.field c.value h).bind ?_
    intro f' hlen hdata
    have hrest := ih (f := f') (by omega)
    rw [hdata] at hrest
    exact hrest

/-- What a getter reads after a sequence of calls. -/
theorem get_runCalls (cs : List Call) (a : HeaderField) (h : 8 ≤ (data f).length) :
    ∃ g, runCalls cs f = .ok g ∧
      a.get g = .ok (a.bits.decode (BitField.applyAll cs (octetAt (data f)))) := by
  obtain ⟨g, hg, hlen, hdata⟩ := leaves_runCalls cs h
  refine ⟨g, hg, ?_⟩
  rw [a.get_eq (by omega), hdata]

theorem lastSet_iff (h : 8 ≤ (data f).length) (cs : List Call) :
    (∀ before c since after, cs = before ++ c :: (since ++ after) →
      (∀ d ∈ since, HeaderField.overlaps d.field c.field = false) →
        ∃ g, runCalls (before ++ c :: since) f = .ok g ∧ c.field.get g = .ok c.value) ↔
      BitField.LastWritten cs (octetAt (data f)) := by
  unfold BitField.LastWritten
  simp only [HeaderField.disjoint_iff]
  refine forall_congr' fun before => forall_congr' fun c => forall_congr' fun since =>
    forall_congr' fun after => imp_congr_right fun _ => imp_congr_right fun _ => ?_
  obtain ⟨g, hg, hget⟩ := get_runCalls (before ++ c :: since) c.field h
  constructor
  · rintro ⟨g', hg', hvalue⟩
    rw [hg] at hg'
    cases hg'
    rw [hget] at hvalue
    exact Except.ok.inj hvalue
  · intro hvalue
    exact ⟨g, hg, by rw [hget, hvalue]⟩

theorem setsOver_iff (h : 8 ≤ (data f).length) (cs : List Call) :
    SetsOver f cs ↔ BitField.Admitted cs (octetAt (data f)) := by
  constructor
  · intro hsets before c after hcs
    obtain ⟨g, hg, -, hdata⟩ := leaves_runCalls before h
    have hadmits := hsets before c after g hcs hg
    rwa [hdata] at hadmits
  · intro hadmitted before c after g hcs hg
    obtain ⟨g', hg', -, hdata⟩ := leaves_runCalls before h
    rw [hg] at hg'
    cases hg'
    rw [hdata]
    exact hadmitted before c after hcs

/-- A call never disturbs the fields beside its own. -/
theorem call_others (before : List Call) (c : Call) (h : 8 ≤ (data f).length) :
    ∃ g g', runCalls before f = .ok g ∧ c.run g = .ok g' ∧
      (∀ b, HeaderField.overlaps c.field b = false → b.get g' = b.get g) ∧
      (c.field = .apci .four → octetAt (data g') 7 &&& 0x3F = octetAt (data g) 7 &&& 0x3F) := by
  obtain ⟨g, hg, hlen, -⟩ := leaves_runCalls before h
  obtain ⟨g', hg', hlen', hdata⟩ := HeaderField.set_eq c.field c.value (f := g) (by omega)
  refine ⟨g, g', hg, hg', ?_, ?_⟩
  · intro b hb
    rw [b.get_eq (by omega), b.get_eq (by omega), hdata,
      BitField.decode_write_of_disjoint c.inRange ((HeaderField.disjoint_iff _ b).mpr hb)]
  · intro hfield
    rw [hdata]
    refine BitField.write_beside c.inRange ?_
    rw [hfield]
    rfl

/-- The setters behave as independent fields iff no call meets a set bit of its field that its
    value has not. -/
theorem fieldsIndependent_iff (hsized : (Frame.standard f).Sized) (cs : List Call) :
    FieldsIndependent f cs ↔ SetsOver f cs := by
  have h : 8 ≤ (data f).length := hsized
  rw [setsOver_iff h, ← BitField.lastWritten_iff, ← lastSet_iff h]
  constructor
  · intro hfields
    exact hfields.lastSet
  · intro hlast
    exact ⟨hlast, fun before c after _ => call_others before c h⟩

end Calls

/-- `true` written to 1/1/1 by 1.1.1, with low priority. -/
def lowFrame : StandardFrame :=
  ⟨⟨[0xBC, 0x11, 0x01, 0x09, 0x01, 0xE1, 0x00, 0x81, 0x3B], by decide⟩⟩

/-- `set_priority(System)`. -/
def raisePriority : Call := ⟨.priority, .system, trivial⟩

theorem fieldsIndependent_iff_lowFrame :
    FieldsIndependent lowFrame [raisePriority] ↔ SetsOver lowFrame [raisePriority] :=
  fieldsIndependent_iff (by decide) _

/-- Its priority stays low when it is set to another one. -/
theorem lowFrame_not_independent :
    (Frame.standard lowFrame).Sized ∧ runCalls [raisePriority] lowFrame = .ok lowFrame ∧
      FrameReader.priority lowFrame = .ok .low ∧
      ¬FieldsIndependent lowFrame [raisePriority] := by
  have hrun : runCalls [raisePriority] lowFrame = .ok lowFrame := rfl
  have hlow : FrameReader.priority lowFrame = .ok .low := rfl
  refine ⟨by decide, hrun, hlow, ?_⟩
  intro h
  obtain ⟨g, hg, hget⟩ := h.lastSet [] raisePriority [] [] rfl (by simp)
  have hg' : runCalls [raisePriority] lowFrame = .ok g := hg
  rw [hrun] at hg'
  cases hg'
  have hsystem : FrameReader.priority lowFrame = .ok .system := hget
  rw [hlow] at hsystem
  cases hsystem

end EmbassyKnx
