import EmbassyKnx.Driver.Chip
import EmbassyKnx.Driver.Standard

/-!
# Transmission of standard frames

`send_frame` writes a frame to the chip octet by octet and puts the checksum in
the place of its last octet. The chip transmits the octets `wireOf`, and another
driver receives a frame that differs from the one sent in the last octet only.
`apci()` reads octet 7, which is that last octet in a frame of eight.

* `chip_sendFrame`: what `send_frame` writes, the chip puts on the bus as
  `wireOf`.
* `sendFrame_roundTrip_iff`: which frames come back with all header fields.
-/

namespace EmbassyKnx.Driver

open Rust Octets FrameLayout FrameReader Async

/-- The octets on the bus for a frame: its last octet is replaced by the checksum of the
    others. -/
def wireOf (d : List UInt8) : List UInt8 :=
  d.dropLast ++ [~~~xorAll d.dropLast]

/-! ## Writing a frame -/

/-- Every write to the UART is going to succeed. -/
def WritesSucceed (w : Line) : Prop := ∀ k, w.writeErrors.get k = none

/-- On a UART that takes every octet, `x` writes `octets` and succeeds. -/
def Writes (x : Task (Except TransferError Unit)) (octets : List UInt8) : Prop :=
  ∀ w, WritesSucceed w → ∃ w', exec uart x w = .returned (.ok ()) w' ∧ WritesSucceed w' ∧
    w'.tx = w.tx ++ octets

theorem writes_writeOctet (octet : UInt8) : Writes (writeOctet octet) [octet] := by
  intro w hw
  rw [exec_writeOctet, writeResult_of_none (hw 0)]
  exact ⟨_, rfl, fun k => hw (k + 1), rfl⟩

theorem writes_pure : Writes (pure (.ok ())) [] := fun w hw =>
  ⟨w, rfl, hw, by rw [List.append_nil]⟩

/-- Writes in sequence, the first error ending the sequence. -/
theorem writes_tryThen {x y : Task (Except TransferError Unit)} {xs ys : List UInt8}
    (hx : Writes x xs) (hy : Writes y ys) : Writes (tryThen x y) (xs ++ ys) := by
  intro w hw
  obtain ⟨w₁, hrun, hw₁, htx⟩ := hx w hw
  obtain ⟨w₂, hrun₂, hw₂, htx₂⟩ := hy w₁ hw₁
  refine ⟨w₂, ?_, hw₂, by rw [htx₂, htx, List.append_assoc]⟩
  rw [tryThen, exec_bind, hrun]
  exact hrun₂

theorem writes_lift {α : Type} {x : Panicking α} {a : α} {f : α → Task (Except TransferError Unit)}
    {octets : List UInt8} (hx : x = .ok a) (hf : Writes (f a) octets) :
    Writes (liftM x >>= f) octets := by
  subst hx
  exact hf

theorem writes_sendOctet (p : Profile) {buf : List UInt8} {i : ℕ} (hi : i < buf.length)
    (hlt : i < 64) : Writes (sendOctet p buf i) [0x80 + UInt8.ofNat i, octetAt buf i] := by
  have hsum : (0x80 : UInt8).toNat + (UInt8.ofNat i).toNat < 256 := by
    rw [UInt8.toNat_ofNat_of_lt' (show i < 256 by omega)]
    show 128 + i < 256
    omega
  exact writes_lift (u8Add_of_lt p hsum) (writes_tryThen (writes_writeOctet _)
    (writes_lift (index_eq_octetAt hi) (writes_writeOctet _)))

/-- The middle octets of a frame. -/
theorem writes_sendOctets (p : Profile) (buf : List UInt8) (lo n : ℕ) (hlen : lo + n ≤ buf.length)
    (hlt : lo + n ≤ 64) :
    Writes (forRange (sendOctet p buf) lo n) (storeCommands lo ((buf.drop lo).take n)) := by
  induction n generalizing lo with
  | zero => exact writes_pure
  | succ n ih =>
    have hlo : lo < buf.length := by omega
    rw [List.drop_eq_getElem_cons hlo, List.take_succ_cons, ← octetAt_eq_getElem hlo,
      storeCommands, forRange]
    exact writes_tryThen (writes_sendOctet p hlo (by omega))
      (ih (lo + 1) (by omega) (by omega))

theorem writes_writeFrame (p : Profile) {buf : List UInt8} (checksum : UInt8)
    (hlen : 2 ≤ buf.length) (hlt : buf.length ≤ 65) :
    Writes (writeFrame p buf checksum)
      (storeCommands 0 buf.dropLast ++ [0x40 ||| UInt8.ofNat buf.dropLast.length, checksum]) := by
  have hcons : buf.dropLast = octetAt buf 0 :: (buf.drop 1).take (buf.length - 2) := by
    rw [octetAt_eq_getElem (by omega), ← List.take_succ_cons, ← List.drop_eq_getElem_cons (by omega),
      List.drop_zero, List.dropLast_eq_take]
    congr 1
    omega
  have hlast : buf.dropLast.length = buf.length - 1 := List.length_dropLast
  have hle : (1 : UInt8) ≤ UInt8.ofNat buf.length := by
    rw [UInt8.le_iff_toNat_le, UInt8.toNat_ofNat_of_lt' (show buf.length < 256 by omega)]
    show 1 ≤ buf.length
    omega
  have hsub : UInt8.ofNat buf.length - 1 = UInt8.ofNat buf.dropLast.length := by
    apply UInt8.toNat_inj.mp
    rw [UInt8.toNat_sub_of_le _ _ hle, UInt8.toNat_ofNat_of_lt' (show buf.length < 256 by omega),
      UInt8.toNat_ofNat_of_lt' (show buf.dropLast.length < 256 by omega), hlast]
    rfl
  rw [hcons, storeCommands, List.cons_append, List.cons_append, ← hcons, ← hsub]
  have hmiddle := writes_sendOctets p buf 1 (buf.length - 2) (by omega) (by omega)
  have hend := writes_tryThen
    (writes_writeOctet (Commands.uLDataEndReq ||| (UInt8.ofNat buf.length - 1)))
    (writes_writeOctet checksum)
  exact writes_tryThen (writes_writeOctet _) (writes_lift (index_eq_octetAt (by omega))
    (writes_tryThen (writes_writeOctet _)
      (writes_tryThen hmiddle (writes_lift (u8Sub_of_le p hle) hend))))

/-! ## Reading the echo -/

theorem exec_readEcho_tx (i : ℕ) (w : Line) : (exec uart (readEcho i) w).world.tx = w.tx := by
  refine world_exec_bind uart (I := fun w' => w'.tx = w.tx) ?_ ?_
  · by_cases hlen : [(0 : UInt8)].length ≤ (burst w.rx).length
    · rw [exec_readWithTimeout_full hlen]
      rfl
    · rw [exec_readWithTimeout_stop (Nat.lt_of_not_le hlen)]
      rfl
  · rintro ⟨buf, e | n⟩ w' hw'
    · exact hw'
    · exact hw'

theorem exec_readCon_tx (w : Line) : (exec uart readCon w).world.tx = w.tx := by
  refine world_exec_bind uart (I := fun w' => w'.tx = w.tx) ?_ ?_
  · have hop : exec uart read w = .ofReply w (uart .read w) := exec_op uart _ w
    rw [hop]
    simp only [uart]
    cases nextRead w.rx <;> rfl
  · rintro (e | con) w' hw'
    · exact hw'
    · show (exec uart (if con &&& 0x7f ≠ 0xb then _ else _) w').world.tx = _
      split_ifs
      · exact hw'
      · exact hw'
      · exact hw'

/-- On a UART that takes every octet, `send_frame` writes the frame, whatever comes back. -/
theorem exec_sendFrame_tx (p : Profile) (f : Frame) {w : Line} (hw : WritesSucceed w)
    (hlen : 2 ≤ f.data.length) (hlt : f.data.length ≤ 65) :
    (exec uart (sendFrame p f) w).world.tx = w.tx ++
      (storeCommands 0 f.data.dropLast ++
        [0x40 ||| UInt8.ofNat f.data.dropLast.length, f.checksum]) := by
  obtain ⟨w₁, hrun, -, htx⟩ := writes_writeFrame p f.checksum hlen hlt w hw
  rw [← htx]
  rw [sendFrame, tryThen, exec_bind, hrun]
  exact world_exec_tryThen uart (I := fun w' => w'.tx = w₁.tx)
    (world_exec_forRange uart (fun i w' hw' => (exec_readEcho_tx i w').trans hw') _ _ rfl)
    fun w' hw' => (exec_readCon_tx w').trans hw'

/-! ## What the chip transmits -/

/-- A frame whose last octet is a placeholder: the checksum of the whole is the checksum of
    the others. -/
theorem checksum_of_last_zero {f : Frame} (hlen : 0 < f.data.length)
    (hlast : octetAt f.data (f.data.length - 1) = 0) :
    f.checksum = ~~~xorAll f.data.dropLast := by
  have hne : f.data ≠ [] := List.length_pos_iff.mp hlen
  have hsplit := List.dropLast_append_getLast hne
  rw [List.getLast_eq_getElem, ← octetAt_eq_getElem (by omega), hlast] at hsplit
  rw [f.checksum_eq, ← hsplit, xorAll_append, xorAll_cons, xorAll_nil, UInt8.xor_zero,
    UInt8.xor_zero, List.dropLast_concat]

/-- What `send_frame` writes, the chip puts on the bus as `wireOf`. -/
theorem chip_sendFrame (buffer : ℕ → UInt8) {f : Frame} (hlen : 0 < f.data.length)
    (hlt : f.data.length ≤ 64) (hlast : octetAt f.data (f.data.length - 1) = 0) :
    chip buffer (storeCommands 0 f.data.dropLast ++
      [0x40 ||| UInt8.ofNat f.data.dropLast.length, f.checksum]) = [wireOf f.data] := by
  rw [chip_frame buffer _ _ (by rw [List.length_dropLast]; omega), checksum_of_last_zero hlen hlast,
    wireOf]

/-! ## What the other side reads -/

/-- Two frames agree under every header accessor. -/
structure SameHeader (p : Profile) (f g : StandardFrame) : Prop where
  srcAddr : FrameReader.srcAddr g = FrameReader.srcAddr f
  dstAddr : FrameReader.dstAddr g = FrameReader.dstAddr f
  priority : FrameReader.priority g = FrameReader.priority f
  hopCount : FrameReader.hopCount g = FrameReader.hopCount f
  repeated : FrameReader.repeated g = FrameReader.repeated f
  tpci : ∀ bits, FrameReader.tpci g bits = FrameReader.tpci f bits
  apci : ∀ bits, FrameReader.apci g bits = FrameReader.apci f bits
  length : FrameReader.length p g = FrameReader.length p f

section Header

variable {f g : StandardFrame} {d : List UInt8} {x y : UInt8}

theorem index_concat {i : ℕ} (h : i < d.length) : index (d ++ [x]) i = index (d ++ [y]) i := by
  rw [index_eq_octetAt (by rw [List.length_append]; omega), octetAt_append_left h,
    index_eq_octetAt (by rw [List.length_append]; omega), octetAt_append_left h]

/-- Frames that differ in the last octet have the same header, `apci` apart. -/
theorem sameHeader_of_apci (p : Profile) (hf : data f = d ++ [x]) (hg : data g = d ++ [y])
    (hd : 7 ≤ d.length) (hapci : ∀ bits, apci g bits = apci f bits) : SameHeader p f g := by
  have hflen : headerLength StandardFrame ≤ (data f).length := by
    rw [hf, List.length_append]
    exact Nat.le_trans hd (Nat.le_add_right _ _)
  have hglen : headerLength StandardFrame ≤ (data g).length := by
    rw [hg, List.length_append]
    exact Nat.le_trans hd (Nat.le_add_right _ _)
  have hindex : ∀ i < 7, index (data g) i = index (data f) i := by
    intro i hi
    rw [hf, hg]
    exact index_concat (by omega)
  refine ⟨?_, ?_, ?_, ?_, ?_, ?_, hapci, ?_⟩
  · rw [srcAddr_eq hflen, srcAddr_eq hglen, srcAddrOf, srcAddrOf, hf, hg,
      wordAt_append_left (Nat.lt_of_lt_of_le (by decide) hd),
      wordAt_append_left (Nat.lt_of_lt_of_le (by decide) hd)]
  · rw [dstAddr_eq hflen, dstAddr_eq hglen, hf, hg,
      dstAddrOf_append_left StandardFrame hd, dstAddrOf_append_left StandardFrame hd]
  · unfold priority
    rw [hindex _ (by decide)]
  · unfold hopCount
    rw [hindex _ (by decide)]
  · unfold repeated
    rw [hindex _ (by decide)]
  · intro bits
    unfold tpci
    rw [hindex _ (by decide)]
  · show (do
      let lg ← index (data g) 5
      u8Add p (← u8Add p (lg &&& 0xF) 7) 1) = (do
      let lg ← index (data f) 5
      u8Add p (← u8Add p (lg &&& 0xF) 7) 1)
    rw [hindex 5 (by decide)]

/-- With an APDU octet between header and checksum, `apci` does not see the last octet. -/
theorem apci_eq_of_long (hf : data f = d ++ [x]) (hg : data g = d ++ [y]) (hd : 8 ≤ d.length)
    (bits : ApciBits) : apci g bits = apci f bits := by
  have hapci : apciOffset StandardFrame + 1 < d.length := Nat.lt_of_lt_of_le (by decide) hd
  unfold apci
  rw [hf, hg, index_concat (y := x) (Nat.lt_trans (Nat.lt_succ_self _) hapci),
    index_concat (y := x) hapci]

/-- The low APCI octet can be read back from the ten bits of `apci`. -/
theorem apci_ten_inj (hi y : UInt8) :
    (((hi.toUInt16 &&& 0x3) <<< 8) ||| y.toUInt16 = ((hi.toUInt16 &&& 0x3) <<< 8) ||| (0 : UInt8).toUInt16) ↔
      y = 0 := by
  constructor
  · intro h
    have hlow := congrArg UInt16.toUInt8 h
    rwa [toUInt8_of_octets, toUInt8_of_octets] at hlow
  · intro h
    rw [h]

/-- In a frame of eight octets `apci` reads the last octet. -/
theorem apci_eq_iff_of_short (hf : data f = d ++ [0]) (hg : data g = d ++ [y]) (hd : d.length = 7) :
    (∀ bits, apci g bits = apci f bits) ↔ y = 0 := by
  have hread : ∀ (h : StandardFrame) (z : UInt8), data h = d ++ [z] →
      apci h .ten = .ok ((((octetAt d 6).toUInt16 &&& 0x3) <<< 8) ||| z.toUInt16) ∧
      apci h .four = .ok (((((octetAt d 6).toUInt16 &&& 0x3) <<< 8) ||| z.toUInt16) >>> 6) := by
    intro h z hz
    have h6 : index (data h) (apciOffset StandardFrame) = .ok (octetAt d 6) := by
      have h6 : 6 < d.length := by omega
      rw [hz]
      show index (d ++ [z]) 6 = _
      rw [index_eq_octetAt (by rw [List.length_append]; omega), octetAt_append_left h6]
    have h7 : index (data h) (apciOffset StandardFrame + 1) = .ok z := by
      rw [hz, show apciOffset StandardFrame + 1 = d.length from hd.symm]
      simp [index]
    unfold apci
    rw [h6, h7]
    exact ⟨rfl, rfl⟩
  constructor
  · intro h
    have hten := h .ten
    rw [(hread f 0 hf).1, (hread g y hg).1] at hten
    exact (apci_ten_inj _ y).mp (Except.ok.inj hten)
  · rintro rfl bits
    cases bits with
    | four => rw [(hread f 0 hf).2, (hread g 0 hg).2]
    | ten => rw [(hread f 0 hf).1, (hread g 0 hg).1]

end Header

/-! ## The round trip -/

theorem standardFormat_wireOf (p : Profile) {f : StandardFrame} {l : UInt8}
    (hlen : 8 ≤ (data f).length) (hl : length p f = .ok l) (hln : l.toNat = (data f).length) :
    StandardFormat (wireOf (data f)) := by
  have hdrop : (data f).dropLast.length = (data f).length - 1 := List.length_dropLast
  have hoctet : octetAt (wireOf (data f)) 5 = octetAt (data f) 5 := by
    rw [wireOf, octetAt_append_left (by omega), octetAt_eq_getElem (by omega),
      octetAt_eq_getElem (by omega), List.getElem_dropLast]
  refine ⟨?_, xorAll_complement _⟩
  rw [standard_length_eq p (by omega)] at hl
  rw [hoctet, ← standard_length_toNat, Except.ok.inj hl, hln, wireOf, List.length_append, hdrop,
    List.length_singleton]
  omega

theorem wireOf_cons (d : List UInt8) : octetAt (wireOf d) 0 :: (wireOf d).tail = wireOf d := by
  have hpos : 0 < (wireOf d).length := by simp [wireOf]
  rw [octetAt_eq_getElem hpos, ← List.drop_one, List.getElem_cons_drop, List.drop_zero]

/-- The first octet is not the one that is replaced. -/
theorem octetAt_wireOf_zero {d : List UInt8} (hlen : 2 ≤ d.length) :
    octetAt (wireOf d) 0 = octetAt d 0 := by
  have hdrop : d.dropLast.length = d.length - 1 := List.length_dropLast
  rw [wireOf, octetAt_append_left (by omega), octetAt_eq_getElem (by omega),
    octetAt_eq_getElem (by omega), List.getElem_dropLast]

/-- A frame and the frame that comes back: the same octets but the last, and the same
    header. -/
def RoundTrips (p : Profile) (f : StandardFrame) (o : Outcome Line (Except TransferError Frame)) :
    Prop :=
  ∃ (g : StandardFrame) (w' : Line), o = .returned (.ok (.standard g)) w' ∧
    data g = wireOf (data f) ∧ (data g).dropLast = (data f).dropLast ∧
    (data g).length = (data f).length ∧ SameHeader p f g

section RoundTrip

variable (p p' : Profile) {f : StandardFrame} {l : UInt8} {w w' : Line} {tail : List LineEvent}

theorem split_last (hlen : 0 < (data f).length)
    (hlast : octetAt (data f) ((data f).length - 1) = 0) :
    data f = (data f).dropLast ++ [0] ∧ xorAll (data f) = xorAll (data f).dropLast := by
  have hne : data f ≠ [] := List.length_pos_iff.mp hlen
  have hsplit : data f = (data f).dropLast ++ [0] := by
    rw [← hlast, octetAt_eq_getElem (by omega), ← List.getLast_eq_getElem hne,
      List.dropLast_append_getLast hne]
  refine ⟨hsplit, ?_⟩
  conv_lhs => rw [hsplit]
  rw [xorAll_append, xorAll_cons, xorAll_nil, UInt8.xor_zero, UInt8.xor_zero]

/-- The other driver receives the octets on the bus. -/
theorem receiveFrame_wireOf (hlen : 8 ≤ (data f).length) (hl : length p' f = .ok l)
    (hln : l.toNat = (data f).length) (hctrl : octetAt (data f) 0 &&& 0xd3 = 0x90)
    (hrx : w'.rx = (wireOf (data f)).tail.map .octet ++ tail) (htail : Quiet tail)
    (hb : w'.blocks.head = true) (hw' : w'.writeErrors.head = none) :
    ∃ (g : StandardFrame) (w'' : Line),
      exec uart (receiveFrame p' (octetAt (wireOf (data f)) 0)) w' =
        .returned (.ok (.standard g)) w'' ∧ data g = wireOf (data f) := by
  have hcons := wireOf_cons (data f)
  have hfirst := octetAt_wireOf_zero (d := data f) (by omega)
  have hfmt := standardFormat_wireOf p' hlen hl hln
  rw [← hcons] at hfmt
  obtain ⟨g, w'', hrun, hg⟩ := receiveFrame_of_format p' (by rw [hfirst]; exact hctrl) hrx htail
    hb hw' hfmt
  exact ⟨g, w'', hrun, hg.trans hcons⟩

/-- A frame comes back with its header iff it has an APDU octet or its checksum happens to
    be the placeholder. -/
theorem roundTrips_iff (hlen : 8 ≤ (data f).length) (hl : length p' f = .ok l)
    (hln : l.toNat = (data f).length) (hctrl : octetAt (data f) 0 &&& 0xd3 = 0x90)
    (hlast : octetAt (data f) ((data f).length - 1) = 0)
    (hrx : w'.rx = (wireOf (data f)).tail.map .octet ++ tail) (htail : Quiet tail)
    (hb : w'.blocks.head = true) (hw' : w'.writeErrors.head = none) :
    RoundTrips p' f (exec uart (receiveFrame p' (octetAt (wireOf (data f)) 0)) w') ↔
      9 ≤ (data f).length ∨ xorAll (data f) = 0xFF := by
  have hdrop : (data f).dropLast.length = (data f).length - 1 := List.length_dropLast
  obtain ⟨hsplit, hxor⟩ := split_last (f := f) (by omega) hlast
  obtain ⟨g, w'', hrun, hg⟩ := receiveFrame_wireOf p' hlen hl hln hctrl hrx htail hb hw'
  constructor
  · rintro ⟨g', w₁, hrun', -, -, -, hsame⟩
    rw [hrun] at hrun'
    cases hrun'
    by_cases hlong : 9 ≤ (data f).length
    · exact .inl hlong
    · right
      have hzero := (apci_eq_iff_of_short hsplit hg (by omega)).mp hsame.apci
      rw [hxor, ← complement_eq_zero_iff]
      exact hzero.symm
  · intro hcond
    refine ⟨g, w'', hrun, hg, ?_, ?_, ?_⟩
    · rw [hg, wireOf, List.dropLast_concat]
    · rw [hg, wireOf, List.length_append, hdrop, List.length_singleton]
      omega
    · refine sameHeader_of_apci p' hsplit hg (by omega) ?_
      by_cases hlong : 9 ≤ (data f).length
      · exact apci_eq_of_long hsplit hg (by omega)
      · rcases hcond with h | h
        · exact absurd h hlong
        · rw [hxor, ← complement_eq_zero_iff] at h
          exact (apci_eq_iff_of_short hsplit hg (by omega)).mpr h.symm

/-- `send_frame` puts a frame on the bus as `wireOf`, and the frame comes back with its
    header iff it has an APDU octet or its checksum happens to be the placeholder. -/
theorem sendFrame_roundTrip_iff (hlen : 8 ≤ (data f).length) (hlt : (data f).length ≤ 23)
    (hl : length p' f = .ok l) (hln : l.toNat = (data f).length)
    (hctrl : octetAt (data f) 0 &&& 0xd3 = 0x90)
    (hlast : octetAt (data f) ((data f).length - 1) = 0) (hw : WritesSucceed w)
    (hrx : w'.rx = (wireOf (data f)).tail.map .octet ++ tail) (htail : Quiet tail)
    (hb : w'.blocks.head = true) (hw' : w'.writeErrors.head = none) :
    ((∃ sent, (exec uart (sendFrame p (.standard f)) w).world.tx = w.tx ++ sent ∧
        ∀ buffer, chip buffer sent = [wireOf (data f)]) ∧
      RoundTrips p' f (exec uart (receiveFrame p' (octetAt (wireOf (data f)) 0)) w')) ↔
    9 ≤ (data f).length ∨ xorAll (data f) = 0xFF := by
  rw [roundTrips_iff p' hlen hl hln hctrl hlast hrx htail hb hw', and_iff_right_iff_imp]
  intro _
  have hlong : 2 ≤ (Frame.standard f).data.length := Nat.le_trans (by decide) hlen
  have hshort : (Frame.standard f).data.length ≤ 64 := Nat.le_trans hlt (by decide)
  refine ⟨_, exec_sendFrame_tx p (.standard f) hw hlong (Nat.le_succ_of_le hshort), ?_⟩
  intro buffer
  exact chip_sendFrame buffer (Nat.lt_of_lt_of_le (by decide) hlong) hshort hlast

/-- The T_ACK that the transport layer sends to 1.1.1. -/
def ackFrame : StandardFrame := ⟨⟨[0x90, 0x11, 0x78, 0x11, 0x01, 0x70, 0xC2, 0x00], by decide⟩⟩

theorem sendFrame_roundTrip_iff_ackFrame :
    ((∃ sent, (exec uart (sendFrame .dev (.standard ackFrame)) (.fresh [])).world.tx = [] ++ sent ∧
        ∀ buffer, chip buffer sent = [wireOf (data ackFrame)]) ∧
      RoundTrips .dev ackFrame (exec uart (receiveFrame .dev (octetAt (wireOf (data ackFrame)) 0))
        (.fresh ((wireOf (data ackFrame)).tail.map .octet ++ [.silence])))) ↔
    9 ≤ (data ackFrame).length ∨ xorAll (data ackFrame) = 0xFF :=
  sendFrame_roundTrip_iff .dev .dev (l := 8) (by decide) (by decide) rfl rfl (by decide) (by decide)
    (fun _ => rfl) (Line.fresh_rx (wireOf (data ackFrame)).tail) trivial rfl rfl

/-- The T_ACK is a frame of eight octets with the placeholder at its end, but `apci()` of the
    received one is not `apci()` of the one sent. -/
theorem ackFrame_not_roundTrips :
    (data ackFrame).length = 8 ∧ length .dev ackFrame = .ok 8 ∧
      octetAt (data ackFrame) 0 &&& 0xd3 = 0x90 ∧ octetAt (data ackFrame) 7 = 0 ∧
      ¬RoundTrips .dev ackFrame (exec uart (receiveFrame .dev (octetAt (wireOf (data ackFrame)) 0))
        (.fresh ((wireOf (data ackFrame)).tail.map .octet ++ [.silence]))) := by
  refine ⟨rfl, rfl, by decide, by decide, ?_⟩
  rw [roundTrips_iff .dev (l := 8) (by decide) rfl rfl (by decide) (by decide)
    (Line.fresh_rx (wireOf (data ackFrame)).tail) trivial rfl rfl]
  decide

end RoundTrip

end EmbassyKnx.Driver
