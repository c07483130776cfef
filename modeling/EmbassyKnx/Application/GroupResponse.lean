import EmbassyKnx.Application.Services
import EmbassyKnx.Driver.Transmit
import EmbassyKnx.Transport.Borrow

/-!
# A group value response through the whole stack

`GroupReadResponse::to_transport` and `DataGroupReq::info_frame` build a frame by
OR-ing ten fields into a frame of zeroes; `groupResponse` is what comes out of it.
Sent by one device and received by another, every field is read back.

* `infoFrame_toTransport`: the octets of the frame.
* `groupResponse_delivered`: what the receiving device makes of them.
-/

namespace EmbassyKnx.App

open Rust Heapless Octets Async Driver FrameLayout FrameReader

/-! ## Setters on the octets of a frame -/

section Setters

variable {f : StandardFrame} {u back : List UInt8} {x y : UInt8}

/-- Setting the octet behind `u`. -/
theorem modifyData_append (h : data f = u ++ x :: back) (g : UInt8 → UInt8) :
    ∃ f', FrameWriter.modifyData f u.length g = .ok f' ∧ data f' = u ++ g x :: back := by
  obtain ⟨v, hv, hl⟩ := Vec.modifyAt_append h g
  refine ⟨⟨v⟩, ?_, hl⟩
  rw [FrameWriter.modifyData, hv]
  rfl

/-- Writing an address behind `u`. -/
theorem writeU16_append (h : data f = u ++ x :: y :: back) (w : UInt16) :
    ∃ v, writeU16 w (buf f) u.length = .ok v ∧
      v.toList = u ++ (w >>> 8).toUInt8 :: (w &&& 0xFF).toUInt8 :: back := by
  obtain ⟨v₁, hv₁, hl₁⟩ := Vec.modifyAt_append h fun _ => (w >>> 8).toUInt8
  rw [← List.singleton_append, ← List.append_assoc] at hl₁
  obtain ⟨v₂, hv₂, hl₂⟩ := Vec.modifyAt_append hl₁ fun _ => (w &&& 0xFF).toUInt8
  rw [List.length_append, List.length_singleton] at hv₂
  refine ⟨v₂, ?_, ?_⟩
  · rw [writeU16, Vec.setAt, hv₁]
    exact hv₂
  · rw [hl₂, List.append_assoc, List.singleton_append]

theorem write_standard {set : {T : Type} → [FrameWriter T] → T → Panicking T} {f f' : StandardFrame}
    (h : set f = .ok f') : (Frame.standard f).write set = .ok (.standard f') := by
  rw [Frame.write, h]
  rfl

variable {c s₁ s₂ d₁ d₂ l t a : UInt8} (h : data f = c :: s₁ :: s₂ :: d₁ :: d₂ :: l :: t :: a :: back)

include h

theorem setApci_octets : ∃ f', FrameWriter.setApci f .four 0x1 = .ok f' ∧
    data f' = c :: s₁ :: s₂ :: d₁ :: d₂ :: l :: t :: (a ||| 0x40) :: back := by
  obtain ⟨f₁, hf₁, hdata₁⟩ := modifyData_append (u := [c, s₁, s₂, d₁, d₂, l]) h
    (· ||| ((0x1 : UInt16) >>> 2).toUInt8)
  obtain ⟨f₂, hf₂, hdata₂⟩ := modifyData_append (u := [c, s₁, s₂, d₁, d₂, l, _]) hdata₁
    (· ||| (((0x1 : UInt16) &&& 0x3) <<< 6).toUInt8)
  have hsplit : FrameWriter.setApci f .four 0x1 =
      FrameWriter.modifyData f 6 (· ||| ((0x1 : UInt16) >>> 2).toUInt8) >>= fun f =>
        FrameWriter.modifyData f 7 (· ||| (((0x1 : UInt16) &&& 0x3) <<< 6).toUInt8) := rfl
  refine ⟨f₂, ?_, ?_⟩
  · rw [hsplit, show FrameWriter.modifyData f 6 _ = _ from hf₁]
    exact hf₂
  · have hzero : ((0x1 : UInt16) >>> 2).toUInt8 = 0 := by decide
    rw [hdata₂, hzero, UInt8.or_zero]
    rfl

theorem setPriority_octets (priority : Priority) : ∃ f', FrameWriter.setPriority f priority = .ok f' ∧
    data f' = (c ||| (priority.toU8 <<< 2)) :: s₁ :: s₂ :: d₁ :: d₂ :: l :: t :: a :: back :=
  modifyData_append (u := []) h _

theorem setHopCount_octets (hopCount : UInt8) : ∃ f', FrameWriter.setHopCount f hopCount = .ok f' ∧
    data f' = c :: s₁ :: s₂ :: d₁ :: d₂ :: (l ||| ((hopCount &&& 0x7) <<< 4)) :: t :: a :: back :=
  modifyData_append (u := [c, s₁, s₂, d₁, d₂]) h _

theorem setTpci_six_octets (val : UInt8) : ∃ f', FrameWriter.setTpci f .six val = .ok f' ∧
    data f' = c :: s₁ :: s₂ :: d₁ :: d₂ :: l :: (t ||| (val <<< 2)) :: a :: back :=
  modifyData_append (u := [c, s₁, s₂, d₁, d₂, l]) h _

theorem setSrcAddr_octets (addr : IndividualAddress) : ∃ f', FrameWriter.setSrcAddr f addr = .ok f' ∧
    data f' = c :: (addr.addr >>> 8).toUInt8 :: (addr.addr &&& 0xFF).toUInt8 :: d₁ :: d₂ :: l :: t ::
      a :: back := by
  obtain ⟨v, hv, hl⟩ := writeU16_append (u := [c]) h addr.addr
  refine ⟨⟨v⟩, ?_, hl⟩
  show (writeU16 addr.addr (buf f) 1 >>= _) = _
  rw [show writeU16 addr.addr (buf f) 1 = _ from hv]
  rfl

theorem setDstAddr_group_octets (addr : GroupAddress) :
    ∃ f', FrameWriter.setDstAddr f (.group addr) = .ok f' ∧
      data f' = c :: s₁ :: s₂ :: (addr.addr >>> 8).toUInt8 :: (addr.addr &&& 0xFF).toUInt8 ::
        (l ||| 0x80) :: t :: a :: back := by
  obtain ⟨f₁, hf₁, hdata₁⟩ := modifyData_append (u := [c, s₁, s₂, d₁, d₂]) h
    (· ||| (AddressType.group.toU8 <<< 7))
  obtain ⟨v, hv, hl⟩ := writeU16_append (u := [c, s₁, s₂]) hdata₁ addr.addr
  refine ⟨⟨v⟩, ?_, hl⟩
  show (FrameWriter.setAddrType f .group >>= _) = _
  rw [show FrameWriter.setAddrType f .group = _ from hf₁, ok_bind]
  show (writeU16 addr.addr (buf f₁) 3 >>= _) = _
  rw [show writeU16 addr.addr (buf f₁) 3 = _ from hv]
  rfl

end Setters

/-! ## The frame -/

/-- The octets of a group value response to `g`. -/
def groupResponse (d : DataPoint) (priority : Priority) (g : GroupAddress) : List UInt8 :=
  [(0x90 : UInt8) ||| (priority.toU8 <<< 2), 0x11, 0x78, (g.addr >>> 8).toUInt8,
    (g.addr &&& 0xFF).toUInt8, (0xF0 : UInt8) ||| UInt8.ofNat (d.trailing.length + 1), 0,
    d.lowBits ||| 0x40] ++ d.trailing ++ [0]

/-- The setters of the application layer and of the transport layer build a frame from any
    response. -/
theorem exists_infoFrame (p : Profile) (resp : GroupReadResponse) (tsap : UInt8)
    (g : GroupAddress) : ∃ (req : DataGroupReq) (f : StandardFrame),
      resp.toTransport p true tsap = .ok (.ok req) ∧ req.infoFrame g = .ok (.standard f) ∧
        data f = [(0x90 : UInt8) ||| (resp.priority.toU8 <<< 2), 0x11, 0x78,
          (g.addr >>> 8).toUInt8, (g.addr &&& 0xFF).toUInt8,
          UInt8.ofNat (resp.data.trailing.length + 1) ||| ((resp.hopCount &&& 0x7) <<< 4) ||| 0x80,
          0, resp.data.lowBits ||| 0x40] ++ resp.data.trailing ++ [0] := by
  obtain ⟨f, hf, hdata⟩ := fromDatapoint_eq p resp.data
  obtain ⟨f₁, hf₁, hdata⟩ := setApci_octets hdata
  obtain ⟨f₂, hf₂, hdata⟩ := setPriority_octets hdata resp.priority
  obtain ⟨f₃, hf₃, hdata⟩ := setHopCount_octets hdata resp.hopCount
  obtain ⟨f₄, hf₄, hdata⟩ := setDstAddr_group_octets hdata g
  obtain ⟨f₅, hf₅, hdata⟩ := setSrcAddr_octets hdata ownAddress
  obtain ⟨f₆, hf₆, hdata⟩ := setTpci_six_octets hdata 0x0
  have hapci : (Frame.standard f).setApci .four 0x1 = .ok (.standard f₁) := write_standard hf₁
  have hpriority : (Frame.standard f₁).setPriority resp.priority = .ok (.standard f₂) :=
    write_standard hf₂
  have hhop : (Frame.standard f₂).setHopCount resp.hopCount = .ok (.standard f₃) :=
    write_standard hf₃
  have hdst : (Frame.standard f₃).setDstAddr (.group g) = .ok (.standard f₄) := write_standard hf₄
  have hsrc : (Frame.standard f₄).setSrcAddr ownAddress = .ok (.standard f₅) := write_standard hf₅
  have htpci : (Frame.standard f₅).setTpci .six 0x0 = .ok (.standard f₆) := write_standard hf₆
  refine ⟨⟨tsap, .standard f₃⟩, f₆, ?_, ?_, hdata⟩
  · simp only [GroupReadResponse.toTransport, hf, ok_bind, hapci, hpriority, hhop]
    rfl
  · simp only [DataGroupReq.infoFrame, hdst, hsrc, htpci, ok_bind]

theorem infoFrame_toTransport (p : Profile) (asap tsap : UInt8) (d : DataPoint)
    (priority : Priority) (g : GroupAddress) : ∃ (req : DataGroupReq) (f : StandardFrame),
      (GroupReadResponse.new asap d priority).toTransport p true tsap = .ok (.ok req) ∧
        req.infoFrame g = .ok (.standard f) ∧ data f = groupResponse d priority g := by
  obtain ⟨req, f, hreq, hinfo, hdata⟩ := exists_infoFrame p (.new asap d priority) tsap g
  refine ⟨req, f, hreq, hinfo, ?_⟩
  have hlength : ∀ n ≤ 1, UInt8.ofNat (n + 1) ||| (((7 : UInt8) &&& 0x7) <<< 4) ||| 0x80 =
      (0xF0 : UInt8) ||| UInt8.ofNat (n + 1) := by
    decide
  simp only [hdata, GroupReadResponse.new, hlength _ d.trailing_length_le]
  rfl

/-- The arm of `run` panics without a block, and sends a frame with one. -/
theorem respond_alloc (p : Profile) (res : ApplicationServiceRes) :
    ∃ resume frame, respond p res = .perform .alloc resume ∧
      resume false = .panicked .explicit ∧ resume true = dataLinkSend frame := by
  obtain ⟨resp⟩ := res
  obtain ⟨req, f, hreq, hinfo, -⟩ := exists_infoFrame p resp 0 (.fromParts 1 1 98)
  refine ⟨_, .standard f, rfl, ?_, ?_⟩
  · show (liftM (resp.toTransport p false 0) >>= _ : Task Unit) = _
    rw [GroupReadResponse.toTransport_false]
    rfl
  · show (liftM (resp.toTransport p true 0) >>= _ : Task Unit) = _
    rw [hreq]
    show (liftM (req.infoFrame (.fromParts 1 1 98)) >>= _ : Task Unit) = _
    rw [hinfo]
    rfl

/-! ## Reading it -/

/-- The value does not reach into the APCI bits. -/
theorem lowBits_and (d : DataPoint) : d.lowBits &&& 0xFC = 0 := by
  have hbits : ∀ x : UInt8, (x &&& 0x1) &&& 0xFC = 0 ∧ (x &&& 0x3) &&& 0xFC = 0 :=
    forall_octet (by decide +kernel)
  cases d with
  | b1 d => exact (hbits d.data).1
  | b2 d => exact (hbits d.data).2
  | u8 d => exact (hbits 0).1

/-- The value bits of a data point in a received frame. -/
def Carries (octets : List UInt8) : DataPoint → Prop
  | .b1 d => octetAt octets 7 &&& 0x3F = d.data &&& 0x1
  | .b2 d => octetAt octets 7 &&& 0x3F = d.data &&& 0x3
  | .u8 d => octetAt octets 8 = d.data

section Read

variable {f : StandardFrame} {d : DataPoint} {priority : Priority} {g : GroupAddress}
  (hf : data f = groupResponse d priority g)

include hf

theorem groupResponse_length (p : Profile) : (data f).length = d.trailing.length + 9 ∧
    ∃ n, length p f = .ok n ∧ n.toNat = (data f).length := by
  have hlen : (data f).length = d.trailing.length + 9 := by
    rw [hf, groupResponse]
    simp
  have hfive : octetAt (data f) 5 = (0xF0 : UInt8) ||| UInt8.ofNat (d.trailing.length + 1) := by
    rw [hf]
    rfl
  have hnibble : ∀ n ≤ 1, (((0xF0 : UInt8) ||| UInt8.ofNat (n + 1)) &&& 0x0F).toNat + 8 = n + 9 := by
    decide
  refine ⟨hlen, _, standard_length_eq p (by omega), ?_⟩
  rw [standard_length_toNat, hfive, hnibble _ d.trailing_length_le, hlen]

theorem groupResponse_start : octetAt (data f) 0 &&& 0xd3 = 0x90 := by
  rw [hf]
  show ((0x90 : UInt8) ||| (priority.toU8 <<< 2)) &&& 0xd3 = 0x90
  cases priority <;> decide

theorem groupResponse_last : octetAt (data f) ((data f).length - 1) = 0 := by
  have hlen : groupResponse d priority g = (groupResponse d priority g).dropLast ++ [0] := by
    rw [groupResponse, List.dropLast_concat]
  rw [hf, hlen]
  simp [octetAt]

theorem groupResponse_srcAddr : srcAddr f = .ok ownAddress := by
  have hlen := (groupResponse_length hf .dev).1
  have hown : ((0x11 : UInt8).toUInt16 <<< 8) ||| (0x78 : UInt8).toUInt16 = ownAddress.addr := by
    decide
  rw [srcAddr_eq (by show 7 ≤ _; omega), hf]
  exact congrArg (fun addr => Except.ok (IndividualAddress.mk addr)) hown

theorem groupResponse_dstAddr : dstAddr f = .ok (.group g) := by
  have hlen := (groupResponse_length hf .dev).1
  have hkind : ∀ n ≤ 1,
      AddressType.ofU8 (((0xF0 : UInt8) ||| UInt8.ofNat (n + 1)) >>> 7) = .group := by
    decide
  have hat : octetAt (data f) (atField StandardFrame) =
      (0xF0 : UInt8) ||| UInt8.ofNat (d.trailing.length + 1) := by
    rw [hf]
    rfl
  have hword : wordAt (data f) (dstAddrOffset StandardFrame) = g.addr := by
    rw [hf]
    exact u16_of_octets g.addr
  rw [dstAddr_eq (by show 7 ≤ _; omega), dstAddrOf, hat, hkind _ d.trailing_length_le, hword]

theorem groupResponse_priority : FrameReader.priority f = .ok priority := by
  have hlen := (groupResponse_length hf .dev).1
  have hctrl : octetAt (data f) ctrl = (0x90 : UInt8) ||| (priority.toU8 <<< 2) := by
    rw [hf]
    rfl
  rw [FrameReader.priority, index_eq_octetAt (by show 0 < _; omega), hctrl]
  cases priority <;> rfl

theorem groupResponse_hopCount : hopCount f = .ok 7 := by
  have hlen := (groupResponse_length hf .dev).1
  have hhop : octetAt (data f) (hopCountField StandardFrame) =
      (0xF0 : UInt8) ||| UInt8.ofNat (d.trailing.length + 1) := by
    rw [hf]
    rfl
  have hseven : ∀ n ≤ 1, ((((0xF0 : UInt8) ||| UInt8.ofNat (n + 1)) >>> 4) &&& 0x7) = 7 := by
    decide
  rw [hopCount, index_eq_octetAt (by show 5 < _; omega), hhop]
  exact congrArg Except.ok (hseven _ d.trailing_length_le)

theorem groupResponse_tpci (bits : TpciBits) : tpci f bits = .ok 0 := by
  have hlen := (groupResponse_length hf .dev).1
  have hzero : tpciOf StandardFrame (data f) = 0 := by
    rw [hf]
    rfl
  cases bits with
  | six => rw [tpci_six_eq (by show 7 ≤ _; omega), hzero]; rfl
  | eight => rw [tpci_eight_eq (by show 7 ≤ _; omega), hzero]

theorem groupResponse_apci : apci f .four = .ok 1 := by
  have hlen := (groupResponse_length hf .dev).1
  have hhi : octetAt (data f) (apciOffset StandardFrame) = 0 := by
    rw [hf]
    rfl
  have hlo : octetAt (data f) (apciOffset StandardFrame + 1) = d.lowBits ||| 0x40 := by
    rw [hf]
    rfl
  have hone : ∀ x : UInt8, x &&& 0xFC = 0 →
      ((((0 : UInt8).toUInt16 &&& 0x3) <<< 8) ||| (x ||| 0x40).toUInt16) >>> 6 = 1 :=
    forall_octet (by decide +kernel)
  rw [apci, index_eq_octetAt (by show 6 < _; omega), index_eq_octetAt (by show 7 < _; omega), hhi, hlo]
  exact congrArg Except.ok (hone _ (lowBits_and d))

/-- The value is in the octets in u of the checksum. -/
theorem groupResponse_carries : Carries (data f).dropLast d := by
  have hvalue : ∀ x : UInt8, x &&& 0xFC = 0 → (x ||| 0x40) &&& 0x3F = x :=
    forall_octet (by decide +kernel)
  rw [hf, groupResponse, List.dropLast_concat]
  cases d with
  | b1 d => exact hvalue _ (lowBits_and (.b1 d))
  | b2 d => exact hvalue _ (lowBits_and (.b2 d))
  | u8 d => rfl

end Read

theorem Carries.concat {octets : List UInt8} {d : DataPoint} (h : Carries octets d)
    (hlen : 8 + d.trailing.length ≤ octets.length) (x : UInt8) : Carries (octets ++ [x]) d := by
  cases d with
  | b1 d =>
    have hlt : 7 < octets.length := hlen
    show octetAt (octets ++ [x]) 7 &&& 0x3F = _
    rw [octetAt_append_left hlt]
    exact h
  | b2 d =>
    have hlt : 7 < octets.length := hlen
    show octetAt (octets ++ [x]) 7 &&& 0x3F = _
    rw [octetAt_append_left hlt]
    exact h
  | u8 d =>
    have hlt : 8 < octets.length := hlen
    show octetAt (octets ++ [x]) 8 = _
    rw [octetAt_append_left hlt]
    exact h

/-! ## The whole way -/

/-- The frame is ready for `send_frame`. -/
structure ReadyToSend (p : Profile) (f : StandardFrame) : Prop where
  length_eq : ∃ n, length p f = .ok n ∧ n.toNat = (data f).length
  start : isFrameStart (octetAt (data f) 0) = true
  placeholder : octetAt (data f) ((data f).length - 1) = 0

/-- What the receiving device reads in a group value response. -/
structure ReadsResponse (p : Profile) (d : DataPoint) (priority : Priority) (g : GroupAddress)
    (h : Frame) : Prop where
  ind : ∀ w, exec app (receiveArm p (.inl h)) w = .returned (.ok (some (.dataGroup h))) w
  dstAddr : h.dstAddr = .ok (.group g)
  srcAddr : h.srcAddr = .ok ownAddress
  priority : h.priority = .ok priority
  hopCount : h.hopCount = .ok 7
  tpci : ∀ bits, h.tpci bits = .ok 0
  apci : h.apci .four = .ok 1
  carries : Carries h.data d

/-- A frame with the header and the octets of a response is read as one. -/
theorem readsResponse_of_sameHeader (p : Profile) {f h : StandardFrame} {d : DataPoint}
    {priority : Priority} {g : GroupAddress} (hg : g ≠ ⟨0⟩)
    (hf : data f = groupResponse d priority g) (hdata : data h = wireOf (data f))
    (hsame : SameHeader p f h) : ReadsResponse p d priority g (.standard h) := by
  have hlen := (groupResponse_length hf p).1
  have hdrop : (data f).dropLast.length = (data f).length - 1 := List.length_dropLast
  have hhlen : (data h).length = (data f).length := by
    rw [hdata, wireOf, List.length_append, List.length_singleton]
    omega
  have hdst : FrameReader.dstAddr h = .ok (.group g) := hsame.dstAddr.trans (groupResponse_dstAddr hf)
  have htpci : ∀ bits, FrameReader.tpci h bits = .ok 0 := fun bits =>
    (hsame.tpci bits).trans (groupResponse_tpci hf bits)
  let sized : SizedFrame := ⟨.standard h, by show 8 ≤ (data h).length; omega⟩
  refine ⟨?_, hdst, hsame.srcAddr.trans (groupResponse_srcAddr hf),
    hsame.priority.trans (groupResponse_priority hf), hsame.hopCount.trans (groupResponse_hopCount hf), htpci,
    (hsame.apci .four).trans (groupResponse_apci hf), ?_⟩
  · intro w
    have hgroup : sized.dstAddr = .group g := Except.ok.inj (sized.dstAddr_frame.symm.trans hdst)
    have hzero : sized.tpci = 0 := Except.ok.inj (sized.tpci_frame.symm.trans (htpci .eight))
    have hrun := exec_receiveArm_group p hgroup hg w
    rw [groupResult, hzero] at hrun
    exact hrun
  · show Carries (data h) d
    rw [hdata, wireOf]
    exact (groupResponse_carries hf).concat (by omega) _

/-- A group value response survives the whole stack: built from any data point by the layers
    of one device and sent by its driver, it is received by the driver of another device and
    read there with all its fields. -/
theorem groupResponse_delivered (p p' : Profile) (asap tsap : UInt8) (d : DataPoint)
    (priority : Priority) {g : GroupAddress} (hg : g ≠ ⟨0⟩) :
    ∃ (req : DataGroupReq) (f : StandardFrame),
      (GroupReadResponse.new asap d priority).toTransport p true tsap = .ok (.ok req) ∧
        req.infoFrame g = .ok (.standard f) ∧ ReadyToSend p f ∧
        (∀ w, WritesSucceed w → ∃ sent,
          (exec uart (sendFrame p (.standard f)) w).world.tx = w.tx ++ sent ∧
            ∀ buffer, chip buffer sent = [wireOf (data f)]) ∧
        ∀ (w : Line) (tail : List LineEvent), w.rx = (wireOf (data f)).tail.map .octet ++ tail →
          Quiet tail → w.blocks.head = true → w.writeErrors.head = none →
          ∃ (h : Frame) (w' : Line),
            exec uart (receiveFrame p' (octetAt (wireOf (data f)) 0)) w = .returned (.ok h) w' ∧
              ReadsResponse p' d priority g h := by
  obtain ⟨req, f, hreq, hinfo, hf⟩ := infoFrame_toTransport p asap tsap d priority g
  obtain ⟨hlen, n, hn, hnlen⟩ := groupResponse_length hf p
  obtain ⟨-, n', hn', hnlen'⟩ := groupResponse_length hf p'
  have hle := d.trailing_length_le
  have hstart := groupResponse_start hf
  have hlast := groupResponse_last hf
  refine ⟨req, f, hreq, hinfo, ⟨⟨n, hn, hnlen⟩, ?_, hlast⟩, ?_, ?_⟩
  · unfold isFrameStart
    rw [show octetAt (data f) 0 &&& frameTypeMask = 0x90 from hstart]
    decide
  · intro w hw
    have hlong : 2 ≤ (Frame.standard f).data.length :=
      Nat.le_trans (Nat.le_trans (by decide) (Nat.le_add_left 9 _)) (Nat.le_of_eq hlen.symm)
    have hshort : (Frame.standard f).data.length ≤ 64 := by
      show (data f).length ≤ 64
      omega
    refine ⟨_, exec_sendFrame_tx p (.standard f) hw hlong (Nat.le_succ_of_le hshort), ?_⟩
    intro buffer
    exact chip_sendFrame buffer (Nat.lt_of_lt_of_le (by decide) hlong) hshort hlast
  · intro w tail hrx htail hb hw
    obtain ⟨h, w', hrun, hdata, -, -, hsame⟩ :=
      (roundTrips_iff p' (by omega) hn' hnlen' hstart hlast hrx htail hb hw).mpr (.inl (by omega))
    exact ⟨.standard h, w', hrun, readsResponse_of_sameHeader p' hg hf hdata hsame⟩

/-- `true` to 1/1/98, as `main` sends it. -/
theorem groupResponse_delivered_true :
    ∃ (req : DataGroupReq) (f : StandardFrame),
      (GroupReadResponse.new 0 (.b1 (.new true)) .normal).toTransport .dev true 0 = .ok (.ok req) ∧
        req.infoFrame (.fromParts 1 1 98) = .ok (.standard f) ∧ ReadyToSend .dev f ∧
        (∀ w, WritesSucceed w → ∃ sent,
          (exec uart (sendFrame .dev (.standard f)) w).world.tx = w.tx ++ sent ∧
            ∀ buffer, chip buffer sent = [wireOf (data f)]) ∧
        ∀ (w : Line) (tail : List LineEvent), w.rx = (wireOf (data f)).tail.map .octet ++ tail →
          Quiet tail → w.blocks.head = true → w.writeErrors.head = none →
          ∃ (h : Frame) (w' : Line),
            exec uart (receiveFrame .dev (octetAt (wireOf (data f)) 0)) w = .returned (.ok h) w' ∧
              ReadsResponse .dev (.b1 (.new true)) .normal (.fromParts 1 1 98) h :=
  groupResponse_delivered .dev .dev 0 0 (.b1 (.new true)) .normal (g := .fromParts 1 1 98) (by decide)

end EmbassyKnx.App
