import EmbassyKnx.Transport.Step

/-!
# Encoding and decoding of transport TPDUs

The encoder ORs a base octet with three bits of the sequence number; the decoder
is the chain `individualService`. Its tests for T_ACK and T_NAK compare an octet
masked with `0x3c` to values outside that mask and never succeed.

* `stampData_eq`: the TPCI octet `send_data_A7` stamps on a frame.
* `tpdu_decodes_iff`: which of the TPDUs the transport layer emits are decoded as
  what they are.
-/

namespace EmbassyKnx.App

open Rust Heapless Octets Async Connection FrameLayout FrameReader FrameWriter

/-- The TPDUs the transport layer can emit on a connection. -/
inductive Tpdu
  | ack
  | nak
  | disconnect
  | dataConnected
  deriving DecidableEq, Repr

/-- The service a TPDU is to be decoded as. -/
def Tpdu.service : Tpdu → ConnectionService
  | .ack => .ack
  | .nak => .nak
  | .disconnect => .disconnect
  | .dataConnected => .dataConnected

/-- The sequence number a TPDU carries when `s` is encoded. -/
def Tpdu.number (s : UInt8) : Tpdu → UInt8
  | .disconnect => 0
  | _ => s

/-- `x` returns with the frame `f` put into `FRAME_CHANNEL_RX`. -/
def Emits (x : Task (FrameResult Unit)) (w : Station) (f : Frame) : Prop :=
  ∃ w', exec app x w = .returned (.ok ()) w' ∧ w'.queued = w.queued ++ [f]

/-- The TPCI bits of a frame are clear. -/
def TpciClear (f : SizedFrame) : Prop := f.tpci &&& 0xFC = 0

/-- A frame that the transport layer emits for a TPDU to `dst` with sequence number `s`. -/
def Tpdu.Emitted (p : Profile) (dst : IndividualAddress) (s : UInt8) (f : Frame) : Tpdu → Prop
  | .ack => ∃ w, Emits (sendResponseFrame p dst s 0xc2) w f
  | .nak => ∃ w, Emits (sendResponseFrame p dst s 0xc3) w f
  | .disconnect => ∃ w, Emits (sendResponseFrame p dst 0 0x81) w f
  | .dataConnected => ∃ (w : Station) (g : SizedFrame), w.connection.srcAddr = some dst ∧
      w.connection.seqNoSend = s ∧ TpciClear g ∧ Emits (sendDataA7 p g.frame) w f

/-- `receive_ind` classifies the frame as `service`, and `tpci_seq()` reads `number` from
    it. -/
def DecodesAs (f : Frame) (service : ConnectionService) (number : UInt8) : Prop :=
  individualService <$> f.tpci .eight = .ok (.connection service) ∧ f.tpciSeq = .ok number

/-! ## Decoding -/

/-- The tests for T_ACK and T_NAK never succeed. -/
theorem individualService_ne_ack (x : UInt8) :
    individualService x ≠ .connection .ack ∧ individualService x ≠ .connection .nak := by
  revert x
  exact forall_octet (by decide +kernel)

/-- A frame that is classified as `service` is handed to `handle_ind` as that. -/
theorem receiveInd_of_decodesAs (p : Profile) {f : Frame} {service : ConnectionService}
    {number : UInt8} (h : DecodesAs f service number) :
    receiveInd p (.dataIndividual f) = withBorrow (handleInd p (service.ind f)) := by
  obtain ⟨hservice, -⟩ := h
  rcases htpci : f.tpci .eight with why | tpci
  · rw [htpci] at hservice
    simp at hservice
  · rw [htpci] at hservice
    have hservice : individualService tpci = .connection service := Except.ok.inj hservice
    simp only [receiveInd, htpci, lift_ok_bind, hservice]

theorem decodesAs_iff (f : SizedFrame) (service : ConnectionService) (number : UInt8) :
    DecodesAs f.frame service number ↔
      individualService f.tpci = .connection service ∧ f.tpciSeq = number := by
  rw [DecodesAs, f.tpci_frame, f.tpciSeq_frame]
  exact and_congr ⟨Except.ok.inj, congrArg _⟩ ⟨Except.ok.inj, congrArg _⟩

/-! ## Responses -/

theorem emits_sendResponseFrame {p : Profile} {dst : IndividualAddress} {seq tpci : UInt8}
    {w : Station} {f : Frame} (h : Emits (sendResponseFrame p dst seq tpci) w f) :
    f = (sizedResponse dst seq tpci).frame := by
  obtain ⟨w', hrun, hqueued⟩ := h
  rw [exec_sendResponseFrame] at hrun
  split_ifs at hrun with hb
  · cases hrun
    exact (List.singleton_inj.mp (List.append_cancel_left hqueued)).symm
  · simp at hrun

/-! ## Stamped data -/

section Stamp

variable {T : Type} [FrameWriter T] [HeaderFits T] {f : T}

theorem setDstAddr_keepsTpci (h : headerLength T ≤ (data f).length) (addr : IndividualAddress) :
    ∃ f', FrameWriter.setDstAddr f (.individual addr) = .ok f' ∧ KeepsTpci f f' := by
  obtain ⟨f₁, hf₁, hkeep₁⟩ := modifyData_keepsTpci HeaderFits.atField_lt HeaderFits.atField_ne h
    (· ||| (AddressType.individual.toU8 <<< 7))
  have hoff : dstAddrOffset T + 1 < tpciOffset T := by
    simp [dstAddrOffset, tpciOffset, headerLength]
  obtain ⟨v, hv, hkeep⟩ := writeU16_keepsTpci (f := f₁) hoff (by rw [hkeep₁.1]; exact h) addr.addr
  refine ⟨ofBuf v, ?_, hkeep₁.trans hkeep⟩
  show (do
    let f ← setAddrType f .individual
    return ofBuf (← writeU16 addr.addr (buf f) (dstAddrOffset T))) = _
  rw [setAddrType, hf₁, ok_bind, hv]
  rfl

omit [HeaderFits T] in
theorem setSrcAddr_keepsTpci (h : headerLength T ≤ (data f).length) (addr : IndividualAddress) :
    ∃ f', FrameWriter.setSrcAddr f addr = .ok f' ∧ KeepsTpci f f' := by
  have hoff : srcAddrOffset T + 1 < tpciOffset T := by
    simp [srcAddrOffset, tpciOffset, headerLength]
  obtain ⟨v, hv, hkeep⟩ := writeU16_keepsTpci (f := f) hoff h addr.addr
  refine ⟨ofBuf v, ?_, hkeep⟩
  rw [FrameWriter.setSrcAddr, hv]
  rfl

omit [HeaderFits T] in
/-- Writing the TPCI octet. -/
theorem modifyTpci_eq (h : headerLength T ≤ (data f).length) (g : UInt8 → UInt8) :
    ∃ f', modifyData f (tpciOffset T) g = .ok f' ∧ (data f').length = (data f).length ∧
      tpciOf T (data f') = g (tpciOf T (data f)) := by
  have htpci : tpciOffset T < headerLength T := by simp [tpciOffset, headerLength]
  obtain ⟨f', hf', hdata⟩ := modifyData_eq (f := f) (i := tpciOffset T) (by omega) g
  refine ⟨f', hf', by rw [hdata, List.length_modify], ?_⟩
  rw [tpciOf, hdata, octetAt_modify _ _ (by omega), if_pos rfl, tpciOf]

/-- The writes of `send_data_A7` on a frame of one layout. -/
def stamp (addr : IndividualAddress) (s : UInt8) (f : T) : Panicking T := do
  let f ← FrameWriter.setDstAddr f (.individual addr)
  let f ← FrameWriter.setSrcAddr f ownAddress
  let f ← FrameWriter.setHopCount f 7
  let f ← FrameWriter.setTpci f .six 0x10
  FrameWriter.setTpciSeq f s

/-- The TPCI octet after stamping: the octet before with the base octet and the sequence
    number ORed in. -/
theorem stamp_eq (h : headerLength T ≤ (data f).length) (addr : IndividualAddress) (s : UInt8) :
    ∃ f', stamp addr s f = .ok f' ∧ (data f').length = (data f).length ∧
      tpciOf T (data f') = (tpciOf T (data f) ||| ((0x10 : UInt8) <<< 2)) ||| ((s &&& 0x7) <<< 2) := by
  obtain ⟨f₁, hf₁, hk₁⟩ := setDstAddr_keepsTpci h addr
  obtain ⟨f₂, hf₂, hk₂⟩ := setSrcAddr_keepsTpci (f := f₁) (by rw [hk₁.1]; exact h) ownAddress
  have hk₂ := hk₁.trans hk₂
  obtain ⟨f₃, hf₃, hk₃⟩ := modifyData_keepsTpci (f := f₂) HeaderFits.hopCountField_lt
    HeaderFits.hopCountField_ne (by rw [hk₂.1]; exact h) (· ||| (((7 : UInt8) &&& 0x7) <<< 4))
  have hk₃ := hk₂.trans hk₃
  obtain ⟨f₄, hf₄, hl₄, ht₄⟩ := modifyTpci_eq (f := f₃) (by rw [hk₃.1]; exact h)
    (· ||| ((0x10 : UInt8) <<< 2))
  obtain ⟨f₅, hf₅, hl₅, ht₅⟩ := modifyTpci_eq (f := f₄) (by rw [hl₄, hk₃.1]; exact h)
    (· ||| ((s &&& 0x7) <<< 2))
  refine ⟨f₅, ?_, by rw [hl₅, hl₄, hk₃.1], by rw [ht₅, ht₄, hk₃.2]⟩
  rw [stamp, hf₁, ok_bind, hf₂, ok_bind, FrameWriter.setHopCount, hf₃, ok_bind,
    FrameWriter.setTpci, hf₄, ok_bind]
  exact hf₅

end Stamp

/-- Stamping a `Frame` stamps the frame in it. -/
theorem stampData_frame {self : Connection} {addr : IndividualAddress}
    (hself : self.srcAddr = some addr) :
    (∀ f, stampData self (.standard f) = Frame.standard <$> stamp addr self.seqNoSend f) ∧
      ∀ f, stampData self (.extended f) = Frame.extended <$> stamp addr self.seqNoSend f := by
  constructor
  · intro f
    simp only [stampData, stamp, hself, Frame.setDstAddr, Frame.setSrcAddr, Frame.setHopCount,
      Frame.setTpci, Frame.setTpciSeq, Frame.write, LawfulMonad.bind_assoc, pure_bind, map_eq_pure_bind]
  · intro f
    simp only [stampData, stamp, hself, Frame.setDstAddr, Frame.setSrcAddr, Frame.setHopCount,
      Frame.setTpci, Frame.setTpciSeq, Frame.write, LawfulMonad.bind_assoc, pure_bind, map_eq_pure_bind]

/-- `stampData` on a frame that can be read. -/
theorem stampData_eq {self : Connection} {addr : IndividualAddress} (hself : self.srcAddr = some addr)
    (g : SizedFrame) : ∃ g' : SizedFrame, stampData self g.frame = .ok g'.frame ∧
      g'.tpci = (g.tpci ||| ((0x10 : UInt8) <<< 2)) ||| ((self.seqNoSend &&& 0x7) <<< 2) := by
  obtain ⟨frame | frame, hsized⟩ := g
  · obtain ⟨f', hf', hlen, htpci⟩ := stamp_eq hsized.standard addr self.seqNoSend
    have hsized' : (Frame.standard f').Sized := by
      show _ ≤ (data f').length
      rw [hlen]
      exact hsized
    exact ⟨⟨.standard f', hsized'⟩, by rw [(stampData_frame hself).1, hf']; rfl, htpci⟩
  · obtain ⟨f', hf', hlen, htpci⟩ := stamp_eq hsized.extended addr self.seqNoSend
    have hsized' : (Frame.extended f').Sized := by
      show _ ≤ (data f').length
      rw [hlen]
      exact hsized
    exact ⟨⟨.extended f', hsized'⟩, by rw [(stampData_frame hself).2, hf']; rfl, htpci⟩

/-- What `send_data_A7` puts into the queue is the stamped frame. -/
theorem emits_sendDataA7 {p : Profile} {g f : Frame} {w : Station} (h : Emits (sendDataA7 p g) w f) :
    stampData w.connection g = .ok f := by
  obtain ⟨w', hrun, hqueued⟩ := h
  rw [sendDataA7, exec_bind, exec_getConnection, Outcome.andThen_returned, exec_bind] at hrun
  rcases hstamp : stampData w.connection g with why | f'
  · rw [hstamp] at hrun
    simp at hrun
  · rw [hstamp, exec_lift_ok, Outcome.andThen_returned, exec_bind, exec_alloc,
      Outcome.andThen_returned, exec_bind] at hrun
    rcases htry : Frame.tryFrom p w.block f' with why | e | stored
    · rw [htry] at hrun
      simp at hrun
    · rw [htry] at hrun
      simp at hrun
    · rw [htry] at hrun
      cases hrun
      rw [List.singleton_inj.mp (List.append_cancel_left hqueued)]

/-! ## Round trips -/

/-- T_ACK and T_NAK are not decoded. -/
theorem response_not_decodesAs (dst : IndividualAddress) (seq tpci number : UInt8)
    {service : ConnectionService} (hs : service = .ack ∨ service = .nak) :
    ¬DecodesAs (sizedResponse dst seq tpci).frame service number := by
  rw [decodesAs_iff]
  rintro ⟨hservice, -⟩
  obtain ⟨hack, hnak⟩ := individualService_ne_ack (sizedResponse dst seq tpci).tpci
  rcases hs with rfl | rfl
  · exact hack hservice
  · exact hnak hservice

theorem disconnect_decodesAs (dst : IndividualAddress) :
    DecodesAs (sizedResponse dst 0 0x81).frame .disconnect 0 := by
  rw [decodesAs_iff, SizedFrame.tpciSeq, sizedResponse_tpci]
  decide

/-- A stamped data frame is decoded as one; its sequence number is read back up to three
    bits. -/
theorem stamped_decodesAs_iff {f g : SizedFrame} {s : UInt8} (hclear : TpciClear g)
    (hf : f.tpci = (g.tpci ||| ((0x10 : UInt8) <<< 2)) ||| ((s &&& 0x7) <<< 2)) (hs : s < 16) :
    DecodesAs f.frame .dataConnected s ↔ s < 8 := by
  have hlow : ∀ x : UInt8, x &&& 0xFC = 0 → x ∈ [(0 : UInt8), 1, 2, 3] :=
    forall_octet (by decide +kernel)
  have hbits : ∀ s : UInt8, ∀ x ∈ [(0 : UInt8), 1, 2, 3], s < 16 →
      individualService ((x ||| ((0x10 : UInt8) <<< 2)) ||| ((s &&& 0x7) <<< 2)) =
        .connection .dataConnected ∧
      ((((x ||| ((0x10 : UInt8) <<< 2)) ||| ((s &&& 0x7) <<< 2)) >>> 2) &&& 0x7 = s ↔ s < 8) :=
    forall_octet (by decide +kernel)
  obtain ⟨hservice, hseq⟩ := hbits s g.tpci (hlow _ hclear) hs
  rw [decodesAs_iff, SizedFrame.tpciSeq, hf, hseq]
  exact and_iff_right hservice

/-- Of the TPDUs the transport layer emits, T_Disconnect is decoded as what it is, and
    T_Data_Connected with the sequence numbers below eight; nothing else is. -/
theorem tpdu_decodes_iff (p : Profile) (t : Tpdu) (dst : IndividualAddress) {s : UInt8} {f : Frame}
    (hs : s < 16) (hf : t.Emitted p dst s f) :
    DecodesAs f t.service (t.number s) ↔ t = .disconnect ∨ t = .dataConnected ∧ s < 8 := by
  cases t with
  | ack =>
    obtain ⟨w, hw⟩ := hf
    rw [emits_sendResponseFrame hw]
    simp [Tpdu.service, response_not_decodesAs]
  | nak =>
    obtain ⟨w, hw⟩ := hf
    rw [emits_sendResponseFrame hw]
    simp [Tpdu.service, response_not_decodesAs]
  | disconnect =>
    obtain ⟨w, hw⟩ := hf
    rw [emits_sendResponseFrame hw]
    exact iff_of_true (disconnect_decodesAs dst) (.inl rfl)
  | dataConnected =>
    obtain ⟨w, g, hsrc, hseq, hclear, hw⟩ := hf
    obtain ⟨g', hstamp, htpci⟩ := stampData_eq hsrc g
    rw [emits_sendDataA7 hw] at hstamp
    rw [Except.ok.inj hstamp]
    rw [hseq] at htpci
    rw [show (Tpdu.dataConnected.service) = .dataConnected from rfl,
      show (Tpdu.dataConnected.number s) = s from rfl, stamped_decodesAs_iff hclear htpci hs]
    simp

/-- A device descriptor response as the application hands it down. -/
def descriptorResponse : SizedFrame where
  frame := .standard ⟨⟨[0xB0, 0x00, 0x00, 0x00, 0x00, 0x03, 0x03, 0x40, 0x07, 0xB0, 0x00], by decide⟩⟩
  sized := by decide

theorem tpdu_decodes_iff_descriptorResponse :
    ∃ f, Tpdu.dataConnected.Emitted .dev ⟨0x1101⟩ 3 f ∧
      (DecodesAs f Tpdu.dataConnected.service (Tpdu.dataConnected.number 3) ↔
        Tpdu.dataConnected = .disconnect ∨ Tpdu.dataConnected = .dataConnected ∧ (3 : UInt8) < 8) :=
  have hf : Tpdu.dataConnected.Emitted .dev ⟨0x1101⟩ 3
      (.standard ⟨⟨[0xB0, 0x11, 0x78, 0x11, 0x01, 0x73, 0x4F, 0x40, 0x07, 0xB0, 0x00], by decide⟩⟩) :=
    ⟨⟨{ Connection.new with srcAddr := some ⟨0x1101⟩, seqNoSend := 3 }, false, true, [], []⟩,
      descriptorResponse, rfl, rfl, rfl, _, rfl, rfl⟩
  ⟨_, hf, tpdu_decodes_iff .dev .dataConnected ⟨0x1101⟩ (by decide) hf⟩

/-- The T_ACK for sequence number 0 to 1.1.1 is not decoded. -/
theorem ack_not_decoded : ∃ f, Tpdu.ack.Emitted .dev ⟨0x1101⟩ 0 f ∧
    ¬DecodesAs f Tpdu.ack.service (Tpdu.ack.number 0) := by
  refine ⟨_, ⟨⟨.new, false, true, [], []⟩, _, rfl, rfl⟩, ?_⟩
  exact response_not_decodesAs _ _ _ _ (.inl rfl)

end EmbassyKnx.App
