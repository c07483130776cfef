import EmbassyKnx.Application.Services
import EmbassyKnx.Driver.Faults
import EmbassyKnx.Transport.Borrow

/-!
# Recognising a group read

The decision that a frame is an A_GroupValue_Read is spread over the network layer
(address), the transport layer (TPCI) and the application layer (APCI). The last
reads the APCI at a fixed offset: in a frame of eight octets, which has no second
APCI octet, that is the checksum.

* `indicates_iff`: the test that the layers make of a standard frame.
* `indicates_readRequest_iff`: where it is the test for a group read.
-/

namespace EmbassyKnx.App

open Rust Octets Async Driver FrameLayout FrameReader

/-! ## What `ApplicationLayer::receive` emits -/

/-- An environment that takes every indication, and records it. -/
def upper : Handler applicationSig (List ApplicationServiceInd)
  | .txSend ind, w => some ((), w ++ [ind])

/-- The frame, received by the station, makes `ApplicationLayer::receive` emit `ind`. -/
def Indicates (p : Profile) (frame : Frame) (w : Station) (ind : ApplicationServiceInd) : Prop :=
  ∃ r w' res, exec app (receiveArm p (.inl frame)) w = .returned r w' ∧
    turnResult r = some res ∧ exec upper (applicationReceive res) [] = .returned () [ind]

/-! ## The four APCI bits -/

theorem apci_four_eq_zero_iff (x y : UInt8) :
    (((x.toUInt16 &&& 0x3) <<< 8) ||| y.toUInt16) >>> 6 = 0 ↔ x &&& 0x3 = 0 ∧ y >>> 6 = 0 := by
  have hx : x.toNat &&& 3 = x.toNat % 4 := Nat.and_two_pow_sub_one_eq_mod x.toNat 2
  have hy := y.toNat_lt
  have hjoin : (x.toNat % 4) * 256 ||| y.toNat = x.toNat % 4 * 256 + y.toNat := by
    rw [show x.toNat % 4 * 256 = (x.toNat % 4) <<< 8 by rw [Nat.shiftLeft_eq],
      ← Nat.shiftLeft_add_eq_or_of_lt (by omega : y.toNat < 2 ^ 8)]
  rw [← UInt16.toNat_inj, ← UInt8.toNat_inj, ← UInt8.toNat_inj]
  simp only [UInt16.toNat_shiftRight, UInt16.toNat_or, UInt16.toNat_shiftLeft, UInt16.toNat_and,
    UInt8.toNat_toUInt16, UInt8.toNat_and, UInt8.toNat_shiftRight, UInt16.reduceToNat,
    UInt8.reduceToNat, Nat.shiftLeft_eq, Nat.shiftRight_eq_div_pow, Nat.reduceMod, Nat.reducePow, hx]
  rw [Nat.mod_eq_of_lt (by omega : x.toNat % 4 * 256 < 65536), hjoin]
  omega

/-! ## The layers' test -/

/-- The frame is for a group, not for all devices. -/
def ToGroup (b : List UInt8) : Prop :=
  ∃ addr, dstAddrOf StandardFrame b = .group addr ∧ addr ≠ ⟨0⟩

/-- No action of a connection delivers a group telegram. -/
theorem act_ne_dataGroup {p : Profile} {c : Connection} {f : SizedFrame} {block : Bool} {a : Action}
    {r : StepResult} (h : act p c f block a = .ok r) (frame : Frame) :
    r.result ≠ .ok (some (.dataGroup frame)) := by
  cases a with
  | a1 => cases h; simp
  | a5 => cases h; simp
  | ignore => cases h; simp
  | a2 =>
    obtain ⟨-, c', ind, hdone, rfl⟩ | ⟨-, rfl⟩ := sending_ok h
    · obtain ⟨seqNoRecv, -, hdone⟩ := (bind_eq_ok_iff _).mp hdone
      cases hdone
      simp
    · simp
  | _ =>
    obtain ⟨-, c', ind, hdone, rfl⟩ | ⟨-, rfl⟩ := sending_ok h
    · cases hdone
      simp
    · simp

section Arm

variable {p : Profile} {f : SizedFrame} {w w' : Station} {r : IndResult}

/-- A frame for one device is no group telegram. -/
theorem receiveArm_individual {dst : IndividualAddress} (hdst : f.dstAddr = .individual dst)
    (h : exec app (receiveArm p (.inl f.frame)) w = .returned r w') (frame : Frame) :
    r ≠ .ok (some (.dataGroup frame)) := by
  rw [receiveArm, exec_bind, networkInd_of_individual hdst, exec_lift_ok, Outcome.andThen_returned,
    receiveInd, exec_bind, f.tpci_frame, exec_lift_ok, Outcome.andThen_returned] at h
  cases hs : individualService f.tpci with
  | dataIndividual =>
    rw [hs] at h
    cases h
    simp
  | invalidTpdu =>
    rw [hs] at h
    cases h
    simp
  | connection s =>
    rw [hs] at h
    have h : exec app (withBorrow (handleInd p (s.ind f.frame))) w = .returned r w' := h
    cases hborrowed : w.borrowed with
    | true =>
      rw [exec_withBorrow_taken _ hborrowed] at h
      simp at h
    | false =>
      have hrun := exec_handleInd p s f { w with borrowed := true }
      rw [exec_withBorrow_free _ hborrowed] at h
      rcases hstep : connStep p w.connection s f w.block with why | result
      · rw [hstep] at hrun
        obtain ⟨w₁, hrun⟩ := hrun
        rw [hrun] at h
        simp at h
      · rw [hstep] at hrun
        obtain ⟨a, -, hact⟩ := connStep_ok hstep
        rw [show exec app _ _ = _ from hrun, Outcome.andThen_returned] at h
        cases h
        exact act_ne_dataGroup hact frame

/-- A frame for all devices is no group telegram. -/
theorem receiveArm_broadcast (hdst : f.dstAddr = .group ⟨0⟩)
    (h : exec app (receiveArm p (.inl f.frame)) w = .returned r w') (frame : Frame) :
    r ≠ .ok (some (.dataGroup frame)) := by
  rw [receiveArm, exec_bind, networkInd_of_group hdst, exec_lift_ok, Outcome.andThen_returned,
    if_pos rfl, receiveInd, exec_bind, f.tpci_six_frame, exec_lift_ok,
    Outcome.andThen_returned] at h
  split_ifs at h
  · cases h
    simp
  · cases h
    simp

end Arm

/-- `receive` emits nothing for what is no group telegram. -/
theorem upper_receive_silent {res : FrameResult TransportServiceInd}
    (h : ∀ frame, res ≠ .ok (.dataGroup frame)) :
    exec upper (applicationReceive res) [] = .returned () [] := by
  rcases res with e | ind
  · rfl
  · cases ind with
    | dataGroup frame => exact absurd rfl (h frame)
    | _ => rfl

section Standard

variable (p : Profile) {f : StandardFrame} (hlen : 8 ≤ (data f).length)

include hlen

/-- What `receive` makes of a group telegram. -/
theorem upper_receive_dataGroup :
    exec upper (applicationReceive (.ok (.dataGroup (.standard f)))) [] = .returned ()
      (if octetAt (data f) 6 &&& 0x3 = 0 ∧ octetAt (data f) 7 >>> 6 = 0 then [.groupValueRead 0]
        else []) := by
  have hapci : (Frame.standard f).apci .four =
      .ok ((((octetAt (data f) 6).toUInt16 &&& 0x3) <<< 8 ||| (octetAt (data f) 7).toUInt16) >>> 6) := by
    show FrameReader.apci f .four = _
    rw [FrameReader.apci, show apciOffset StandardFrame = 6 from rfl, index_eq_octetAt (by omega),
      index_eq_octetAt (by omega)]
    rfl
  rw [applicationReceive, exec_bind, hapci, exec_lift_ok, Outcome.andThen_returned]
  simp only [apci_four_eq_zero_iff]
  split_ifs <;> rfl

/-- The layers take a standard frame for a group read when it is to a group and its TPCI and
    APCI octets say so. -/
theorem indicates_iff (w : Station) :
    Indicates p (.standard f) w (.groupValueRead 0) ↔ ToGroup (data f) ∧
      octetAt (data f) 6 >>> 2 = 0 ∧ octetAt (data f) 6 &&& 0x3 = 0 ∧
        octetAt (data f) 7 >>> 6 = 0 := by
  let sized : SizedFrame := ⟨.standard f, hlen⟩
  have hnone : (∀ r w', exec app (receiveArm p (.inl sized.frame)) w = .returned r w' →
      ∀ frame, r ≠ .ok (some (.dataGroup frame))) →
      ¬Indicates p (.standard f) w (.groupValueRead 0) := by
    rintro hother ⟨r, w', res, hrun, hres, hind⟩
    have hsilent : exec upper (applicationReceive res) [] = .returned () [] := by
      apply upper_receive_silent
      rintro frame rfl
      rcases r with e | _ | ind
      · simp [turnResult] at hres
      · simp [turnResult] at hres
      · simp only [turnResult, Option.some.injEq, Except.ok.injEq] at hres
        exact hother _ _ hrun frame (by rw [hres])
    rw [hsilent] at hind
    simp at hind
  cases hdst : sized.dstAddr with
  | individual dst =>
    apply iff_of_false
    · exact hnone fun r w' hrun => receiveArm_individual hdst hrun
    · rintro ⟨⟨addr, hgroup, -⟩, -⟩
      rw [show dstAddrOf StandardFrame (data f) = _ from hdst] at hgroup
      simp at hgroup
  | group addr =>
    by_cases haddr : addr = ⟨0⟩
    · subst haddr
      apply iff_of_false
      · exact hnone fun r w' hrun => receiveArm_broadcast hdst hrun
      · rintro ⟨⟨addr, hgroup, hne⟩, -⟩
        rw [show dstAddrOf StandardFrame (data f) = _ from hdst] at hgroup
        cases hgroup
        exact hne rfl
    · have hgroup : ToGroup (data f) := ⟨addr, hdst, haddr⟩
      have hrun := exec_receiveArm_group p hdst haddr w
      have htpci : sized.tpci = octetAt (data f) 6 := rfl
      rw [and_iff_right hgroup]
      by_cases hzero : octetAt (data f) 6 >>> 2 = 0
      · rw [groupResult, htpci, if_pos hzero] at hrun
        rw [and_iff_right hzero]
        have hreceive := upper_receive_dataGroup hlen
        constructor
        · rintro ⟨r, w', res, hrun', hres, hind⟩
          rw [show exec app _ _ = _ from hrun] at hrun'
          cases hrun'
          cases hres
          rw [hreceive] at hind
          by_contra hapci
          rw [if_neg hapci] at hind
          simp at hind
        · intro hapci
          rw [if_pos hapci] at hreceive
          exact ⟨_, w, _, hrun, rfl, hreceive⟩
      · apply iff_of_false
        · apply hnone
          intro r w' hrun' frame
          rw [hrun, groupResult, htpci, if_neg hzero] at hrun'
          cases hrun'
          split_ifs <;> simp
        · intro h
          exact hzero h.1

end Standard

/-! ## Group reads -/

/-- A group read: a non-zero group address, a zero TPCI, a second APCI octet, and four zero
    APCI bits. -/
structure ReadRequest (b : List UInt8) : Prop where
  group : ToGroup b
  tpci : octetAt b 6 >>> 2 = 0
  length : 1 ≤ (octetAt b 5 &&& 0x0F).toNat
  apci : octetAt b 6 &&& 0x3 = 0 ∧ octetAt b 7 >>> 6 = 0

/-- A frame without a second APCI octet that is a group read up to there, with a checksum
    whose upper bits are clear. -/
structure Mistakable (b : List UInt8) : Prop where
  group : ToGroup b
  short : b.length = 8
  zero : octetAt b 6 = 0
  checksum : octetAt b 7 < 0x40

theorem octet_eq_zero_iff (x : UInt8) : x = 0 ↔ x >>> 2 = 0 ∧ x &&& 0x3 = 0 := by
  revert x
  exact forall_octet (by decide +kernel)

theorem octet_lt_iff (x : UInt8) : x < 0x40 ↔ x >>> 6 = 0 := by
  revert x
  exact forall_octet (by decide +kernel)

/-- The layers emit a group read for the group reads and for nothing else, unless the
    frame has no second APCI octet and can be mistaken for one. -/
theorem indicates_readRequest_iff (p : Profile) {c : UInt8} (hc : c &&& 0xd3 = 0x90) {w w' : Line}
    {f : Frame} (h : exec uart (receiveFrame p c) w = .returned (.ok f) w') (s : Station) :
    (Indicates p f s (.groupValueRead 0) ↔ ReadRequest f.data) ↔ ¬Mistakable f.data := by
  obtain ⟨e, w₁, hrun⟩ | ⟨g, w₁, hrun, hfmt⟩ := receiveFrame_standard_cases p w hc
  · rw [hrun] at h
    simp at h
  · rw [hrun] at h
    cases h
    have hlength := hfmt.1
    have hdata : (Frame.standard g).data = data g := rfl
    rw [indicates_iff p (by omega), hdata]
    constructor
    · intro hiff hmistakable
      have hshort := hmistakable.short
      obtain ⟨htpci, hlow⟩ := (octet_eq_zero_iff _).mp hmistakable.zero
      have hread := hiff.mp ⟨hmistakable.group, htpci, hlow, (octet_lt_iff _).mp hmistakable.checksum⟩
      have hone := hread.length
      omega
    · intro hmistakable
      constructor
      · rintro ⟨hgroup, htpci, hlow, hhigh⟩
        refine ⟨hgroup, htpci, ?_, hlow, hhigh⟩
        by_contra hnone
        exact hmistakable ⟨hgroup, by omega, (octet_eq_zero_iff _).mpr ⟨htpci, hlow⟩,
          (octet_lt_iff _).mpr hhigh⟩
      · intro hread
        exact ⟨hread.group, hread.tpci, hread.apci⟩

/-- 13.1.1 reads the group 1/1/98. -/
def readRequest : List UInt8 := [0xBC, 0xD1, 0x01, 0x09, 0x62, 0xE1, 0x00, 0x00, 0x19]

theorem indicates_readRequest_iff_nine : ∃ f w',
    exec uart (receiveFrame .dev 0xBC) (.fresh (readRequest.tail.map .octet ++ [.silence])) =
        .returned (.ok f) w' ∧
      ((Indicates .dev f ⟨.new, false, true, [], []⟩ (.groupValueRead 0) ↔ ReadRequest f.data) ↔
        ¬Mistakable f.data) := by
  obtain ⟨g, w', hrun, -⟩ := receiveFrame_of_format .dev (c := 0xBC)
    (by decide) (Line.fresh_rx readRequest.tail) trivial rfl rfl (by decide)
  exact ⟨_, w', hrun, indicates_readRequest_iff .dev (by decide) hrun _⟩

/-- A group telegram without second APCI octet, with the checksum 18. -/
def emptyTelegram : List UInt8 := [0xBC, 0xD1, 0x01, 0x09, 0x62, 0xE0, 0x00, 0x18]

/-- It is no group read, and the layers take it for one. -/
theorem emptyTelegram_indicates : ∃ f w',
    exec uart (receiveFrame .dev 0xBC) (.fresh (emptyTelegram.tail.map .octet ++ [.silence])) =
        .returned (.ok f) w' ∧ f.data = emptyTelegram ∧
      Indicates .dev f ⟨.new, false, true, [], []⟩ (.groupValueRead 0) ∧ ¬ReadRequest f.data := by
  obtain ⟨g, w', hrun, hdata⟩ := receiveFrame_of_format .dev (c := 0xBC)
    (by decide) (Line.fresh_rx emptyTelegram.tail) trivial rfl rfl (by decide)
  refine ⟨_, w', hrun, hdata, ?_, ?_⟩
  · rw [indicates_iff .dev (by rw [hdata]; decide), hdata]
    exact ⟨⟨⟨0x0962⟩, rfl, by decide⟩, by decide, by decide, by decide⟩
  · intro hread
    have hone := hread.length
    rw [show (Frame.standard g).data = emptyTelegram from hdata] at hone
    simp [emptyTelegram] at hone

end EmbassyKnx.App
