import EmbassyKnx.Driver.Echo
import EmbassyKnx.Driver.Faults
import EmbassyKnx.Frame.DataPoint

/-!
# The APDU of a received frame

`apdu_data` ends at `length()`, and that length counts the checksum behind the
APDU: what `apdu_data` returns for a received frame has one octet too many.

* `apduData_received`: the octets that it returns.
* `apduData_not_apdu`: they are never the APDU of the frame, nor the value that
  `from_datapoint` has put there.
-/

namespace EmbassyKnx.Driver

open Rust Octets FrameLayout FrameReader Async

/-- The length nibble of a standard frame. -/
def lengthNibble (g : StandardFrame) : ℕ := (octetAt (data g) 5 &&& 0x0F).toNat

/-- `apdu_data` returns the APDU and nothing else: as many octets as the length nibble says, the
    ones from octet 7 on, none of them behind the APDU. -/
structure ReturnsApdu (p : Profile) (g : StandardFrame) (apdu : List UInt8) : Prop where
  returns : apduData p g = .ok apdu
  length_eq : apdu.length = lengthNibble g
  octets_eq : apdu = ((data g).drop 7).take (lengthNibble g)
  no_checksum : 7 + apdu.length < (data g).length

/-- `apdu_data` returns the octet that shares its place with the APCI, and so many octets behind
    it as the data point has. -/
def ReturnsValue (p : Profile) (d : DataPoint) (g : StandardFrame) : Prop :=
  ∃ value : List UInt8, value.length = DataPointAccess.byteLength d ∧
    apduData p g = .ok (octetAt (data g) 7 :: value)

section Received

variable (p : Profile) {c : UInt8} {w w' : Line} {g : StandardFrame}

/-- A standard frame that `receive_frame` returns is of the standard format. -/
theorem standardFormat_of_receiveFrame
    (hrun : exec uart (receiveFrame p c) w = .returned (.ok (.standard g)) w') :
    StandardFormat (data g) := by
  by_cases hstd : c &&& 0xd3 = 0x90
  · obtain ⟨e, w₁, hfail⟩ | ⟨h, w₁, hok, hfmt⟩ := receiveFrame_standard_cases p w hstd
    · rw [hfail] at hrun
      simp at hrun
    · rw [hok] at hrun
      cases hrun
      exact hfmt
  · by_cases hext : c &&& 0xd3 = 0x10
    · rw [exec_receiveFrame_extended p hext] at hrun
      rcases hint : exec uart (receiveFrameInt ExtendedFrame p c) w with
        ⟨e | h, w₁⟩ | ⟨why, w₁⟩ | w₁
      all_goals
        rw [hint] at hrun
        cases hrun
    · unfold receiveFrame at hrun
      rw [if_neg (show ¬c &&& frameTypeMask = frameTypeStd from hstd),
        if_neg (show ¬c &&& frameTypeMask = frameTypeExt from hext)] at hrun
      simp at hrun

/-- `length()` of a frame of the standard format is all of it. -/
theorem apduData_of_format (hfmt : StandardFormat (data g)) :
    apduData p g = .ok ((data g).drop 7) := by
  obtain ⟨n, hn, hnlen⟩ := standard_length_of_format p hfmt rfl
  have hlen := hfmt.1
  have hlength : length p g = .ok n := hn
  unfold apduData
  rw [hlength, ok_bind, hnlen]
  show slice (data g) 7 (data g).length = _
  rw [slice_eq (by omega) (Nat.le_refl _), List.take_length]

/-- `apdu_data` of a received frame: the APDU, and the checksum behind it. -/
theorem apduData_received
    (hrun : exec uart (receiveFrame p c) w = .returned (.ok (.standard g)) w') :
    apduData p g =
      .ok (((data g).drop 7).take (lengthNibble g) ++ [octetAt (data g) (7 + lengthNibble g)]) := by
  have hfmt := standardFormat_of_receiveFrame p hrun
  have hlen : (data g).length = lengthNibble g + 8 := hfmt.1
  have hsplit : (data g).drop 7 =
      ((data g).drop 7).take (lengthNibble g) ++ [octetAt (data g) (7 + lengthNibble g)] := by
    have hlast : ((data g).drop 7).drop (lengthNibble g) =
        [octetAt (data g) (7 + lengthNibble g)] := by
      rw [List.drop_drop, List.drop_eq_getElem_cons (by omega), List.drop_of_length_le (by omega),
        octetAt_eq_getElem (by omega)]
    rw [← hlast, List.take_append_drop]
  rw [apduData_of_format p hfmt, ← hsplit]

theorem apduData_length
    (hrun : exec uart (receiveFrame p c) w = .returned (.ok (.standard g)) w') :
    ∃ apdu, apduData p g = .ok apdu ∧ apdu.length = lengthNibble g + 1 := by
  have hfmt := standardFormat_of_receiveFrame p hrun
  have hlen : (data g).length = lengthNibble g + 8 := hfmt.1
  refine ⟨_, apduData_of_format p hfmt, ?_⟩
  rw [List.length_drop, hlen]
  omega

/-- Nothing that `apdu_data` returns for a received frame is its APDU. -/
theorem not_returnsApdu
    (hrun : exec uart (receiveFrame p c) w = .returned (.ok (.standard g)) w') (apdu : List UInt8) :
    ¬ReturnsApdu p g apdu := by
  intro h
  obtain ⟨apdu', hapdu, hlen⟩ := apduData_length p hrun
  rw [h.returns] at hapdu
  rw [← Except.ok.inj hapdu, h.length_eq] at hlen
  omega

/-- The received frame of a data point: nine octets, and those of the value behind the APCI. -/
theorem length_of_datapoint {p' : Profile} {d : DataPoint} {f : StandardFrame}
    (hf : Frame.fromDatapoint p' true d = .ok (.ok (.standard f)))
    (hg : data g = wireOf (data f)) : (data g).length = DataPointAccess.byteLength d + 9 := by
  obtain ⟨f', hf', hdata⟩ := fromDatapoint_eq p' d
  rw [hf] at hf'
  cases hf'
  have hne : data f ≠ [] := by
    rw [hdata]
    simp
  rw [hg, length_wireOf hne, hdata]
  cases d with
  | b1 d => rfl
  | b2 d => rfl
  | u8 d => rfl

/-- What `apdu_data` returns for the frame of a data point has an octet behind the value. -/
theorem not_returnsValue {p' : Profile} {d : DataPoint} {f : StandardFrame}
    (hrun : exec uart (receiveFrame p c) w = .returned (.ok (.standard g)) w')
    (hf : Frame.fromDatapoint p' true d = .ok (.ok (.standard f)))
    (hg : data g = wireOf (data f)) : ¬ReturnsValue p d g := by
  rintro ⟨value, hvalue, hapdu⟩
  have hlen := length_of_datapoint hf hg
  rw [apduData_of_format p (standardFormat_of_receiveFrame p hrun)] at hapdu
  have hdrop := congrArg List.length (Except.ok.inj hapdu)
  rw [List.length_drop, List.length_cons, hvalue] at hdrop
  omega

/-- `apdu_data` of a received standard frame is never the APDU of the frame, and never the value
    of the data point that the frame has been built from. -/
theorem apduData_not_apdu
    (hrun : exec uart (receiveFrame p c) w = .returned (.ok (.standard g)) w') :
    (∀ apdu, ¬ReturnsApdu p g apdu) ∧ ∀ p' d f,
      Frame.fromDatapoint p' true d = .ok (.ok (.standard f)) → data g = wireOf (data f) →
        ¬ReturnsValue p d g :=
  ⟨not_returnsApdu p hrun, fun _ _ _ hf hg => not_returnsValue p hrun hf hg⟩

end Received

/-- `true` written to 1/1/1 by 1.1.1, as it is on the bus. -/
def writeTrue : List UInt8 := [0xBC, 0x11, 0x01, 0x09, 0x01, 0xE1, 0x00, 0x81, 0x3B]

theorem receiveFrame_writeTrue : ∃ (g : StandardFrame) (w' : Line),
    exec uart (receiveFrame .dev 0xBC) (.fresh (writeTrue.tail.map .octet ++ [.silence])) =
      .returned (.ok (.standard g)) w' ∧ data g = writeTrue :=
  receiveFrame_of_format .dev (by decide) (Line.fresh_rx writeTrue.tail) trivial rfl rfl (by decide)

/-- The frame of `true` as a data point, as it is on the bus. -/
def pointTrue : List UInt8 := [0x90, 0, 0, 0, 0, 1, 0, 1, 0x6F]

theorem apduData_not_apdu_pointTrue : ∃ f g : StandardFrame,
    Frame.fromDatapoint .dev true (.b1 (.new true)) = .ok (.ok (.standard f)) ∧
      data g = wireOf (data f) ∧ (∀ apdu, ¬ReturnsApdu .dev g apdu) ∧
      ¬ReturnsValue .dev (.b1 (.new true)) g := by
  obtain ⟨f, hf, hdata⟩ := fromDatapoint_eq .dev (.b1 (.new true))
  obtain ⟨g, w', hrun, hg⟩ := receiveFrame_of_format .dev (c := 0x90) (by decide)
    (Line.fresh_rx pointTrue.tail) trivial rfl rfl (by decide)
  have hwire : data g = wireOf (data f) := by
    rw [hdata]
    exact hg
  obtain ⟨hapdu, hvalue⟩ := apduData_not_apdu .dev hrun
  exact ⟨f, g, hf, hwire, hapdu, hvalue .dev _ f hf hwire⟩

/-- The APDU is the one octet 0x81, but `apdu_data` returns the checksum behind it too. -/
theorem writeTrue_apduData : ∃ (g : StandardFrame) (w' : Line),
    exec uart (receiveFrame .dev 0xBC) (.fresh (writeTrue.tail.map .octet ++ [.silence])) =
      .returned (.ok (.standard g)) w' ∧ data g = writeTrue ∧ lengthNibble g = 1 ∧
      apduData .dev g = .ok [0x81, 0x3B] ∧ ∀ apdu, ¬ReturnsApdu .dev g apdu := by
  obtain ⟨g, w', hrun, hg⟩ := receiveFrame_writeTrue
  have hnibble : lengthNibble g = 1 := by
    rw [lengthNibble, hg]
    decide
  have hdata : apduData .dev g = .ok [0x81, 0x3B] := by
    rw [apduData_of_format .dev (standardFormat_of_receiveFrame .dev hrun), hg]
    rfl
  exact ⟨g, w', hrun, hg, hnibble, hdata, not_returnsApdu .dev hrun⟩

end EmbassyKnx.Driver
