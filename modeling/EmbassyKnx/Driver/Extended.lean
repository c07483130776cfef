import EmbassyKnx.Driver.Reception
import EmbassyKnx.Frame.Length

/-!
# Reception of extended frames

`ExtendedFrame` keeps the provided constant `LG_FIELD = 5` of `FrameReader`,
which is the low destination octet of its layout, not the length octet 6. Its
`length()` adds to that octet on `u8`, and its `set_length` computes the stored
length from the block length 263 instead of its argument. Both calculations
can leave `u8`.

* `acceptFrame_extended`: the acceptance test in closed form, `extendedVerdict`.
* `receiveFrame_meets_extendedFormat_iff`: on which bursts the driver does what
  the extended wire format asks for.
-/

namespace EmbassyKnx.Driver

open Rust Heapless Octets FrameLayout FrameReader FrameWriter Async

/-- The extended wire format: octet 6 counts the octets behind the TPCI octet and
    the XOR of all octets is `0xFF`. -/
def ExtendedFormat (b : List UInt8) : Prop :=
  b.length = (octetAt b 6).toNat + 9 ∧ b.length ≤ 263 ∧ xorAll b = 0xFF

instance (b : List UInt8) : Decidable (ExtendedFormat b) := inferInstanceAs (Decidable (_ ∧ _))

/-- What passes for the extended format when octet 5 is taken for the length. -/
def MisreadFormat (b : List UInt8) : Prop :=
  (octetAt b 5).toNat ≤ 246 ∧ b.length = (octetAt b 5).toNat + 9 ∧ xorAll b = 0xFF

instance (b : List UInt8) : Decidable (MisreadFormat b) := inferInstanceAs (Decidable (_ ∧ _))

/-! ## `length` and `set_length` -/

/-- On a scratch frame `set_length` computes `7 - 8` on `u8`. -/
theorem extended_setLength_eq (p : Profile) {f : ExtendedFrame} {n : ℕ}
    (hlen : (data f).length = 263) (hle : n ≤ 263) :
    match p with
    | .dev => ExtendedFrame.setLength p f n = .error .arithmeticOverflow
    | .release => ∃ g, ExtendedFrame.setLength p f n = .ok (g, .ok ()) ∧
        data g = ((data f).take n).set 5 254 := by
  cases p with
  | dev => rw [extended_setLength_steps, hlen, extendedLg_overflow (by decide)]; rfl
  | release =>
    have hlg : extendedLg .release (data f).length = .ok 254 := by rw [hlen]; rfl
    obtain ⟨v, hv, hset⟩ := extended_setLength_of_lg .release (n := n) (by omega) hlg
    obtain ⟨g, hg, hdata⟩ := resized_of_le (T := ExtendedFrame) (v := v) (n := n) (by omega)
    have hlong : n ≤ v.toList.length := by rw [hv, List.length_set]; omega
    refine ⟨g, by rw [hset, hg], ?_⟩
    rw [hdata, Nat.sub_eq_zero_of_le hlong, List.replicate_zero, List.append_nil, hv, List.take_set]

/-! ## The acceptance test -/

/-- The acceptance test on a scratch frame that holds `b`: the octets of the accepted
    frame, the error, or the panic. -/
def extendedVerdict (p : Profile) (b : List UInt8) : Panicking (Except TransferError (List UInt8)) :=
  if b.length < 9 then .ok (.error (.frameError .invalidLength))
  else if 246 < (octetAt b 5).toNat then
    match p with
    | .dev => .error .arithmeticOverflow
    | .release => .ok (.error (.frameError .invalidLength))
  else if b.length ≠ (octetAt b 5).toNat + 9 then .ok (.error (.frameError .invalidLength))
  else if xorAll b ≠ 0xFF then .ok (.error (.frameError .checksum))
  else
    match p with
    | .dev => .error .arithmeticOverflow
    | .release => .ok (.ok (b.set 5 254))

theorem acceptFrame_extended (p : Profile) {f : ExtendedFrame} {b : List UInt8}
    (hf : data f = scratchOf ExtendedFrame b) (hb : b.length ≤ 263) :
    Except.map data <$> acceptFrame p f b.length = extendedVerdict p b := by
  unfold extendedVerdict
  by_cases hmin : b.length < 9
  · rw [if_pos hmin, acceptFrame_short p hmin]
    rfl
  · rw [if_neg hmin]
    have hlen : (data f).length = 263 := by rw [hf, scratchOf_length hb]; rfl
    have hoctet : octetAt (data f) 5 = octetAt b 5 := by rw [hf, octetAt_scratchOf (by omega)]
    have hmin' : minFrameSize ExtendedFrame ≤ b.length := by show 9 ≤ _; omega
    by_cases hover : 246 < (octetAt b 5).toNat
    · rw [if_pos hover]
      have hl := extended_length_of_gt p (f := f) (by omega) (by rwa [hoctet])
      cases p with
      | dev => rw [acceptFrame_length_panics .dev hmin' hb hl]; rfl
      | release =>
        obtain ⟨l, hl, hlt⟩ := hl
        rw [acceptFrame_eq .release hf hmin' hb hl (by show _ < 263; omega), if_pos (by omega)]
        rfl
    · rw [if_neg hover]
      obtain ⟨l, hl, hnat⟩ := extended_length_of_le p (f := f) (by omega) (by rw [hoctet]; omega)
      rw [hoctet] at hnat
      rw [acceptFrame_eq p hf hmin' hb hl (by show _ < 263; omega), hnat]
      split_ifs with hn hxor
      · rfl
      · rfl
      · have hset := extended_setLength_eq p (f := f) (n := b.length) hlen hb
        show Except.map data <$> finish <$> ExtendedFrame.setLength p f b.length = _
        cases p with
        | dev => rw [hset]; rfl
        | release =>
          obtain ⟨g, hg, hdata⟩ := hset
          rw [hf, scratchOf, List.take_left] at hdata
          rw [hg]
          show (Except.ok (Except.ok (data g)) : Panicking (Except TransferError (List UInt8))) = _
          rw [hdata]

/-! ## The verdict -/

section

variable (p : Profile) {b : List UInt8}

/-- Octets behind the scratch frame's end do not change the verdict. -/
theorem extendedVerdict_take (b : List UInt8) :
    extendedVerdict p (b.take 263) = extendedVerdict p b := by
  by_cases hb : b.length ≤ 263
  · rw [List.take_of_length_le hb]
  · have hlen : (b.take 263).length = 263 := by rw [List.length_take]; omega
    have hoctet : octetAt (b.take 263) 5 = octetAt b 5 := by
      rw [← octetAt_append_left (d := b.take 263) (by omega) (b.drop 263), List.take_append_drop]
    unfold extendedVerdict
    rw [hoctet, hlen, if_neg (by decide), if_neg (show ¬b.length < 9 by omega)]
    by_cases hover : 246 < (octetAt b 5).toNat
    · rw [if_pos hover, if_pos hover]
    · rw [if_neg hover, if_neg hover, if_pos (by omega), if_pos (by omega)]

/-- The acceptance test refuses a burst, without a panic, iff it is short, or it does not
    pass for an extended frame under octet 5 and does not overflow `length()` where
    overflow is checked. -/
theorem extendedVerdict_refuses_iff (b : List UInt8) :
    (∃ e, extendedVerdict p b = .ok (.error e)) ↔
      b.length < 9 ∨ ¬MisreadFormat b ∧ (p = .dev → (octetAt b 5).toNat ≤ 246) := by
  unfold extendedVerdict MisreadFormat
  split_ifs with hmin hover hn hxor
  · simp [hmin]
  · cases p with
    | dev => simp [hmin]; omega
    | release => simp [hmin]; omega
  · simp [hmin, hn]; omega
  · simp [hmin, hxor]; omega
  · have hmis : (octetAt b 5).toNat ≤ 246 ∧ b.length = (octetAt b 5).toNat + 9 ∧ xorAll b = 0xFF :=
      ⟨by omega, by omega, not_not.mp hxor⟩
    cases p with
    | dev => simp [hmis]
    | release => simp [hmis]

/-- What it does not refuse it panics on, or rewrites octet 5 of. -/
theorem extendedVerdict_cases (b : List UInt8) :
    (∃ e, extendedVerdict p b = .ok (.error e)) ∨ (∃ why, extendedVerdict p b = .error why) ∨
      extendedVerdict p b = .ok (.ok (b.set 5 254)) ∧ MisreadFormat b := by
  unfold extendedVerdict MisreadFormat
  split_ifs with hmin hover hn hxor
  · exact .inl ⟨_, rfl⟩
  · cases p with
    | dev => exact .inr (.inl ⟨_, rfl⟩)
    | release => exact .inl ⟨_, rfl⟩
  · exact .inl ⟨_, rfl⟩
  · exact .inl ⟨_, rfl⟩
  · cases p with
    | dev => exact .inr (.inl ⟨_, rfl⟩)
    | release => exact .inr (.inr ⟨rfl, by omega, by omega, not_not.mp hxor⟩)

end

/-! ## Receiving an extended frame -/

/-- A run of `receive_frame` ends as a verdict of the acceptance test says; which error it
    returns is left open. -/
def EndsAs (o : Outcome Line (Except TransferError Frame)) :
    Panicking (Except TransferError (List UInt8)) → Prop
  | .error why => ∃ w', o = .panicked why w'
  | .ok (.error _) => ∃ e w', o = .returned (.error e) w'
  | .ok (.ok d) => ∃ (g : ExtendedFrame) (w' : Line),
      o = .returned (.ok (.extended g)) w' ∧ data g = d

/-- What the extended wire format asks of a run of `receive_frame` on the burst `b`. -/
def MeetsExtendedFormat (b : List UInt8) (o : Outcome Line (Except TransferError Frame)) : Prop :=
  ∃ r w', o = .returned r w' ∧ ((∃ f, r = .ok (.extended f)) ↔ ExtendedFormat b) ∧
    (∀ f, r = .ok f → f.data = b) ∧ (¬ExtendedFormat b → ∃ e, r = .error e)

section

variable (p : Profile) {c : UInt8} {os : List UInt8} {w : Line} {tail : List LineEvent}

theorem exec_receiveFrame_extended (hc : c &&& 0xd3 = 0x10) (w : Line) :
    exec uart (receiveFrame p c) w = (exec uart (receiveFrameInt ExtendedFrame p c) w).andThen
      fun r w' => .returned (r.map .extended) w' := by
  have hstd : ¬c &&& frameTypeMask = frameTypeStd := by
    show ¬c &&& 0xd3 = 0x90
    rw [hc]
    decide
  unfold receiveFrame
  rw [if_neg hstd, if_pos (show c &&& frameTypeMask = frameTypeExt from hc), exec_bind]
  rfl

theorem endsAs_of_acceptFrame {b : List UInt8} {f : ExtendedFrame} {w w' : Line}
    (hc : c &&& 0xd3 = 0x10) (hf : data f = scratchOf ExtendedFrame b) (hb : b.length ≤ 263)
    (hrun : exec uart (receiveFrameInt ExtendedFrame p c) w =
      exec uart (liftM (acceptFrame p f b.length)) w') :
    EndsAs (exec uart (receiveFrame p c) w) (extendedVerdict p b) := by
  rw [exec_receiveFrame_extended p hc, hrun, ← acceptFrame_extended p hf hb]
  rcases acceptFrame p f b.length with why | e | g
  · exact ⟨w', rfl⟩
  · exact ⟨e, w', rfl⟩
  · exact ⟨g, w', rfl, rfl⟩

/-- On a burst that starts like an extended frame, `receive_frame` ends as
    `extendedVerdict` says. -/
theorem receiveFrame_extended (hc : c &&& 0xd3 = 0x10) (hrx : w.rx = os.map .octet ++ tail)
    (htail : Quiet tail) (hb : w.blocks.head = true) (hw : w.writeErrors.head = none) :
    EndsAs (exec uart (receiveFrame p c) w) (extendedVerdict p (c :: os)) := by
  have hexec := exec_receiveFrameInt_quiet (T := ExtendedFrame) p c hrx htail hb hw
  by_cases hshort : (c :: os).length < headerLength ExtendedFrame
  · rw [if_pos hshort] at hexec
    obtain ⟨w', hrun⟩ := hexec
    have hlt : (c :: os).length < 9 := Nat.lt_of_lt_of_le hshort (by decide)
    unfold extendedVerdict
    rw [if_pos hlt]
    exact ⟨_, w', by rw [exec_receiveFrame_extended p hc, hrun]; rfl⟩
  · rw [if_neg hshort] at hexec
    obtain ⟨f, w', hf, hrun⟩ := hexec
    rw [← extendedVerdict_take]
    exact endsAs_of_acceptFrame p hc hf (List.length_take_le _ _) hrun

/-- A refusal meets the format on the bursts that are not of it. -/
theorem meetsExtendedFormat_error_iff {b : List UInt8} {e : TransferError} {w' : Line} :
    MeetsExtendedFormat b (.returned (.error e) w') ↔ ¬ExtendedFormat b := by
  constructor
  · rintro ⟨r, w'', ⟨⟩, hiff, -⟩ hfmt
    obtain ⟨f, h⟩ := hiff.mpr hfmt
    simp at h
  · intro hfmt
    refine ⟨_, w', rfl, ⟨?_, fun h => absurd h hfmt⟩, ?_, fun _ => ⟨e, rfl⟩⟩
    · rintro ⟨f, h⟩
      simp at h
    · intro f h
      simp at h

/-- An accepted frame with 254 in octet 5 is not the burst that was mistaken for it. -/
theorem not_meetsExtendedFormat_rewritten {b : List UInt8} (hmis : MisreadFormat b)
    {g : ExtendedFrame} (hdata : data g = b.set 5 254) {w' : Line} :
    ¬MeetsExtendedFormat b (.returned (.ok (.extended g)) w') := by
  rintro ⟨r, w'', ⟨⟩, -, hsame, -⟩
  obtain ⟨hle, hlen, -⟩ := hmis
  have hset : b.set 5 254 = b := hdata.symm.trans (hsame _ rfl)
  have hoctet : octetAt b 5 = 254 := by
    rw [← hset, octetAt_eq_getElem (by rw [List.length_set]; omega), List.getElem_set_self]
  rw [hoctet] at hle
  exact absurd hle (by decide)

/-- The driver does what the extended wire format asks for exactly on the bursts that are
    not of that format, are not mistaken for it under octet 5 and do not overflow
    `length()` where overflow is checked. -/
theorem receiveFrame_meets_extendedFormat_iff (hc : c &&& 0xd3 = 0x10)
    (hrx : w.rx = os.map .octet ++ tail) (htail : Quiet tail) (hb : w.blocks.head = true)
    (hw : w.writeErrors.head = none) :
    MeetsExtendedFormat (c :: os) (exec uart (receiveFrame p c) w) ↔
      ¬ExtendedFormat (c :: os) ∧ ((c :: os).length < 9 ∨
        ¬MisreadFormat (c :: os) ∧ (p = .dev → (octetAt (c :: os) 5).toNat ≤ 246)) := by
  have hends := receiveFrame_extended p hc hrx htail hb hw
  rw [← extendedVerdict_refuses_iff]
  rcases extendedVerdict_cases p (c :: os) with ⟨e, hv⟩ | ⟨why, hv⟩ | ⟨hv, hmis⟩
  · rw [hv] at hends ⊢
    obtain ⟨e', w', hrun⟩ := hends
    rw [hrun, meetsExtendedFormat_error_iff]
    simp
  · rw [hv] at hends ⊢
    obtain ⟨w', hrun⟩ := hends
    rw [hrun]
    apply iff_of_false
    · rintro ⟨r, w'', h, -⟩
      simp at h
    · rintro ⟨-, e, h⟩
      simp at h
  · rw [hv] at hends ⊢
    obtain ⟨g, w', hrun, hdata⟩ := hends
    rw [hrun]
    apply iff_of_false
    · exact not_meetsExtendedFormat_rewritten hmis hdata
    · rintro ⟨-, e, h⟩
      simp at h

/-- Nine octets of an extended frame with a wrong checksum are refused as they should be, and
    with the right one they should not. -/
theorem receiveFrame_meets_extendedFormat_iff_complete :
    MeetsExtendedFormat [0x10, 0xE0, 0x11, 0x01, 0x00, 0x05, 0x00, 0x00, 0x1B]
        (exec uart (receiveFrame .dev 0x10)
          (.fresh ([0xE0, 0x11, 0x01, 0x00, 0x05, 0x00, 0x00, 0x1B].map .octet ++ [.silence]))) ∧
      ¬MeetsExtendedFormat [0x10, 0xE0, 0x11, 0x01, 0x00, 0x05, 0x00, 0x00, 0x1A]
        (exec uart (receiveFrame .dev 0x10)
          (.fresh ([0xE0, 0x11, 0x01, 0x00, 0x05, 0x00, 0x00, 0x1A].map .octet ++ [.silence]))) := by
  have hmeets (last : UInt8) := receiveFrame_meets_extendedFormat_iff .dev (c := 0x10) (by decide)
    (Line.fresh_rx [0xE0, 0x11, 0x01, 0x00, 0x05, 0x00, 0x00, last]) trivial rfl rfl
  exact ⟨(hmeets 0x1B).mpr (by decide), fun h => ((hmeets 0x1A).mp h).1 (by decide)⟩

/-- A well-formed extended frame to the group address 5, refused under both profiles. -/
theorem receiveFrame_refuses_wellFormed_extended :
    ExtendedFormat [0x10, 0xE0, 0x11, 0x01, 0x00, 0x05, 0x00, 0x00, 0x1A] ∧
      ∀ p, ¬MeetsExtendedFormat [0x10, 0xE0, 0x11, 0x01, 0x00, 0x05, 0x00, 0x00, 0x1A]
        (exec uart (receiveFrame p 0x10)
          (.fresh ([0xE0, 0x11, 0x01, 0x00, 0x05, 0x00, 0x00, 0x1A].map .octet ++ [.silence]))) := by
  have hfmt : ExtendedFormat [0x10, 0xE0, 0x11, 0x01, 0x00, 0x05, 0x00, 0x00, 0x1A] := by decide
  refine ⟨hfmt, ?_⟩
  intro p
  have hends := receiveFrame_extended p (c := 0x10) (by decide)
    (Line.fresh_rx [0xE0, 0x11, 0x01, 0x00, 0x05, 0x00, 0x00, 0x1A]) trivial rfl rfl
  obtain ⟨e, w', hrun⟩ := hends
  rw [hrun, meetsExtendedFormat_error_iff, not_not]
  exact hfmt

end

end EmbassyKnx.Driver
