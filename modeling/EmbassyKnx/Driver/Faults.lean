import EmbassyKnx.Driver.Standard
import EmbassyKnx.Driver.Extended
import Mathlib.Logic.Relation

/-!
# Panics on the receive path

Every index, slice and sum on the receive path is in range for standard frames.
For extended frames the `u8` arithmetic of `length()` and `set_length` is not:
octet 5 of the burst decides, and under overflow checks the driver task dies.

* `receiveFrame_panic_eq`: an overflow is the only panic there is.
* `receiveFrame_sized`: a frame that is handed over is long enough for its header.
* `run_receives_safely_iff`: which bursts cause an overflow, over runs of the driver's loop.
-/

namespace EmbassyKnx.Driver

open Rust Heapless Octets FrameLayout FrameReader FrameWriter Async

/-- A burst on which `length()` or `set_length` leaves `u8`. -/
def Overflows (b : List UInt8) : Prop :=
  9 ≤ b.length ∧ (246 < (octetAt b 5).toNat ∨ MisreadFormat b)

instance (b : List UInt8) : Decidable (Overflows b) := inferInstanceAs (Decidable (_ ∧ _))

/-- The octets of an extended frame that `receive_frame` gets to read behind the control
    octet `c` overflow: a block is free, the header arrives, the acknowledgement and the
    UART do not fail, and what has arrived by the first silence `Overflows`. -/
def OverflowsAt (c : UInt8) (w : Line) : Prop :=
  c &&& 0xd3 = 0x10 ∧ w.blocks.head = true ∧
    ∃ b w', reception ExtendedFrame c { w with blocks := w.blocks.tail } = (.ok b, w') ∧ Overflows b

/-! ## What is read fits the scratch frame -/

theorem bodyReception_length {T : Type} [FrameWriter T] [ScratchFits T] {hdr b : List UInt8}
    {w w' : Line} (hhdr : hdr.length = headerLength T)
    (h : bodyReception T hdr w = (.ok b, w')) : b.length ≤ maxFrameSize T := by
  have hH := ScratchFits.headerLength_lt_max (T := T)
  unfold bodyReception at h
  rcases hack : ackResult (dstAddrOf T hdr) w with ⟨_ | _, w₁⟩
  · rw [hack] at h
    simp at h
  · simp only [hack] at h
    split_ifs at h with hroom
    · simp only [Prod.mk.injEq, Except.ok.injEq] at h
      rw [← h.1, List.length_append, List.length_take]
      omega
    · obtain ⟨rx, hstop | ⟨e, hstop⟩⟩ :=
        readStop_cases (burst w₁.rx).length (w₁.rx.drop (burst w₁.rx).length)
      · simp only [hstop, Prod.mk.injEq, Except.ok.injEq] at h
        rw [← h.1, List.length_append]
        omega
      · simp only [hstop, Prod.mk.injEq, reduceCtorEq, false_and] at h

theorem reception_length {T : Type} [FrameWriter T] [ScratchFits T] {c : UInt8} {b : List UInt8}
    {w w' : Line} (h : reception T c w = (.ok b, w')) : b.length ≤ maxFrameSize T := by
  have hH1 : 6 ≤ headerLength T := by simp [headerLength]
  unfold reception at h
  simp only at h
  split_ifs at h with hrest
  · exact bodyReception_length (by rw [List.length_cons, List.length_take]; omega) h
  · simp only [Prod.mk.injEq, reduceCtorEq, false_and] at h

/-! ## `receive_frame` -/

/-- The verdict on an extended burst is a panic iff the burst overflows where overflow is
    checked. -/
theorem extendedVerdict_panics (p : Profile) (b : List UInt8) :
    if p = .dev ∧ Overflows b then extendedVerdict p b = .error .arithmeticOverflow
    else ∃ r, extendedVerdict p b = .ok r := by
  unfold extendedVerdict Overflows MisreadFormat
  by_cases hmin : b.length < 9
  · rw [if_neg (by omega), if_pos hmin]
    exact ⟨_, rfl⟩
  rw [if_neg hmin]
  by_cases hover : 246 < (octetAt b 5).toNat
  · rw [if_pos hover]
    cases p with
    | dev => rw [if_pos ⟨rfl, by omega, .inl hover⟩]
    | release => exact ⟨_, rfl⟩
  rw [if_neg hover]
  by_cases hn : b.length = (octetAt b 5).toNat + 9
  · rw [if_neg (not_not.mpr hn)]
    by_cases hxor : xorAll b = 0xFF
    · rw [if_neg (not_not.mpr hxor)]
      cases p with
      | dev => rw [if_pos ⟨rfl, by omega, .inr ⟨by omega, hn, hxor⟩⟩]
      | release => exact ⟨_, rfl⟩
    · rw [if_pos hxor, if_neg (by rintro ⟨-, -, h | h⟩; exacts [hover h, hxor h.2.2])]
      exact ⟨_, rfl⟩
  · rw [if_pos hn, if_neg (by rintro ⟨-, -, h | h⟩; exacts [hover h, hn h.2.1])]
    exact ⟨_, rfl⟩

section

variable (p : Profile) {c : UInt8} (w : Line)

/-- `receive_frame_int` fails before the acceptance test, or the octets of a frame arrive and
    the acceptance test decides. -/
theorem receiveFrameInt_cases (T : Type) [FrameWriter T] [ScratchFits T] (c : UInt8) :
    ((∃ e w', exec uart (receiveFrameInt T p c) w = .returned (.error e) w') ∧
        ∀ b w', w.blocks.head = true →
          reception T c { w with blocks := w.blocks.tail } ≠ (.ok b, w')) ∨
      ∃ b w', w.blocks.head = true ∧
        reception T c { w with blocks := w.blocks.tail } = (.ok b, w') ∧
        ∃ f : T, data f = scratchOf T b ∧ exec uart (receiveFrameInt T p c) w =
          exec uart (liftM (acceptFrame p f b.length)) w' := by
  by_cases hb : w.blocks.head = true
  · have hexec := exec_receiveFrameInt (T := T) p c hb
    rcases hr : reception T c { w with blocks := w.blocks.tail } with ⟨e | b, w'⟩
    · rw [hr] at hexec
      exact .inl ⟨⟨e, w', hexec⟩, by simp⟩
    · rw [hr] at hexec
      exact .inr ⟨b, w', hb, rfl, hexec⟩
  · refine .inl ⟨?_, fun _ _ h => absurd h hb⟩
    rw [Bool.not_eq_true] at hb
    exact ⟨_, _, exec_receiveFrameInt_outOfMemory p c hb⟩

/-- `receive_frame` on a standard frame fails or returns a frame of the standard format. -/
theorem receiveFrame_standard_cases (hc : c &&& 0xd3 = 0x90) :
    (∃ e w', exec uart (receiveFrame p c) w = .returned (.error e) w') ∨
      ∃ (g : StandardFrame) (w' : Line),
        exec uart (receiveFrame p c) w = .returned (.ok (.standard g)) w' ∧
          StandardFormat (data g) := by
  rw [exec_receiveFrame_standard p hc]
  obtain ⟨⟨e, w', hrun⟩, -⟩ | ⟨b, w', -, hr, f, hf, hrun⟩ :=
    receiveFrameInt_cases p w StandardFrame c
  · exact .inl ⟨e, w', by rw [hrun]; rfl⟩
  · obtain ⟨hacc, hrej⟩ := acceptFrame_standard p hf (reception_length hr)
    rw [hrun]
    by_cases hfmt : StandardFormat b
    · obtain ⟨g, hg, hdata⟩ := hacc hfmt
      refine .inr ⟨g, w', by rw [hg]; rfl, ?_⟩
      rw [hdata]
      exact hfmt
    · obtain ⟨e, he⟩ := hrej hfmt
      exact .inl ⟨e, w', by rw [he]; rfl⟩

/-- `receive_frame` on an extended frame fails before the acceptance test or ends as
    `extendedVerdict` says. -/
theorem receiveFrame_extended_cases (hc : c &&& 0xd3 = 0x10) :
    (∃ e w', exec uart (receiveFrame p c) w = .returned (.error e) w') ∧ ¬OverflowsAt c w ∨
      ∃ b, EndsAs (exec uart (receiveFrame p c) w) (extendedVerdict p b) ∧
        (OverflowsAt c w ↔ Overflows b) := by
  obtain ⟨⟨e, w', hrun⟩, hnone⟩ | ⟨b, w', hb, hr, f, hf, hrun⟩ :=
    receiveFrameInt_cases p w ExtendedFrame c
  · refine .inl ⟨⟨e, w', by rw [exec_receiveFrame_extended p hc, hrun]; rfl⟩, ?_⟩
    rintro ⟨-, hb, b, w', hr, -⟩
    exact hnone b w' hb hr
  · refine .inr ⟨b, endsAs_of_acceptFrame p hc hf (reception_length hr) hrun, ?_⟩
    constructor
    · rintro ⟨-, -, b', w'', hr', hover⟩
      rw [hr] at hr'
      cases hr'
      exact hover
    · intro hover
      exact ⟨hc, hb, b, w', hr, hover⟩

/-- Standard frames do not panic the driver. -/
theorem receiveFrame_standard_returns (hc : c &&& 0xd3 = 0x90) :
    ∃ r w', exec uart (receiveFrame p c) w = .returned r w' := by
  obtain ⟨e, w', hrun⟩ | ⟨g, w', hrun, -⟩ := receiveFrame_standard_cases p w hc
  · exact ⟨_, w', hrun⟩
  · exact ⟨_, w', hrun⟩

/-- Extended frames panic the driver iff they overflow where overflow is checked. -/
theorem receiveFrame_extended_returns (hc : c &&& 0xd3 = 0x10) :
    (p = .dev ∧ OverflowsAt c w →
        ∃ w', exec uart (receiveFrame p c) w = .panicked .arithmeticOverflow w') ∧
      (¬(p = .dev ∧ OverflowsAt c w) →
        ∃ r w', exec uart (receiveFrame p c) w = .returned r w') := by
  obtain ⟨⟨e, w', hrun⟩, hnot⟩ | ⟨b, hends, hat⟩ := receiveFrame_extended_cases p w hc
  · exact ⟨fun h => absurd h.2 hnot, fun _ => ⟨_, w', hrun⟩⟩
  · have hverdict := extendedVerdict_panics p b
    rw [hat]
    constructor
    · intro hpanic
      rw [if_pos hpanic] at hverdict
      rw [hverdict] at hends
      exact hends
    · intro hpanic
      rw [if_neg hpanic] at hverdict
      obtain ⟨e | d, hr⟩ := hverdict
      · rw [hr] at hends
        obtain ⟨e', w', h⟩ := hends
        exact ⟨_, w', h⟩
      · rw [hr] at hends
        obtain ⟨g, w', h, -⟩ := hends
        exact ⟨_, w', h⟩

theorem isFrameStart_iff (c : UInt8) :
    isFrameStart c = true ↔ c &&& 0xd3 = 0x90 ∨ c &&& 0xd3 = 0x10 := by
  revert c
  exact forall_octet (by decide +kernel)

/-- `receive_frame` on an octet that `is_frame_start` lets through returns, except on an
    overflow. -/
theorem receiveFrame_returns (hc : isFrameStart c = true) :
    (p = .dev ∧ OverflowsAt c w →
        ∃ w', exec uart (receiveFrame p c) w = .panicked .arithmeticOverflow w') ∧
      (¬(p = .dev ∧ OverflowsAt c w) →
        ∃ r w', exec uart (receiveFrame p c) w = .returned r w') := by
  rcases (isFrameStart_iff c).mp hc with hstd | hext
  · refine ⟨?_, fun _ => receiveFrame_standard_returns p w hstd⟩
    rintro ⟨-, hext, -⟩
    rw [hstd] at hext
    exact absurd hext (by decide)
  · exact receiveFrame_extended_returns p w hext

/-! ## What the driver hands over -/

/-- What `set_length` leaves of a misread frame is as long as the burst. -/
theorem extendedVerdict_length {b d : List UInt8} (h : extendedVerdict p b = .ok (.ok d)) :
    9 ≤ d.length := by
  obtain ⟨e, he⟩ | ⟨why, hwhy⟩ | ⟨hd, -, hlen, -⟩ := extendedVerdict_cases p b
  · rw [he] at h
    simp at h
  · rw [hwhy] at h
    simp at h
  · rw [hd] at h
    cases h
    rw [List.length_set]
    omega

theorem receiveFrame_standard_sized {f : Frame} {w' : Line} (hc : c &&& 0xd3 = 0x90)
    (h : exec uart (receiveFrame p c) w = .returned (.ok f) w') : f.Sized := by
  obtain ⟨e, w₁, hrun⟩ | ⟨g, w₁, hrun, hfmt⟩ := receiveFrame_standard_cases p w hc
  · rw [hrun] at h
    simp at h
  · rw [hrun] at h
    cases h
    show 8 ≤ (data g).length
    have := hfmt.1
    omega

theorem receiveFrame_extended_sized {f : Frame} {w' : Line} (hc : c &&& 0xd3 = 0x10)
    (h : exec uart (receiveFrame p c) w = .returned (.ok f) w') : f.Sized := by
  obtain ⟨⟨e, w₁, hrun⟩, -⟩ | ⟨b, hends, -⟩ := receiveFrame_extended_cases p w hc
  · rw [hrun] at h
    simp at h
  · rw [h] at hends
    rcases hverdict : extendedVerdict p b with why | e | d
    · rw [hverdict] at hends
      obtain ⟨w₂, h⟩ := hends
      simp at h
    · rw [hverdict] at hends
      obtain ⟨e', w₂, h⟩ := hends
      simp at h
    · rw [hverdict] at hends
      obtain ⟨g, w₂, h, hdata⟩ := hends
      cases h
      show 9 ≤ (data g).length
      rw [hdata]
      exact extendedVerdict_length p hverdict

/-- The layers above get frames only whose header can be read. -/
theorem receiveFrame_sized {f : Frame} {w' : Line} (hc : isFrameStart c = true)
    (h : exec uart (receiveFrame p c) w = .returned (.ok f) w') : f.Sized := by
  rcases (isFrameStart_iff c).mp hc with hstd | hext
  · exact receiveFrame_standard_sized p w hstd h
  · exact receiveFrame_extended_sized p w hext h

end

/-! ## Turns of the driver's loops -/

/-- The state of the driver task between two turns. -/
abbrev DriverState : Type := Phase × Line

/-- One turn is completed. -/
def Turn (p : Profile) (s s' : DriverState) : Prop :=
  exec uart (runIteration p s.1) s.2 = .returned s'.1 s'.2

/-- The next turn is a reception: the octet `c` wins the `select`. -/
def Receives (s : DriverState) (c : UInt8) (w : Line) : Prop :=
  s.1 = .idle ∧ exec uart selectReadOrRequest s.2 = .returned (.inl (.ok c)) w

/-- The next turn reads a transmit request. -/
def Transmits (s : DriverState) : Prop :=
  s.1 = .idle ∧ ∃ w, exec uart selectReadOrRequest s.2 = .returned (.inr ()) w

/-- The next turn panics, and not in the transmission of a frame. -/
def ReceivePanics (p : Profile) (s : DriverState) : Prop :=
  ¬Transmits s ∧ (exec uart (runIteration p s.1) s.2).IsPanic

/-- The next turn receives, and panics there or leaves the range of an integer type, which is
    what overflow checks panic on. -/
def ReceiveFaults (p : Profile) (s : DriverState) : Prop :=
  ReceivePanics p s ∨ ReceivePanics .dev s

/-- The next turn receives an extended frame that overflows. -/
def OverflowsNext (s : DriverState) : Prop :=
  ∃ c w, Receives s c w ∧ OverflowsAt c w

/-- `select` does not panic. -/
theorem exec_selectReadOrRequest_cases (w : Line) :
    (∃ r w', exec uart selectReadOrRequest w = .returned r w') ∨
      exec uart selectReadOrRequest w = .pending w := by
  have hop : exec uart selectReadOrRequest w =
      .ofReply w (uart .selectReadOrRequest w) := exec_op uart _ w
  rw [hop]
  cases uart .selectReadOrRequest w with
  | none => exact .inr rfl
  | some rw' => exact .inl ⟨rw'.1, rw'.2, rfl⟩

theorem not_isPanic_draining (p : Profile) (w : Line) :
    ¬(exec uart (runIteration p .draining) w).IsPanic := by
  rw [runIteration, exec_bind, exec_timedRead, Outcome.andThen_returned]
  cases (nextTimedRead w.rx).1 with
  | none => exact Outcome.isPanic_returned _ _
  | some _ => exact Outcome.isPanic_returned _ _

/-- The turn that starts with the octet `c` panics iff `receive_frame` does. -/
theorem runIteration_isPanic_iff (p : Profile) {s : DriverState} {c : UInt8} {w : Line}
    (h : Receives s c w) :
    (exec uart (runIteration p s.1) s.2).IsPanic ↔
      isFrameStart c = true ∧ (exec uart (receiveFrame p c) w).IsPanic := by
  obtain ⟨hidle, hsel⟩ := h
  rw [hidle, runIteration, exec_bind, hsel, Outcome.andThen_returned]
  by_cases hc : isFrameStart c = true
  · simp only [hc, if_true, true_and, exec_bind]
    rcases exec uart (receiveFrame p c) w with ⟨e | f, w'⟩ | ⟨why', w'⟩ | w'
    · exact Iff.rfl
    · exact Iff.rfl
    · exact Iff.rfl
    · exact Iff.rfl
  · simp only [hc, Bool.false_eq_true, if_false, false_and, iff_false]
    exact Outcome.isPanic_returned _ _

/-- A reception panics exactly when it overflows where overflow is checked. -/
theorem receivePanics_iff (p : Profile) (s : DriverState) :
    ReceivePanics p s ↔ p = .dev ∧ OverflowsNext s := by
  constructor
  · rintro ⟨htransmits, hpanic⟩
    obtain ⟨phase, w⟩ := s
    cases phase with
    | draining => exact absurd hpanic (not_isPanic_draining p w)
    | idle =>
      rcases exec_selectReadOrRequest_cases w with ⟨(e | c) | _, w', hsel⟩ | hsel
      · rw [runIteration, exec_bind, hsel] at hpanic
        exact absurd hpanic (Outcome.isPanic_returned _ _)
      · have hrec : Receives (.idle, w) c w' := ⟨rfl, hsel⟩
        obtain ⟨hstart, hpanic⟩ := (runIteration_isPanic_iff p hrec).mp hpanic
        obtain ⟨-, hreturns⟩ := receiveFrame_returns p w' hstart
        by_cases hover : p = .dev ∧ OverflowsAt c w'
        · exact ⟨hover.1, c, w', hrec, hover.2⟩
        · obtain ⟨r, w'', hrun⟩ := hreturns hover
          rw [hrun] at hpanic
          exact absurd hpanic (Outcome.isPanic_returned _ _)
      · exact absurd ⟨rfl, w', hsel⟩ htransmits
      · rw [runIteration, exec_bind, hsel] at hpanic
        exact absurd hpanic (Outcome.isPanic_pending _)
  · rintro ⟨hdev, c, w, hrec, hover⟩
    have hstart : isFrameStart c = true := (isFrameStart_iff c).mpr (.inr hover.1)
    obtain ⟨w', hrun⟩ := (receiveFrame_returns p w hstart).1 ⟨hdev, hover⟩
    refine ⟨?_, (runIteration_isPanic_iff p hrec).mpr ⟨hstart, ?_⟩⟩
    · rintro ⟨-, w'', hsel⟩
      rw [hrec.2] at hsel
      simp at hsel
    · rw [hrun]
      exact Outcome.isPanic_panicked _ _

/-- Whatever else a reception does, it does not index out of bounds and does not reach the
    `panic!()` of `receive_frame`. -/
theorem receiveFrame_panic_eq (p : Profile) {c : UInt8} {w w' : Line} {why : Panic}
    (hc : isFrameStart c = true) (h : exec uart (receiveFrame p c) w = .panicked why w') :
    why = .arithmeticOverflow := by
  obtain ⟨hpanics, hreturns⟩ := receiveFrame_returns p w hc
  by_cases hover : p = .dev ∧ OverflowsAt c w
  · obtain ⟨w'', hrun⟩ := hpanics hover
    rw [hrun] at h
    cases h
    rfl
  · obtain ⟨r, w'', hrun⟩ := hreturns hover
    rw [hrun] at h
    simp at h

theorem receiveFaults_iff (p : Profile) (s : DriverState) :
    ReceiveFaults p s ↔ OverflowsNext s := by
  rw [ReceiveFaults, receivePanics_iff, receivePanics_iff]
  constructor
  · rintro (⟨-, hover⟩ | ⟨-, hover⟩)
    · exact hover
    · exact hover
  · intro hover
    exact .inr ⟨rfl, hover⟩

/-- In the runs of the driver from any line, under either profile, every reception is without
    fault iff none is of an extended frame that overflows. -/
theorem run_receives_safely_iff (p : Profile) (w₀ : Line) :
    (∀ s, Relation.ReflTransGen (Turn p) (.idle, w₀) s → ¬ReceiveFaults p s) ↔
      ∀ s, Relation.ReflTransGen (Turn p) (.idle, w₀) s → ¬OverflowsNext s := by
  constructor
  · intro h s hs
    rw [← receiveFaults_iff p]
    exact h s hs
  · intro h s hs
    rw [receiveFaults_iff]
    exact h s hs

/-- The line on which an extended frame to the group address 255 arrives. -/
def lineTo255 : Line :=
  .fresh ([0x10, 0x80, 0x11, 0x01, 0x00, 0xFF, 0x00, 0x00, 0x80].map .octet ++ [.silence])

/-- It kills the driver task under overflow checks, and leaves `u8` without them. -/
theorem run_panics_on_extended :
    ReceivePanics .dev (.idle, lineTo255) ∧
      ∀ p, ¬∀ s, Relation.ReflTransGen (Turn p) (.idle, lineTo255) s → ¬ReceiveFaults p s := by
  have hpanics : ReceivePanics .dev (.idle, lineTo255) := by
    refine (receivePanics_iff _ _).mpr ⟨rfl, 0x10, _, ⟨rfl, rfl⟩, by decide, rfl, ?_⟩
    exact ⟨_, _, rfl, by decide⟩
  refine ⟨hpanics, ?_⟩
  intro p h
  exact h _ .refl (.inr hpanics)

end EmbassyKnx.Driver
