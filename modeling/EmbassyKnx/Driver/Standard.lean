import EmbassyKnx.Driver.Reception
import EmbassyKnx.Frame.Length

/-!
# Reception of standard frames

The driver's acceptance test reads an octet behind the received frame and
compares it with the complement of the XOR of the whole scratch frame. Because
the scratch frame is zero behind the received octets, that is the intended
test: the XOR of all received octets, checksum included, is `0xFF`.

* `acceptFrame_standard`: the acceptance test decides `StandardFormat`.
* `receiveFrame_accepts_standardFormat`: a burst that starts like a standard frame is
  accepted iff it has the standard format, and the frame is the burst.
-/

namespace EmbassyKnx.Driver

open Rust Heapless Octets FrameLayout FrameReader FrameWriter Async

/-- The standard wire format: the length nibble counts the octets and the XOR of
    all of them is `0xFF`. -/
def StandardFormat (b : List UInt8) : Prop :=
  b.length = (octetAt b 5 &&& 0x0F).toNat + 8 ∧ xorAll b = 0xFF

instance (b : List UInt8) : Decidable (StandardFormat b) := inferInstanceAs (Decidable (_ ∧ _))

theorem StandardFormat.length_le {b : List UInt8} (h : StandardFormat b) : b.length ≤ 23 := by
  have := nibble_le (octetAt b 5)
  have := h.1
  omega

/-! ## `length` and `set_length` -/

/-- `length()` of a frame that holds a burst of the standard format. -/
theorem standard_length_of_format (p : Profile) {f : StandardFrame} {b : List UInt8}
    (h : StandardFormat b) (hf : data f = b) :
    ∃ n, (Frame.standard f).length p = .ok n ∧ n.toNat = b.length := by
  have hlen := h.1
  subst hf
  refine ⟨_, standard_length_eq p (by omega), ?_⟩
  rw [standard_length_toNat, hlen]

/-- `set_length` to the length a frame already records keeps its octets. -/
theorem standard_setLength_eq (p : Profile) {f : StandardFrame} {n : ℕ} (h : 5 < (data f).length)
    (hn : n = (octetAt (data f) 5 &&& 0x0F).toNat + 8) (hle : n ≤ (data f).length) :
    ∃ g, StandardFrame.setLength p f n = .ok (g, .ok ()) ∧ data g = (data f).take n := by
  have hnibble := nibble_le (octetAt (data f) 5)
  have hcap : (data f).length ≤ 264 := f.buf.length_le
  obtain ⟨lg, hlg, hnat⟩ := standardLg_eq p (n := n) (by omega)
  obtain ⟨v, hv, hset⟩ := standard_setLength_of_lg p h hlg
  have hlow : lg = octetAt (data f) 5 &&& 0x0F := UInt8.toNat_inj.mp (by omega)
  have hkeep : ∀ x : UInt8, x ||| (x &&& 0x0F &&& 0xF) = x := forall_octet (by decide +kernel)
  rw [(modify_eq_self_iff h _).mpr (by rw [hlow]; exact hkeep _)] at hv
  obtain ⟨g, hg, hdata⟩ := resized_of_le (T := StandardFrame) (v := v) (n := n) (by omega)
  refine ⟨g, by rw [hset, hg], ?_⟩
  rw [hdata, hv, Nat.sub_eq_zero_of_le hle, List.replicate_zero, List.append_nil]

/-! ## The acceptance test -/

section

variable (p : Profile) {f : StandardFrame} {b : List UInt8}

/-- The acceptance test on the scratch frame of `b` decides `StandardFormat b`, and
    the frame it accepts is `b`. -/
theorem acceptFrame_standard (hf : data f = scratchOf StandardFrame b) (hb : b.length ≤ 24) :
    (StandardFormat b → ∃ g : StandardFrame, acceptFrame p f b.length = .ok (.ok g) ∧ data g = b) ∧
      (¬StandardFormat b → ∃ e, acceptFrame p f b.length = .ok (.error e)) := by
  by_cases hmin : b.length < 8
  · have hshort := acceptFrame_short p (f := f) (b := b) hmin
    constructor
    · intro h
      have := h.1
      omega
    · intro _
      exact ⟨_, hshort⟩
  · have hlen : (data f).length = 24 := by rw [hf, scratchOf_length hb]; rfl
    have hoctet : octetAt (data f) 5 = octetAt b 5 := by rw [hf, octetAt_scratchOf (by omega)]
    have hl := standard_length_eq p (f := f) (by omega)
    have hnat := standard_length_toNat (octetAt (data f) 5)
    have hnibble := nibble_le (octetAt (data f) 5)
    have haccept := acceptFrame_eq p hf (by show 8 ≤ _; omega) hb hl
      (by show _ < 24; omega)
    rw [hnat, hoctet] at haccept
    rw [hoctet] at hnibble
    by_cases hn : b.length = (octetAt b 5 &&& 0x0F).toNat + 8
    · rw [if_neg (not_not.mpr hn)] at haccept
      by_cases hxor : xorAll b = 0xFF
      · rw [if_neg (not_not.mpr hxor)] at haccept
        obtain ⟨g, hg, hgd⟩ := standard_setLength_eq p (f := f) (n := b.length) (by omega)
          (by rw [hoctet]; exact hn) (by omega)
        refine ⟨fun _ => ⟨g, ?_, ?_⟩, fun h => absurd ⟨hn, hxor⟩ h⟩
        · rw [haccept]
          show finish <$> StandardFrame.setLength p f b.length = _
          rw [hg]
          rfl
        · rw [hgd, hf, scratchOf, List.take_left]
      · rw [if_pos hxor] at haccept
        exact ⟨fun h => absurd h.2 hxor, fun _ => ⟨_, haccept⟩⟩
    · rw [if_pos hn] at haccept
      exact ⟨fun h => absurd h.1 hn, fun _ => ⟨_, haccept⟩⟩

/-- The same for a burst of any length: what does not fit the scratch frame is not
    read, and what is read then is no standard frame. -/
theorem acceptFrame_standard_take (hf : data f = scratchOf StandardFrame (b.take 24)) :
    (StandardFormat b → ∃ g : StandardFrame,
        acceptFrame p f (b.take 24).length = .ok (.ok g) ∧ data g = b) ∧
      (¬StandardFormat b → ∃ e, acceptFrame p f (b.take 24).length = .ok (.error e)) := by
  obtain ⟨hacc, hrej⟩ := acceptFrame_standard p hf (List.length_take_le _ _)
  by_cases hb : b.length ≤ 24
  · rw [List.take_of_length_le hb] at hacc hrej ⊢
    exact ⟨hacc, hrej⟩
  · refine ⟨fun h => absurd h.length_le (by omega), fun _ => hrej ?_⟩
    intro h
    have := h.length_le
    rw [List.length_take] at this
    omega

end

/-! ## Receiving a standard frame -/

section

variable (p : Profile) {c : UInt8} {os : List UInt8} {w : Line} {tail : List LineEvent}

theorem receiveFrame_of_standard (hc : c &&& 0xd3 = 0x90) :
    receiveFrame p c = (do return (← receiveFrameInt StandardFrame p c).map .standard) := by
  unfold receiveFrame
  exact if_pos hc

theorem exec_receiveFrame_standard (hc : c &&& 0xd3 = 0x90) (w : Line) :
    exec uart (receiveFrame p c) w = (exec uart (receiveFrameInt StandardFrame p c) w).andThen
      fun r w' => .returned (r.map .standard) w' := by
  rw [receiveFrame_of_standard p hc, exec_bind]
  rfl

theorem receiveFrame_of_format (hc : c &&& 0xd3 = 0x90) (hrx : w.rx = os.map .octet ++ tail)
    (htail : Quiet tail) (hb : w.blocks.head = true) (hw : w.writeErrors.head = none)
    (hfmt : StandardFormat (c :: os)) :
    ∃ (g : StandardFrame) (w' : Line),
      exec uart (receiveFrame p c) w = .returned (.ok (.standard g)) w' ∧ data g = c :: os := by
  have hexec := exec_receiveFrameInt_quiet (T := StandardFrame) p c hrx htail hb hw
  have hlen := hfmt.1
  rw [if_neg (by show ¬(_ < 7); omega)] at hexec
  obtain ⟨f, w', hf, hrun⟩ := hexec
  obtain ⟨g, hg, hdata⟩ := (acceptFrame_standard_take p hf).1 hfmt
  refine ⟨g, w', ?_, hdata⟩
  rw [exec_receiveFrame_standard p hc, hrun]
  show (exec uart (liftM (acceptFrame p f ((c :: os).take 24).length)) w').andThen _ = _
  rw [hg]
  rfl

theorem receiveFrame_of_not_format (hc : c &&& 0xd3 = 0x90) (hrx : w.rx = os.map .octet ++ tail)
    (htail : Quiet tail) (hb : w.blocks.head = true) (hw : w.writeErrors.head = none)
    (hfmt : ¬StandardFormat (c :: os)) :
    ∃ e w', exec uart (receiveFrame p c) w = .returned (.error e) w' := by
  have hexec := exec_receiveFrameInt_quiet (T := StandardFrame) p c hrx htail hb hw
  rw [exec_receiveFrame_standard p hc]
  by_cases hshort : (c :: os).length < headerLength StandardFrame
  · rw [if_pos hshort] at hexec
    obtain ⟨w', hrun⟩ := hexec
    exact ⟨_, w', by rw [hrun]; rfl⟩
  · rw [if_neg hshort] at hexec
    obtain ⟨f, w', hf, hrun⟩ := hexec
    obtain ⟨e, he⟩ := (acceptFrame_standard_take p hf).2 hfmt
    refine ⟨e, w', ?_⟩
    rw [hrun]
    show (exec uart (liftM (acceptFrame p f ((c :: os).take 24).length)) w').andThen _ = _
    rw [he]
    rfl

/-- A burst that starts like a standard frame is accepted iff it has the standard
    format; the frame is the burst and its `length()` is the length of the burst. -/
theorem receiveFrame_accepts_standardFormat (hc : c &&& 0xd3 = 0x90)
    (hrx : w.rx = os.map .octet ++ tail) (htail : Quiet tail) (hb : w.blocks.head = true)
    (hw : w.writeErrors.head = none) :
    ∃ r w', exec uart (receiveFrame p c) w = .returned r w' ∧
      ((∃ f, r = .ok (.standard f)) ↔ StandardFormat (c :: os)) ∧
      (∀ f, r = .ok f → f.data = c :: os ∧
        ∃ n, f.length p = .ok n ∧ n.toNat = (c :: os).length) ∧
      (¬StandardFormat (c :: os) → ∃ e, r = .error e) := by
  by_cases hfmt : StandardFormat (c :: os)
  · obtain ⟨g, w', hrun, hdata⟩ := receiveFrame_of_format p hc hrx htail hb hw hfmt
    refine ⟨_, w', hrun, ⟨fun _ => hfmt, fun _ => ⟨g, rfl⟩⟩, ?_, fun h => absurd hfmt h⟩
    rintro _ ⟨⟩
    exact ⟨hdata, standard_length_of_format p hfmt hdata⟩
  · obtain ⟨e, w', hrun⟩ := receiveFrame_of_not_format p hc hrx htail hb hw hfmt
    refine ⟨_, w', hrun, ⟨?_, fun h => absurd h hfmt⟩, ?_, fun _ => ⟨e, rfl⟩⟩
    · rintro ⟨f, h⟩
      simp at h
    · intro f h
      simp at h

/-- A group telegram of nine octets. -/
theorem receiveFrame_accepts_standardFormat_nine :
    ∃ r w', exec uart (receiveFrame .dev 0xBC)
        (.fresh ([0x11, 0x01, 0x09, 0x62, 0xE1, 0x00, 0x81, 0x58].map .octet ++ [.silence])) =
          .returned r w' ∧
      ((∃ f, r = .ok (.standard f)) ↔
        StandardFormat [0xBC, 0x11, 0x01, 0x09, 0x62, 0xE1, 0x00, 0x81, 0x58]) ∧
      (∀ f, r = .ok f → f.data = [0xBC, 0x11, 0x01, 0x09, 0x62, 0xE1, 0x00, 0x81, 0x58] ∧
        ∃ n, f.length .dev = .ok n ∧ n.toNat = 9) ∧
      (¬StandardFormat [0xBC, 0x11, 0x01, 0x09, 0x62, 0xE1, 0x00, 0x81, 0x58] →
        ∃ e, r = .error e) :=
  receiveFrame_accepts_standardFormat .dev (by decide) rfl trivial rfl rfl

end

end EmbassyKnx.Driver
