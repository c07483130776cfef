import EmbassyKnx.Driver.Faults

/-!
# Bursts

What the driver does with one burst of octets that is followed by silence, when
nothing disturbs it: no UART errors, a free block, nothing to transmit. Where the frame is
refused the drain loop waits for one more read timeout, which may lie behind the next burst.

* `frameVerdict`: what `receive_frame` makes of a frame.
* `turn_frame`: the turn in which an idle driver reads a frame.
* `runs_drain`: what the drain loop takes.
-/

namespace EmbassyKnx.Driver

open Rust Heapless Octets FrameLayout FrameReader FrameWriter Async

/-- Nothing to transmit, a free block for every allocation, no write errors. -/
structure Undisturbed (w : Line) : Prop where
  requests : w.requests = []
  blocks : ∀ k, w.blocks.get k = true
  writes : ∀ k, w.writeErrors.get k = none

/-- A run of the driver's loops. -/
abbrev Runs (p : Profile) : DriverState → DriverState → Prop := Relation.ReflTransGen (Turn p)

/-! ## What a reception leaves on the line -/

/-- A reception reads, writes and allocates. -/
structure Received (w w' : Line) : Prop where
  requests : w'.requests = w.requests
  delivered : w'.delivered = w.delivered
  blocks : w'.blocks = w.blocks
  writes : (∀ k, w.writeErrors.get k = none) → ∀ k, w'.writeErrors.get k = none

theorem Received.refl (w : Line) : Received w w := ⟨rfl, rfl, rfl, id⟩

theorem Received.trans {w w' w'' : Line} (h : Received w w') (h' : Received w' w'') :
    Received w w'' :=
  ⟨h'.requests.trans h.requests, h'.delivered.trans h.delivered, h'.blocks.trans h.blocks,
    fun hw => h'.writes (h.writes hw)⟩

theorem received_rx (w : Line) (rx : List LineEvent) : Received w { w with rx } := ⟨rfl, rfl, rfl, id⟩

theorem received_ackResult (dst : Address) (w : Line) : Received w (ackResult dst w).2 := by
  unfold ackResult
  split_ifs
  · unfold writeResult
    cases w.writeErrors.head with
    | none => exact ⟨rfl, rfl, rfl, fun hw k => hw (k + 1)⟩
    | some e => exact ⟨rfl, rfl, rfl, fun hw k => hw (k + 1)⟩
  · exact .refl w

section Reception

variable {T : Type} [FrameWriter T] {w : Line} {os : List UInt8} {tail : List LineEvent}

theorem received_bodyReception (hdr : List UInt8) (w : Line) :
    Received w (bodyReception T hdr w).2 := by
  have hreceived := received_ackResult (dstAddrOf T hdr) w
  unfold bodyReception
  rcases hack : ackResult (dstAddrOf T hdr) w with ⟨e | u, w₁⟩
  · rw [hack] at hreceived
    exact hreceived
  · rw [hack] at hreceived
    simp only
    split_ifs with hroom
    · exact hreceived.trans (received_rx w₁ _)
    · obtain ⟨rx, hstop | ⟨e, hstop⟩⟩ :=
        readStop_cases (burst w₁.rx).length (w₁.rx.drop (burst w₁.rx).length)
      · rw [hstop]
        exact hreceived.trans (received_rx w₁ _)
      · rw [hstop]
        exact hreceived.trans (received_rx w₁ _)

theorem received_reception (c : UInt8) (w : Line) : Received w (reception T c w).2 := by
  unfold reception
  simp only
  split_ifs with hrest
  · exact (received_rx w _).trans (received_bodyReception _ _)
  · exact received_rx w _

/-- What a timed read leaves of a burst and of the silence behind it. -/
theorem readStop_silence (n : ℕ) (tail : List LineEvent) :
    readStop n (.silence :: tail) = (.timeoutError n, tail) := rfl

/-- A body that does not fill the scratch frame takes the first silence along. -/
theorem bodyReception_rx (hdr : List UInt8) (hrx : w.rx = os.map .octet ++ .silence :: tail)
    (hw : w.writeErrors.head = none) :
    (bodyReception T hdr w).2.rx =
      if os.length < maxFrameSize T - headerLength T then tail
      else (os.drop (maxFrameSize T - headerLength T)).map .octet ++ .silence :: tail := by
  obtain ⟨w₁, hack, hrx₁⟩ := ackResult_of_none (dstAddrOf T hdr) hw
  rw [hrx] at hrx₁
  have hburst : burst w₁.rx = os := by
    rw [hrx₁]
    exact burst_map_octet_append os trivial
  simp only [bodyReception, hack, hburst]
  by_cases hroom : maxFrameSize T - headerLength T ≤ os.length
  · rw [if_pos hroom, if_neg (by omega), hrx₁,
      List.drop_append_of_le_length (by rw [List.length_map]; exact hroom), List.map_drop]
  · rw [if_neg hroom, if_pos (by omega), hrx₁, drop_map_octet_append, readStop_silence]

variable [ScratchFits T]

/-- A frame that does not fill the scratch frame takes the first silence along. -/
theorem reception_rx (c : UInt8) (hrx : w.rx = os.map .octet ++ .silence :: tail)
    (hw : w.writeErrors.head = none) :
    (reception T c w).2.rx = if (c :: os).length < maxFrameSize T then tail
      else (os.drop (maxFrameSize T - 1)).map .octet ++ .silence :: tail := by
  have hH := ScratchFits.headerLength_lt_max (T := T)
  have hH1 : 6 ≤ headerLength T := by simp [headerLength]
  have hburst : burst w.rx = os := by
    rw [hrx]
    exact burst_map_octet_append os trivial
  rw [reception, hburst]
  simp only [List.length_cons]
  by_cases hrest : headerLength T - 1 ≤ os.length
  · have hrx' : w.rx.drop (headerLength T - 1) =
        (os.drop (headerLength T - 1)).map .octet ++ .silence :: tail := by
      rw [hrx, List.drop_append_of_le_length (by rw [List.length_map]; exact hrest), List.map_drop]
    have hbody := bodyReception_rx (T := T) (w := { w with rx := w.rx.drop (headerLength T - 1) })
      (c :: os.take (headerLength T - 1)) hrx' hw
    rw [if_pos hrest, hbody, List.length_drop, List.drop_drop]
    have hsum : headerLength T - 1 + (maxFrameSize T - headerLength T) = maxFrameSize T - 1 := by
      omega
    rw [hsum]
    split_ifs <;> first | rfl | omega
  · rw [if_neg hrest, if_pos (by omega), hrx, drop_map_octet_append, readStop_silence]

/-- `receive_frame_int` leaves the line as `reception` does. -/
theorem world_receiveFrameInt (p : Profile) (c : UInt8) (hb : w.blocks.head = true) :
    (exec uart (receiveFrameInt T p c) w).world =
      (reception T c { w with blocks := w.blocks.tail }).2 := by
  have hexec := exec_receiveFrameInt (T := T) p c hb
  rcases hr : reception T c { w with blocks := w.blocks.tail } with ⟨e | b, w'⟩
  · rw [hr] at hexec
    rw [show exec uart _ w = _ from hexec]
    rfl
  · rw [hr] at hexec
    obtain ⟨f, -, hrun⟩ := hexec
    rw [hrun]
    rcases acceptFrame p f b.length with why | r
    · rfl
    · rfl

end Reception

/-! ## What becomes of a frame -/

/-- The size of the scratch frame for a frame that starts with the octet `c`. -/
def scratchSize (c : UInt8) : ℕ :=
  if c &&& 0xd3 = 0x90 then maxFrameSize StandardFrame else maxFrameSize ExtendedFrame

/-- What `receive_frame` makes of the frame `b`: the octets of the frame it returns, or `none`
    if it refuses `b`. -/
def frameVerdict (p : Profile) (b : List UInt8) : Panicking (Option (List UInt8)) :=
  if octetAt b 0 &&& 0xd3 = 0x90 then .ok (if StandardFormat b then some b else none)
  else Except.toOption <$> extendedVerdict p b

section Frame

variable (p : Profile) {c : UInt8} {os : List UInt8} {w : Line} {tail : List LineEvent}

theorem Undisturbed.received {w w' : Line} (hw : Undisturbed w)
    (h : Received { w with blocks := w.blocks.tail } w') : Undisturbed w' where
  requests := h.requests.trans hw.requests
  blocks k := by
    rw [h.blocks]
    exact hw.blocks (k + 1)
  writes := h.writes hw.writes

theorem world_receiveFrame (c : UInt8) (hc : isFrameStart c = true) (hb : w.blocks.head = true) :
    (exec uart (receiveFrame p c) w).world =
      if c &&& 0xd3 = 0x90 then (reception StandardFrame c { w with blocks := w.blocks.tail }).2
      else (reception ExtendedFrame c { w with blocks := w.blocks.tail }).2 := by
  rcases (isFrameStart_iff c).mp hc with hstd | hext
  · rw [if_pos hstd, ← world_receiveFrameInt p c hb, exec_receiveFrame_standard p hstd]
    cases exec uart (receiveFrameInt StandardFrame p c) w <;> rfl
  · have hne : ¬c &&& 0xd3 = 0x90 := by
      rw [hext]
      decide
    rw [if_neg hne, ← world_receiveFrameInt p c hb, exec_receiveFrame_extended p hext]
    cases exec uart (receiveFrameInt ExtendedFrame p c) w <;> rfl

/-- The line behind a frame that is followed by silence. -/
theorem receiveFrame_leaves (hc : isFrameStart c = true) (hw : Undisturbed w)
    (hrx : w.rx = os.map .octet ++ .silence :: tail) :
    Received { w with blocks := w.blocks.tail } (exec uart (receiveFrame p c) w).world ∧
      (exec uart (receiveFrame p c) w).world.rx =
        if (c :: os).length < scratchSize c then tail
        else (os.drop (scratchSize c - 1)).map .octet ++ .silence :: tail := by
  rw [world_receiveFrame p c hc (hw.blocks 0), scratchSize]
  by_cases hstd : c &&& 0xd3 = 0x90
  · rw [if_pos hstd, if_pos hstd]
    exact ⟨received_reception c _, reception_rx (w := { w with blocks := w.blocks.tail }) c hrx
      (hw.writes 0)⟩
  · rw [if_neg hstd, if_neg hstd]
    exact ⟨received_reception c _, reception_rx (w := { w with blocks := w.blocks.tail }) c hrx
      (hw.writes 0)⟩

/-- How `receive_frame` ends on a frame with this verdict. -/
def EndsIn (o : Outcome Line (Except TransferError Frame)) : Panicking (Option (List UInt8)) → Prop
  | .error _ => o.IsPanic
  | .ok none => ∃ e w', o = .returned (.error e) w'
  | .ok (some d) => ∃ f w', o = .returned (.ok f) w' ∧ f.data = d

theorem receiveFrame_endsIn (hc : isFrameStart c = true) (hw : Undisturbed w)
    (hrx : w.rx = os.map .octet ++ .silence :: tail) :
    EndsIn (exec uart (receiveFrame p c) w) (frameVerdict p (c :: os)) := by
  unfold frameVerdict
  rw [octetAt_cons_zero]
  rcases (isFrameStart_iff c).mp hc with hstd | hext
  · rw [if_pos hstd]
    by_cases hfmt : StandardFormat (c :: os)
    · obtain ⟨g, w', hrun, hdata⟩ :=
        receiveFrame_of_format p hstd hrx trivial (hw.blocks 0) (hw.writes 0) hfmt
      rw [if_pos hfmt]
      exact ⟨_, w', hrun, hdata⟩
    · rw [if_neg hfmt]
      exact receiveFrame_of_not_format p hstd hrx trivial (hw.blocks 0) (hw.writes 0) hfmt
  · have hne : ¬c &&& 0xd3 = 0x90 := by
      rw [hext]
      decide
    have hends := receiveFrame_extended p hext hrx trivial (hw.blocks 0) (hw.writes 0)
    rw [if_neg hne]
    rcases hverdict : extendedVerdict p (c :: os) with why | e | d
    · rw [hverdict] at hends
      obtain ⟨w', hrun⟩ := hends
      rw [hrun]
      trivial
    · rw [hverdict] at hends
      exact hends
    · rw [hverdict] at hends
      obtain ⟨g, w', hrun, hdata⟩ := hends
      exact ⟨_, w', hrun, hdata⟩

/-- A frame that is accepted leaves room in the scratch frame. -/
theorem length_of_frameVerdict (hc : isFrameStart c = true) {d : List UInt8}
    (h : frameVerdict p (c :: os) = .ok (some d)) : (c :: os).length < scratchSize c := by
  unfold frameVerdict at h
  rw [octetAt_cons_zero] at h
  unfold scratchSize
  rcases (isFrameStart_iff c).mp hc with hstd | hext
  · rw [if_pos hstd] at h ⊢
    split_ifs at h with hfmt
    · exact Nat.lt_of_le_of_lt hfmt.length_le (by decide)
    · simp at h
  · have hne : ¬c &&& 0xd3 = 0x90 := by
      rw [hext]
      decide
    rw [if_neg hne] at h ⊢
    obtain ⟨e, hv⟩ | ⟨why, hv⟩ | ⟨hv, hle, hlen, -⟩ := extendedVerdict_cases p (c :: os)
    · rw [hv] at h
      simp [Except.toOption] at h
    · rw [hv] at h
      simp at h
    · rw [hlen]
      show _ < 263
      omega

end Frame

/-! ## Turns -/

section Turns

variable (p : Profile) {w : Line} {k : ℕ} {o c : UInt8} {os : List UInt8} {rx tail : List LineEvent}

theorem nextRead_silences (k : ℕ) (rx : List LineEvent) :
    nextRead (List.replicate k .silence ++ rx) = nextRead rx := by
  induction k with
  | zero => rfl
  | succ k ih => rw [List.replicate_succ, List.cons_append, nextRead, ih]

/-- An idle driver waits through silence for the next octet. -/
theorem exec_select_octet (hw : Undisturbed w)
    (hrx : w.rx = List.replicate k .silence ++ .octet o :: rx) :
    exec uart selectReadOrRequest w = .returned (.inl (.ok o)) { w with rx } := by
  have hnext : nextRead w.rx = some (.ok o, rx) := by
    rw [hrx, nextRead_silences]
    rfl
  show exec uart (.perform .selectReadOrRequest .done) w = _
  simp only [exec, uart, hw.requests, hnext]

theorem Undisturbed.with_rx (hw : Undisturbed w) (rx : List LineEvent) :
    Undisturbed { w with rx } :=
  ⟨hw.requests, hw.blocks, hw.writes⟩

/-- An octet that starts no frame is skipped. -/
theorem turn_skip (hw : Undisturbed w) (hrx : w.rx = List.replicate k .silence ++ .octet o :: rx)
    (ho : isFrameStart o = false) : Turn p (.idle, w) (.idle, { w with rx }) := by
  show exec uart (runIteration p .idle) w = _
  rw [runIteration, exec_bind, exec_select_octet hw hrx, Outcome.andThen_returned]
  simp [ho]

/-- A turn that reads a frame ends as `receive_frame` does. -/
theorem exec_runIteration_frame (hw : Undisturbed w)
    (hrx : w.rx = List.replicate k .silence ++ .octet c :: rx) (hc : isFrameStart c = true) :
    exec uart (runIteration p .idle) w = (exec uart (receiveFrame p c) { w with rx }).andThen
      fun r w' => match r with
        | .ok frame => .returned .idle { w' with delivered := w'.delivered ++ [frame] }
        | .error _ => .returned .draining w' := by
  rw [runIteration, exec_bind, exec_select_octet hw hrx, Outcome.andThen_returned]
  simp only [hc, if_true, exec_bind]
  congr 1
  funext r w'
  cases r with
  | error e => rfl
  | ok frame => rfl

/-- The turn in which an idle driver reads a frame. -/
theorem turn_frame (hw : Undisturbed w)
    (hrx : w.rx = List.replicate k .silence ++ .octet c :: (os.map .octet ++ .silence :: tail))
    (hc : isFrameStart c = true) :
    match frameVerdict p (c :: os) with
    | .error _ => (exec uart (runIteration p .idle) w).IsPanic
    | .ok (some d) => ∃ f w', Turn p (.idle, w) (.idle, w') ∧ f.data = d ∧
        w'.delivered = w.delivered ++ [f] ∧ Undisturbed w' ∧ w'.rx = tail
    | .ok none => ∃ w', Turn p (.idle, w) (.draining, w') ∧ w'.delivered = w.delivered ∧
        Undisturbed w' ∧ w'.rx = if (c :: os).length < scratchSize c then tail
          else (os.drop (scratchSize c - 1)).map .octet ++ .silence :: tail := by
  have hw₁ := hw.with_rx (os.map .octet ++ .silence :: tail)
  have hends := receiveFrame_endsIn p hc hw₁ rfl
  obtain ⟨hreceived, hleft⟩ := receiveFrame_leaves p hc hw₁ rfl
  have hrun := exec_runIteration_frame p hw hrx hc
  rcases hverdict : frameVerdict p (c :: os) with why | _ | d
  · rw [hverdict] at hends
    rcases hreceive : exec uart (receiveFrame p c) { w with rx := os.map .octet ++ .silence :: tail }
      with ⟨r, w'⟩ | ⟨why', w'⟩ | w'
    · rw [hreceive] at hends
      exact absurd hends id
    · rw [hrun, hreceive]
      exact Outcome.isPanic_panicked _ _
    · rw [hreceive] at hends
      exact absurd hends id
  · rw [hverdict] at hends
    obtain ⟨e, w', hreceive⟩ := hends
    rw [hreceive] at hreceived hleft
    refine ⟨w', ?_, hreceived.delivered, hw₁.received hreceived, hleft⟩
    show exec uart (runIteration p .idle) w = _
    rw [hrun, hreceive]
    rfl
  · rw [hverdict] at hends
    obtain ⟨f, w', hreceive, hdata⟩ := hends
    rw [hreceive] at hreceived hleft
    rw [if_pos (length_of_frameVerdict p hc hverdict)] at hleft
    have hundisturbed := hw₁.received hreceived
    refine ⟨f, { w' with delivered := w'.delivered ++ [f] }, ?_, hdata, ?_,
      ⟨hundisturbed.requests, hundisturbed.blocks, hundisturbed.writes⟩, hleft⟩
    · show exec uart (runIteration p .idle) w = _
      rw [hrun, hreceive]
      rfl
    · have hdelivered : w'.delivered = w.delivered := hreceived.delivered
      rw [hdelivered]

/-- The drain loop takes what is left of a burst, and one read timeout. -/
theorem runs_drain (hw : Undisturbed w) (hrx : w.rx = os.map .octet ++ .silence :: tail) :
    Runs p (.draining, w) (.idle, { w with rx := tail }) := by
  induction os generalizing w with
  | nil =>
    apply Relation.ReflTransGen.single
    show exec uart (runIteration p .draining) w = _
    rw [runIteration, exec_bind, exec_timedRead, Outcome.andThen_returned, hrx]
    rfl
  | cons o os ih =>
    refine .head ?_ (ih (w := { w with rx := os.map .octet ++ .silence :: tail }) (hw.with_rx _) rfl)
    show exec uart (runIteration p .draining) w = _
    rw [runIteration, exec_bind, exec_timedRead, Outcome.andThen_returned, hrx]
    rfl

end Turns

end EmbassyKnx.Driver
