import EmbassyKnx.Driver.Echo

/-!
# What the driver does in a run

A turn of `run` reads some events of the line and does one of six things (`TurnReport`),
whatever the line delivers and whichever allocations and writes fail. It skips an error or
an octet with which no frame starts; it gives up a frame, perhaps after an acknowledge, and
drains the line; it hands over a frame whose octets it has read in one burst, acknowledged
iff its destination is one of the device's; it takes a request, of whose commands the writes
make a prefix, and answers with one status; it drains one event more; or it ends the drain.

* `turn_reports`: a turn.
* `run_reports`: a run, turn by turn.
* `receives_safely_of_line`: on which lines no run meets an overflow.
-/

namespace EmbassyKnx.Driver

open Rust Octets FrameLayout FrameReader FrameWriter Async

/-! ## Reports -/

/-- What has been done to the world. -/
structure Report where
  /-- The events of the line that have been read. -/
  read : List LineEvent
  written : List UInt8
  handedOver : List Frame
  signals : List ConStatus
  taken : List Frame

namespace Report

/-- Events have been read and octets written. -/
def onUart (read : List LineEvent) (written : List UInt8) : Report := ⟨read, written, [], [], []⟩

/-- One after the other. -/
def concat (rs : List Report) : Report where
  read := rs.flatMap read
  written := rs.flatMap written
  handedOver := rs.flatMap handedOver
  signals := rs.flatMap signals
  taken := rs.flatMap taken

/-- It is what has been done between `w` and `w'`. -/
structure Between (r : Report) (w w' : Line) : Prop where
  rx : w.rx = r.read ++ w'.rx
  tx : w'.tx = w.tx ++ r.written
  delivered : w'.delivered = w.delivered ++ r.handedOver
  signals : w'.signals = w.signals ++ r.signals
  requests : w.requests = r.taken ++ w'.requests

section Between

variable {r r' : Report} {rs : List Report} {w w₁ w' : Line} {es es' : List LineEvent}
  {xs ys : List UInt8}

/-- Reading and allocating. -/
theorem between_reading {w : Line} {rx : List LineEvent} (h : w.rx = es ++ rx)
    (requestFirst blocks : Stream' Bool) (writeErrors : Stream' (Option UartError)) :
    (onUart es []).Between w { w with rx, requestFirst, blocks, writeErrors } where
  rx := h
  tx := (List.append_nil _).symm
  delivered := (List.append_nil _).symm
  signals := (List.append_nil _).symm
  requests := rfl

theorem between_rfl (w : Line) : (onUart [] []).Between w w :=
  between_reading rfl w.requestFirst w.blocks w.writeErrors

theorem concat_nil_between (w : Line) : (concat []).Between w w := between_rfl w

theorem Between.concat (h : (concat rs).Between w w₁) (h' : r.Between w₁ w') :
    (Report.concat (rs ++ [r])).Between w w' where
  rx := by simp [h'.rx, h.rx, Report.concat]
  tx := by simp [h'.tx, h.tx, Report.concat]
  delivered := by simp [h'.delivered, h.delivered, Report.concat]
  signals := by simp [h'.signals, h.signals, Report.concat]
  requests := by simp [h'.requests, h.requests, Report.concat]

/-- Reads and writes in front of something else. -/
theorem Between.after_uart (h : (onUart es xs).Between w w₁) (h' : r.Between w₁ w') :
    Between { r with read := es ++ r.read, written := xs ++ r.written } w w' where
  rx := by simp [h'.rx, h.rx, onUart]
  tx := by simp [h'.tx, h.tx, onUart]
  delivered := by simp [h'.delivered, h.delivered, onUart]
  signals := by simp [h'.signals, h.signals, onUart]
  requests := by simp [h'.requests, h.requests, onUart]

theorem Between.uart_trans (h : (onUart es xs).Between w w₁) (h' : (onUart es' ys).Between w₁ w') :
    (onUart (es ++ es') (xs ++ ys)).Between w w' := h.after_uart h'

theorem Between.reading_left (h : (onUart es []).Between w w₁) (h' : r.Between w₁ w') :
    Between { r with read := es ++ r.read } w w' := h.after_uart h'

theorem Between.reading_right (h : (onUart es xs).Between w w₁)
    (h' : (onUart es' []).Between w₁ w') : (onUart (es ++ es') xs).Between w w' := by
  have htrans := h.uart_trans h'
  rwa [List.append_nil] at htrans

end Between

end Report

open Report

/-! ## What is read -/

/-- The octets have come without a pause, and perhaps a silence behind them. -/
def IsBurst (octets : List UInt8) (es : List LineEvent) : Prop :=
  ∃ stop, es = octets.map .octet ++ stop ∧ stop <+: [.silence]

/-- The event that an untimed read returns. -/
def eventOf : Except UartError UInt8 → LineEvent
  | .ok b => .octet b
  | .error e => .error e

section Reads

variable {rx rx' : List LineEvent}

theorem rx_eq_burst (rx : List LineEvent) :
    rx = (burst rx).map .octet ++ rx.drop (burst rx).length := by
  induction rx with
  | nil => rfl
  | cons e rx ih =>
    cases e with
    | octet b => simpa [burst] using ih
    | silence => rfl
    | error e => rfl

theorem take_of_burst {n : ℕ} (h : n ≤ (burst rx).length) :
    rx.take n = ((burst rx).take n).map .octet := by
  conv_lhs => rw [rx_eq_burst rx]
  rw [List.take_append_of_le_length (by rwa [List.length_map]), List.map_take]

/-- A burst ends where the next event is no octet. -/
theorem burst_drop_burst (rx : List LineEvent) : burst (rx.drop (burst rx).length) = [] := by
  induction rx with
  | nil => rfl
  | cons e rx ih =>
    cases e with
    | octet b => exact ih
    | silence => rfl
    | error e => rfl

/-- What ends a timed read is read. -/
theorem readStop_reads (n : ℕ) (rx : List LineEvent) : ∃ es, rx = es ++ (readStop n rx).2 := by
  rcases rx with _ | ⟨_ | _ | e, rx⟩
  · exact ⟨[], rfl⟩
  · exact ⟨[], rfl⟩
  · exact ⟨[_], rfl⟩
  · exact ⟨[_], rfl⟩

/-- A timed read takes a burst and what ends it. -/
theorem timedBurst_reads (n : ℕ) (rx : List LineEvent) :
    ∃ es, rx = es ++ (readStop n (rx.drop (burst rx).length)).2 := by
  obtain ⟨es, hes⟩ := readStop_reads n (rx.drop (burst rx).length)
  refine ⟨(burst rx).map .octet ++ es, ?_⟩
  rw [List.append_assoc, ← hes]
  exact rx_eq_burst rx

/-- A read that runs into its timeout has read a burst. -/
theorem isBurst_of_timeout {n m : ℕ}
    (h : readStop n (rx.drop (burst rx).length) = (.timeoutError m, rx')) :
    ∃ es, rx = es ++ rx' ∧ IsBurst (burst rx) es := by
  have hall := rx_eq_burst rx
  have hstop := burst_drop_burst rx
  rcases hrest : rx.drop (burst rx).length with _ | ⟨b | _ | e, rest⟩
  · rw [hrest] at h hall
    cases h
    exact ⟨_, hall, [], (List.append_nil _).symm, List.nil_prefix⟩
  · rw [hrest] at hstop
    simp [burst] at hstop
  · rw [hrest] at h hall
    cases h
    refine ⟨(burst rx).map .octet ++ [.silence], ?_, _, rfl, List.prefix_refl _⟩
    rw [List.append_assoc]
    exact hall
  · rw [hrest] at h
    simp [readStop] at h

theorem nextRead_eq_some {r : Except UartError UInt8} (h : nextRead rx = some (r, rx')) :
    ∃ k, rx = List.replicate k .silence ++ [eventOf r] ++ rx' := by
  induction rx with
  | nil => simp [nextRead] at h
  | cons e rx ih =>
    cases e with
    | octet b =>
      cases h
      exact ⟨0, rfl⟩
    | silence =>
      obtain ⟨k, hk⟩ := ih h
      exact ⟨k + 1, congrArg (LineEvent.silence :: ·) hk⟩
    | error e =>
      cases h
      exact ⟨0, rfl⟩

end Reads

/-! ## Receiving -/

/-- The octet of `ack(AckTypes::ACK)`. -/
def ackOctet : UInt8 := Commands.uAcknReq ||| AckTypes.ack.toU8

/-- What is written for a frame to `dst`. -/
def acknowledge (dst : Address) : List UInt8 := if addressed dst then [ackOctet] else []

/-- The acknowledge is written or lost. -/
theorem ackResult_reports (dst : Address) (w : Line) :
    ∃ acks, (onUart [] acks).Between w (ackResult dst w).2 ∧ acks <+: acknowledge dst ∧
      ((ackResult dst w).1 = .ok () → acks = acknowledge dst) := by
  unfold ackResult acknowledge writeResult
  split_ifs
  · cases w.writeErrors.head with
    | none =>
      exact ⟨[ackOctet], ⟨rfl, rfl, (List.append_nil _).symm, (List.append_nil _).symm, rfl⟩,
        List.prefix_refl _, fun _ => rfl⟩
    | some e => exact ⟨[], between_reading rfl _ _ _, List.nil_prefix, by simp⟩
  · exact ⟨[], between_rfl w, List.prefix_refl _, fun _ => rfl⟩

section Reception

variable {T : Type} [FrameWriter T] {w : Line} {hdr b : List UInt8}

/-- A frame that is read behind the header `hdr` has been acknowledged, and its octets have come
    in one burst. -/
theorem bodyReception_reports (hdr : List UInt8) (w : Line) :
    ∃ es acks, (onUart es acks).Between w (bodyReception T hdr w).2 ∧
      acks <+: acknowledge (dstAddrOf T hdr) ∧
        ∀ b, (bodyReception T hdr w).1 = .ok b →
          acks = acknowledge (dstAddrOf T hdr) ∧ ∃ body, b = hdr ++ body ∧ IsBurst body es := by
  obtain ⟨acks, hacks, hprefix, hok⟩ := ackResult_reports (dstAddrOf T hdr) w
  unfold bodyReception
  rcases hack : ackResult (dstAddrOf T hdr) w with ⟨e | u, w₁⟩
  · rw [hack] at hacks
    exact ⟨[], acks, hacks, hprefix, by simp⟩
  · rw [hack] at hacks hok
    have hreading {es rx : List LineEvent} (h : w₁.rx = es ++ rx) :
        (onUart es acks).Between w { w₁ with rx } :=
      hacks.reading_right (between_reading h _ _ _)
    simp only
    split_ifs with hroom
    · refine ⟨_, acks, hreading (List.take_append_drop _ _).symm, hprefix, ?_⟩
      rintro _ ⟨⟩
      exact ⟨hok rfl, _, rfl, [], by rw [take_of_burst hroom, List.append_nil], List.nil_prefix⟩
    · obtain ⟨rx, hstop | ⟨e, hstop⟩⟩ :=
        readStop_cases (burst w₁.rx).length (w₁.rx.drop (burst w₁.rx).length)
      · obtain ⟨es, hes, hburst⟩ := isBurst_of_timeout hstop
        rw [hstop]
        refine ⟨es, acks, hreading hes, hprefix, ?_⟩
        rintro _ ⟨⟩
        exact ⟨hok rfl, _, rfl, hburst⟩
      · obtain ⟨es, hes⟩ := timedBurst_reads (burst w₁.rx).length w₁.rx
        rw [hstop] at hes ⊢
        exact ⟨es, acks, hreading hes, hprefix, by simp⟩

variable [ScratchFits T]

theorem reception_reports (c : UInt8) (w : Line) :
    ∃ es acks, (onUart es acks).Between w (reception T c w).2 ∧ acks <+: [ackOctet] ∧
      ∀ b, (reception T c w).1 = .ok b →
        acks = acknowledge (dstAddrOf T b) ∧ ∃ os, b = c :: os ∧ IsBurst os es := by
  have hone (dst : Address) : acknowledge dst <+: [ackOctet] := by
    unfold acknowledge
    split_ifs
    · exact List.prefix_refl _
    · exact List.nil_prefix
  unfold reception
  simp only
  split_ifs with hrest
  · have hheader : (onUart (w.rx.take (headerLength T - 1)) []).Between w
        { w with rx := w.rx.drop (headerLength T - 1) } :=
      between_reading (List.take_append_drop _ _).symm _ _ _
    obtain ⟨es, acks, hacks, hprefix, hok⟩ := bodyReception_reports (T := T)
      (c :: (burst w.rx).take (headerLength T - 1)) { w with rx := w.rx.drop (headerLength T - 1) }
    refine ⟨_, acks, hheader.reading_left hacks, hprefix.trans (hone _), ?_⟩
    intro b hb
    obtain ⟨rfl, body, rfl, stop, rfl, hstop⟩ := hok b hb
    have hH1 : 6 ≤ headerLength T := by simp [headerLength]
    refine ⟨?_, _, List.cons_append, stop, ?_, hstop⟩
    · rw [dstAddrOf_append_left]
      rw [List.length_cons, List.length_take]
      omega
    · rw [take_of_burst hrest, List.map_append, List.append_assoc]
      rfl
  · obtain ⟨es, hes⟩ := timedBurst_reads (burst w.rx).length w.rx
    exact ⟨es, [], between_reading hes _ _ _, List.nil_prefix, by simp⟩

end Reception

/-- The octets `b` are received as the frame `f`, with the destination that the driver has
    decided on. -/
inductive ReceivedAs (p : Profile) : List UInt8 → Address → Frame → Prop
  | standard (g : StandardFrame) : octetAt (data g) 0 &&& 0xd3 = 0x90 →
    StandardFormat (data g) →
    ReceivedAs p (data g) (dstAddrOf StandardFrame (data g)) (.standard g)
  | extended (b : List UInt8) (g : ExtendedFrame) : octetAt b 0 &&& 0xd3 = 0x10 →
    extendedVerdict p b = .ok (.ok (data g)) →
    ReceivedAs p b (dstAddrOf ExtendedFrame b) (.extended g)

theorem ReceivedAs.sized {p : Profile} {b : List UInt8} {dst : Address} {f : Frame}
    (h : ReceivedAs p b dst f) : f.Sized := by
  cases h with
  | standard g _ hfmt =>
    have hlen := hfmt.1
    show 8 ≤ (data g).length
    omega
  | extended b g _ hverdict => exact extendedVerdict_length p hverdict

theorem ReceivedAs.of_control {p : Profile} {b : List UInt8} {dst : Address} {f : Frame}
    (h : ReceivedAs p b dst f) (hctrl : octetAt b 0 &&& 0xd3 = 0x90) :
    ∃ g : StandardFrame, f = .standard g ∧ data g = b ∧ StandardFormat b := by
  cases h with
  | standard g _ hfmt => exact ⟨g, rfl, rfl, hfmt⟩
  | extended b g hext _ =>
    rw [hctrl] at hext
    simp at hext

/-- A line begins with one frame of the standard format at most. -/
theorem StandardFormat.eq_of_line {c : UInt8} {os us : List UInt8} {es es' : List LineEvent}
    (h : StandardFormat (c :: os)) (h' : StandardFormat (c :: us))
    (hline : os.map LineEvent.octet ++ es = us.map .octet ++ es') : os = us := by
  obtain ⟨hos, -⟩ := h
  obtain ⟨hus, -⟩ := h'
  rw [List.length_cons, octetAt_cons_succ] at hos hus
  have hlg : octetAt os 4 = octetAt us 4 := by
    have hevent := congrArg (·[4]?) hline
    simp only [List.getElem?_append, List.getElem?_map, List.length_map,
      if_pos (show 4 < os.length by omega), if_pos (show 4 < us.length by omega),
      List.getElem?_eq_getElem (show 4 < os.length by omega),
      List.getElem?_eq_getElem (show 4 < us.length by omega), Option.map_some, Option.some.injEq,
      LineEvent.octet.injEq] at hevent
    rwa [octetAt_eq_getElem (by omega), octetAt_eq_getElem (by omega)]
  have hlen : os.length = us.length := by
    rw [hlg] at hos
    omega
  have hmap := List.append_inj_left hline (by rw [List.length_map, List.length_map, hlen])
  exact List.map_injective_iff.mpr (fun _ _ => LineEvent.octet.inj) hmap

section Frame

variable (p : Profile) {T : Type} [FrameWriter T] [ScratchFits T] {w w' : Line}

theorem receiveFrameInt_reports (c : UInt8) (w : Line) :
    ∃ es acks, (onUart es acks).Between w (exec uart (receiveFrameInt T p c) w).world ∧
      acks <+: [ackOctet] ∧ ∀ g w', exec uart (receiveFrameInt T p c) w = .returned (.ok g) w' →
        ∃ os, (acks = acknowledge (dstAddrOf T (c :: os)) ∧ IsBurst os es) ∧
          (c :: os).length ≤ maxFrameSize T ∧ ∃ f : T, data f = scratchOf T (c :: os) ∧
            acceptFrame p f (c :: os).length = .ok (.ok g) := by
  by_cases hblock : w.blocks.head = true
  · obtain ⟨es, acks, hacks, hprefix, hok⟩ :=
      reception_reports (T := T) c { w with blocks := w.blocks.tail }
    refine ⟨es, acks, ?_, hprefix, ?_⟩
    · rw [world_receiveFrameInt p c hblock]
      have halloc : (onUart [] []).Between w { w with blocks := w.blocks.tail } :=
        between_reading rfl _ _ _
      exact halloc.reading_left hacks
    · intro g w' hrun
      have hexec := exec_receiveFrameInt (T := T) p c hblock
      rcases hr : reception T c { w with blocks := w.blocks.tail } with ⟨e | b, w₁⟩
      · rw [hr] at hexec
        rw [show exec uart _ w = _ from hexec] at hrun
        simp at hrun
      · rw [hr] at hexec hok
        obtain ⟨f, hf, hexec⟩ := hexec
        obtain ⟨hdst, os, rfl, hburst⟩ := hok b rfl
        refine ⟨os, ⟨hdst, hburst⟩, reception_length hr, f, hf, ?_⟩
        rw [hexec] at hrun
        rcases haccept : acceptFrame p f (c :: os).length with why | r
        · rw [haccept] at hrun
          simp at hrun
        · rw [haccept] at hrun
          cases hrun
          rfl
  · rw [Bool.not_eq_true] at hblock
    rw [exec_receiveFrameInt_outOfMemory p c hblock]
    exact ⟨[], [], between_reading rfl _ _ _, List.nil_prefix, by simp⟩

variable {p}

/-- The octets of a standard frame are those that have been received. -/
theorem receivedAs_standard {b : List UInt8} {f g : StandardFrame}
    (hctrl : octetAt b 0 &&& 0xd3 = 0x90) (hf : data f = scratchOf StandardFrame b)
    (hlen : b.length ≤ 24) (haccept : acceptFrame p f b.length = .ok (.ok g)) :
    ReceivedAs p b (dstAddrOf StandardFrame b) (.standard g) := by
  obtain ⟨hacc, hrej⟩ := acceptFrame_standard p hf hlen
  by_cases hfmt : StandardFormat b
  · obtain ⟨g', hg', rfl⟩ := hacc hfmt
    rw [hg'] at haccept
    cases haccept
    exact .standard g hctrl hfmt
  · obtain ⟨e, he⟩ := hrej hfmt
    rw [he] at haccept
    simp at haccept

theorem receivedAs_extended {b : List UInt8} {f g : ExtendedFrame}
    (hctrl : octetAt b 0 &&& 0xd3 = 0x10) (hf : data f = scratchOf ExtendedFrame b)
    (hlen : b.length ≤ 263) (haccept : acceptFrame p f b.length = .ok (.ok g)) :
    ReceivedAs p b (dstAddrOf ExtendedFrame b) (.extended g) := by
  have hverdict := acceptFrame_extended p hf hlen
  rw [haccept] at hverdict
  exact .extended b g hctrl hverdict.symm

theorem receiveFrame_reports {c : UInt8} (hc : isFrameStart c = true) (w : Line) :
    ∃ es acks, (onUart es acks).Between w (exec uart (receiveFrame p c) w).world ∧
      acks <+: [ackOctet] ∧ ∀ f w', exec uart (receiveFrame p c) w = .returned (.ok f) w' →
        ∃ os dst, ReceivedAs p (c :: os) dst f ∧ acks = acknowledge dst ∧ IsBurst os es := by
  rcases (isFrameStart_iff c).mp hc with hstd | hext
  · obtain ⟨es, acks, hacks, hprefix, hok⟩ := receiveFrameInt_reports p (T := StandardFrame) c w
    rw [exec_receiveFrame_standard p hstd]
    rcases hrun : exec uart (receiveFrameInt StandardFrame p c) w with ⟨e | g, w₁⟩ | ⟨why, w₁⟩ | w₁
    · rw [hrun] at hacks
      exact ⟨es, acks, hacks, hprefix, by simp [Except.map]⟩
    · rw [hrun] at hacks
      refine ⟨es, acks, hacks, hprefix, ?_⟩
      intro f w' hreturned
      cases hreturned
      obtain ⟨os, ⟨hdst, hburst⟩, hlen, f, hf, haccept⟩ := hok g w₁ hrun
      exact ⟨os, _, receivedAs_standard hstd hf hlen haccept, hdst, hburst⟩
    · rw [hrun] at hacks
      exact ⟨es, acks, hacks, hprefix, by simp⟩
    · rw [hrun] at hacks
      exact ⟨es, acks, hacks, hprefix, by simp⟩
  · obtain ⟨es, acks, hacks, hprefix, hok⟩ := receiveFrameInt_reports p (T := ExtendedFrame) c w
    rw [exec_receiveFrame_extended p hext]
    rcases hrun : exec uart (receiveFrameInt ExtendedFrame p c) w with ⟨e | g, w₁⟩ | ⟨why, w₁⟩ | w₁
    · rw [hrun] at hacks
      exact ⟨es, acks, hacks, hprefix, by simp [Except.map]⟩
    · rw [hrun] at hacks
      refine ⟨es, acks, hacks, hprefix, ?_⟩
      intro f w' hreturned
      cases hreturned
      obtain ⟨os, ⟨hdst, hburst⟩, hlen, f, hf, haccept⟩ := hok g w₁ hrun
      exact ⟨os, _, receivedAs_extended hext hf hlen haccept, hdst, hburst⟩
    · rw [hrun] at hacks
      exact ⟨es, acks, hacks, hprefix, by simp⟩
    · rw [hrun] at hacks
      exact ⟨es, acks, hacks, hprefix, by simp⟩

end Frame

/-! ## Transmitting -/

/-- `x` writes `octets` one after the other, all of them if it succeeds. -/
def WritesInOrder (x : Task (Except TransferError Unit)) (octets : List UInt8) : Prop :=
  ∀ w, (exec uart x w).IsPanic ∨ ∃ r w' out, exec uart x w = .returned r w' ∧
    (onUart [] out).Between w w' ∧ out <+: octets ∧ (r = .ok () → out = octets)

theorem writesInOrder_pure : WritesInOrder (pure (.ok ())) [] := fun w =>
  .inr ⟨_, w, [], rfl, between_rfl w, List.prefix_refl _, fun _ => rfl⟩

theorem writesInOrder_writeOctet (octet : UInt8) : WritesInOrder (writeOctet octet) [octet] := by
  intro w
  refine .inr ⟨(writeResult octet w).1, (writeResult octet w).2, ?_⟩
  rw [exec_writeOctet, writeResult]
  cases w.writeErrors.head with
  | none =>
    exact ⟨[octet], rfl, ⟨rfl, rfl, (List.append_nil _).symm, (List.append_nil _).symm, rfl⟩,
      List.prefix_refl _, fun _ => rfl⟩
  | some e => exact ⟨[], rfl, between_reading rfl _ _ _, List.nil_prefix, by simp⟩

theorem writesInOrder_tryThen {x y : Task (Except TransferError Unit)} {xs ys : List UInt8}
    (hx : WritesInOrder x xs) (hy : WritesInOrder y ys) : WritesInOrder (tryThen x y) (xs ++ ys) := by
  intro w
  rw [tryThen, exec_bind]
  obtain hpanic | ⟨r, w₁, out, hrun, hout, hprefix, hok⟩ := hx w
  · exact .inl (hpanic.andThen _)
  rw [hrun, Outcome.andThen_returned]
  cases r with
  | error e =>
    exact .inr ⟨_, w₁, out, rfl, hout, hprefix.trans (List.prefix_append _ _), by simp⟩
  | ok u =>
    obtain rfl := hok rfl
    obtain hpanic | ⟨r, w₂, out₂, hrun₂, hout₂, hprefix₂, hok₂⟩ := hy w₁
    · exact .inl hpanic
    · refine .inr ⟨r, w₂, out ++ out₂, hrun₂, hout.uart_trans hout₂, ?_, ?_⟩
      · exact (List.prefix_append_right_inj out).mpr hprefix₂
      · intro hr
        rw [hok₂ hr]

theorem writesInOrder_lift {α : Type} {x : Panicking α} {f : α → Task (Except TransferError Unit)}
    {octets : List UInt8} (h : ∀ a, x = .ok a → WritesInOrder (f a) octets) :
    WritesInOrder (liftM x >>= f) octets := by
  cases x with
  | ok a => exact h a rfl
  | error why => exact fun w => .inl (Outcome.isPanic_panicked _ _)

/-- The commands of `send_frame` for the octets `buf`, whatever becomes of the command octets
    on `u8`. -/
def frameCommands (buf : List UInt8) (checksum : UInt8) : List UInt8 :=
  [Commands.uLDataStartReq] ++ ([octetAt buf 0] ++
    (storeCommands 1 ((buf.drop 1).take (buf.length - 2)) ++
      ([Commands.uLDataEndReq ||| (UInt8.ofNat buf.length - 1)] ++ [checksum])))

section WriteFrame

variable (p : Profile) {buf : List UInt8}

theorem octetAt_of_index {i : ℕ} {octet : UInt8} (h : index buf i = .ok octet) :
    i < buf.length ∧ octet = octetAt buf i := by
  by_cases hi : i < buf.length
  · rw [index_eq_octetAt hi] at h
    exact ⟨hi, (Except.ok.inj h).symm⟩
  · rw [index, List.getElem?_eq_none (by omega)] at h
    simp at h

theorem writesInOrder_sendOctet (i : ℕ) :
    WritesInOrder (sendOctet p buf i) ([0x80 + UInt8.ofNat i] ++ [octetAt buf i]) := by
  refine writesInOrder_lift fun cont hcont => ?_
  obtain rfl := u8Add_ok hcont
  apply writesInOrder_tryThen (writesInOrder_writeOctet _)
  refine writesInOrder_lift fun octet hoctet => ?_
  rw [(octetAt_of_index hoctet).2]
  exact writesInOrder_writeOctet _

theorem writesInOrder_sendOctets (lo n : ℕ) (h : lo + n ≤ buf.length) :
    WritesInOrder (forRange (sendOctet p buf) lo n) (storeCommands lo ((buf.drop lo).take n)) := by
  induction n generalizing lo with
  | zero => exact writesInOrder_pure
  | succ n ih =>
    have hlo : lo < buf.length := by omega
    rw [List.drop_eq_getElem_cons hlo, List.take_succ_cons, ← octetAt_eq_getElem hlo,
      storeCommands, forRange]
    exact writesInOrder_tryThen (writesInOrder_sendOctet p lo) (ih (lo + 1) (by omega))

/-- The commands of a frame are written in their order, up to the first write that fails. -/
theorem writesInOrder_writeFrame (buf : List UInt8) (checksum : UInt8) :
    WritesInOrder (writeFrame p buf checksum) (frameCommands buf checksum) := by
  refine writesInOrder_tryThen (writesInOrder_writeOctet _) ?_
  refine writesInOrder_lift fun first hfirst => ?_
  obtain ⟨hpos, rfl⟩ := octetAt_of_index hfirst
  refine writesInOrder_tryThen (writesInOrder_writeOctet _) ?_
  refine writesInOrder_tryThen (writesInOrder_sendOctets p 1 _ (by omega)) ?_
  refine writesInOrder_lift fun last hlast => ?_
  rw [u8Sub_ok hlast]
  exact writesInOrder_tryThen (writesInOrder_writeOctet _) (writesInOrder_writeOctet _)

end WriteFrame

/-! ### The echo -/

/-- As many octets as the frame has, and a positive `L_Data.con`. -/
def PositiveEcho (n : ℕ) (es : List LineEvent) : Prop :=
  ∃ (octets : List UInt8) (k : ℕ) (con : UInt8),
    es = octets.map .octet ++ (List.replicate k .silence ++ [.octet con]) ∧ octets.length = n ∧
      con &&& 0x7f = 0xb ∧ con >>> 7 ≠ 0

section ReadEcho

variable {w w' : Line}

/-- The echo is only read, without a pause if that succeeds. -/
theorem readEchoes_reports (n : ℕ) (w : Line) :
    ∃ r es w', exec uart (forRange readEcho 0 n) w = .returned r w' ∧
      (onUart es []).Between w w' ∧
      (r = .ok () → ∃ octets : List UInt8, es = octets.map .octet ∧ octets.length = n) := by
  obtain ⟨hburst, hrun⟩ | ⟨hshort, e, hrun⟩ := exec_forRange_readEcho 0 n w
  · refine ⟨_, _, _, hrun, between_reading (List.take_append_drop _ _).symm _ _ _, fun _ => ?_⟩
    exact ⟨_, take_of_burst hburst, List.length_take_of_le hburst⟩
  · exact ⟨_, _, _, hrun, between_reading (List.take_append_drop _ _).symm _ _ _, by simp⟩

theorem readCon_reports {r : Except TransferError ConStatus}
    (h : exec uart readCon w = .returned r w') :
    ∃ es, (onUart es []).Between w w' ∧ (r = .ok .ok → ∃ (k : ℕ) (con : UInt8),
      es = List.replicate k .silence ++ [.octet con] ∧ con &&& 0x7f = 0xb ∧ con >>> 7 ≠ 0) := by
  have hop : exec uart read w = .ofReply w (uart .read w) := exec_op uart _ w
  rw [readCon, exec_bind, hop] at h
  simp only [uart] at h
  rcases hnext : nextRead w.rx with _ | ⟨octet, rx⟩
  · rw [hnext] at h
    simp [Outcome.ofReply] at h
  · obtain ⟨k, hk⟩ := nextRead_eq_some hnext
    have hreads : (onUart (List.replicate k .silence ++ [eventOf octet]) []).Between w
        { w with rx } := between_reading hk _ _ _
    rw [hnext] at h
    simp only [Option.map_some, Outcome.ofReply, Outcome.andThen_returned] at h
    cases octet with
    | error e =>
      cases h
      exact ⟨_, hreads, by simp⟩
    | ok con =>
      refine ⟨List.replicate k .silence ++ [.octet con], ?_⟩
      simp only at h
      split_ifs at h with hcon hseven
      · cases h
        exact ⟨hreads, by simp⟩
      · cases h
        exact ⟨hreads, fun _ => ⟨k, con, rfl, not_not.mp hcon, hseven⟩⟩
      · cases h
        exact ⟨hreads, by simp⟩

/-- A transmission that comes to a status has written all commands of the frame before it has
    read anything, and a positive status is the chip's. -/
theorem sendFrame_reports {p : Profile} {f : Frame} {r : Except TransferError ConStatus}
    (hrun : exec uart (sendFrame p f) w = .returned r w') :
    ∃ es out, (onUart es out).Between w w' ∧ out <+: frameCommands f.data f.checksum ∧
      (es ≠ [] → out = frameCommands f.data f.checksum) ∧
      (∀ status, r = .ok status → out = frameCommands f.data f.checksum) ∧
      (r = .ok .ok → PositiveEcho f.data.length es) := by
  have hreturns : ¬(exec uart (sendFrame p f) w).IsPanic := by
    rw [hrun]
    exact Outcome.isPanic_returned _ _
  rw [sendFrame, tryThen, exec_bind] at hrun hreturns
  obtain hpanic | ⟨written, w₁, out, hwrites, hout, hprefix, hok⟩ :=
    writesInOrder_writeFrame p f.data f.checksum w
  · exact absurd (hpanic.andThen _) hreturns
  rw [hwrites, Outcome.andThen_returned] at hrun
  cases written with
  | error e =>
    cases hrun
    exact ⟨[], out, hout, hprefix, by simp, by simp, by simp⟩
  | ok u =>
    obtain rfl := hok rfl
    obtain ⟨heard, es, w₂, hechoes, hes, hoctets⟩ := readEchoes_reports f.data.length w₁
    simp only [tryThen, exec_bind, hechoes, Outcome.andThen_returned] at hrun
    cases heard with
    | error e =>
      cases hrun
      exact ⟨es, _, hout.reading_right hes, hprefix, fun _ => rfl, fun _ _ => rfl, by simp⟩
    | ok u =>
      obtain ⟨es', hes', hcon⟩ := readCon_reports hrun
      obtain ⟨octets, rfl, hlength⟩ := hoctets rfl
      refine ⟨_, _, (hout.reading_right hes).reading_right hes', hprefix, fun _ => rfl,
        fun _ _ => rfl, fun hr => ?_⟩
      obtain ⟨k, con, rfl, hvalid, hpositive⟩ := hcon hr
      exact ⟨octets, k, con, rfl, hlength, hvalid, hpositive⟩

end ReadEcho

/-! ## Turns and runs -/

/-- What a turn may do, and which loop it leads from and to. -/
inductive TurnReport (p : Profile) : Phase → Report → Phase → Prop
  /-- An error, or an octet with which no frame starts. -/
  | skipped {k : ℕ} {r : Except UartError UInt8} : (∀ c, r = .ok c → isFrameStart c = false) →
    TurnReport p .idle (onUart (List.replicate k .silence ++ [eventOf r]) []) .idle
  /-- Nothing comes of a frame but perhaps an acknowledge. -/
  | refused {k : ℕ} {c : UInt8} {es : List LineEvent} {acks : List UInt8} :
    isFrameStart c = true → acks <+: [ackOctet] →
    TurnReport p .idle (onUart (List.replicate k .silence ++ [.octet c] ++ es) acks) .draining
  /-- The octets `b` have been read, and handed over as the frame `f`. -/
  | received {k : ℕ} {b : List UInt8} {es : List LineEvent} {dst : Address} {f : Frame} :
    IsBurst b es → ReceivedAs p b dst f →
    TurnReport p .idle ⟨List.replicate k .silence ++ es, acknowledge dst, [f], [], []⟩ .idle
  /-- The request `f` has been answered with a status; nothing is read before all is written. -/
  | transmitted {f : Frame} {es : List LineEvent} {written : List UInt8} {status : ConStatus} :
    written <+: frameCommands f.data f.checksum →
    (es ≠ [] → written = frameCommands f.data f.checksum) →
    (status = .ok → written = frameCommands f.data f.checksum ∧ PositiveEcho f.data.length es) →
    TurnReport p .idle ⟨es, written, [], [status], [f]⟩ .idle
  | drained {e : LineEvent} : e ≠ .silence → TurnReport p .draining (onUart [e] []) .draining
  | quiet {es : List LineEvent} : es <+: [.silence] → TurnReport p .draining (onUart es []) .idle

section Run

variable {p : Profile} {s s' : DriverState} {w w' : Line}

/-- `select` reads the line up to an octet or an error, or nothing. -/
theorem select_reports {r : Except UartError UInt8 ⊕ Unit}
    (h : exec uart selectReadOrRequest w = .returned r w') :
    (∃ octet k, r = .inl octet ∧
      (onUart (List.replicate k .silence ++ [eventOf octet]) []).Between w w') ∨
      r = .inr () ∧ (onUart [] []).Between w w' := by
  have hop : exec uart selectReadOrRequest w =
      .ofReply w (uart .selectReadOrRequest w) := exec_op uart _ w
  rw [hop] at h
  obtain ⟨rx, requests, requestFirst, blocks, writeErrors, tx, delivered, signals⟩ := w
  simp only [uart] at h
  cases requests with
  | nil =>
    rcases hnext : nextRead rx with _ | ⟨octet, rx'⟩
    · rw [hnext] at h
      simp [Outcome.ofReply] at h
    · obtain ⟨k, hk⟩ := nextRead_eq_some hnext
      rw [hnext] at h
      cases h
      exact .inl ⟨octet, k, rfl, between_reading hk _ _ _⟩
  | cons f fs =>
    rcases hnext : nextRead rx with _ | ⟨octet, rx'⟩
    · rw [hnext] at h
      cases h
      exact .inr ⟨rfl, between_rfl _⟩
    · obtain ⟨k, hk⟩ := nextRead_eq_some hnext
      rw [hnext] at h
      simp only at h
      split_ifs at h
      · cases h
        exact .inr ⟨rfl, between_reading rfl _ _ _⟩
      · cases h
        exact .inl ⟨octet, k, rfl, between_reading hk _ _ _⟩

/-- The transmit arm takes a request and signals a status. -/
theorem transmit_reports {phase : Phase} (h : exec uart (transmit p) w = .returned phase w') :
    ∃ r, TurnReport p .idle r phase ∧ r.Between w w' := by
  have hreceive : exec uart frameChannelRxReceive w =
      .ofReply w (uart .frameChannelRxReceive w) := exec_op uart _ w
  rw [transmit, exec_bind, hreceive] at h
  simp only [uart] at h
  rcases hrequests : w.requests with _ | ⟨f, fs⟩
  · rw [hrequests] at h
    simp [Outcome.ofReply] at h
  · rw [hrequests] at h
    simp only [Outcome.ofReply, Outcome.andThen_returned, exec_bind] at h
    rcases hsend : exec uart (sendFrame p f) { w with requests := fs } with
      ⟨r, w₁⟩ | ⟨why, w₁⟩ | w₁
    · obtain ⟨es, out, hout, hprefix, hreads, hok, hecho⟩ := sendFrame_reports hsend
      rw [hsend, Outcome.andThen_returned] at h
      have hreport (status : ConStatus) : Between ⟨es, out, [], [status], [f]⟩ w
          { w₁ with signals := w₁.signals ++ [status] } := by
        have hsignals := hout.signals
        have hleft := hout.requests
        refine ⟨hout.rx, hout.tx, hout.delivered, ?_, ?_⟩
        · show w₁.signals ++ [status] = w.signals ++ [status]
          rw [hsignals]
          exact congrArg (· ++ [status]) (List.append_nil _)
        · show w.requests = f :: w₁.requests
          rw [hrequests]
          exact congrArg (f :: ·) hleft
      cases r with
      | error e =>
        cases h
        exact ⟨_, .transmitted hprefix hreads (by simp), hreport .notOk⟩
      | ok status =>
        cases h
        refine ⟨_, .transmitted hprefix hreads fun hstatus => ?_, hreport status⟩
        exact ⟨hok status rfl, hecho (congrArg _ hstatus)⟩
    · rw [hsend] at h
      simp at h
    · rw [hsend] at h
      simp at h

/-- A turn of the drain loop reads one event. -/
theorem drain_reports {phase : Phase}
    (h : exec uart (runIteration p .draining) w = .returned phase w') :
    ∃ r, TurnReport p .draining r phase ∧ r.Between w w' := by
  rw [runIteration, exec_bind, exec_timedRead, Outcome.andThen_returned] at h
  rcases hrx : w.rx with _ | ⟨b | _ | e, rx⟩
  · rw [hrx] at h
    cases h
    exact ⟨_, .quiet List.nil_prefix, between_reading hrx _ _ _⟩
  · rw [hrx] at h
    cases h
    have hread : w.rx = [.octet b] ++ rx := hrx
    exact ⟨_, .drained (by simp), between_reading hread _ _ _⟩
  · rw [hrx] at h
    cases h
    have hread : w.rx = [.silence] ++ rx := hrx
    exact ⟨_, .quiet (List.prefix_refl _), between_reading hread _ _ _⟩
  · rw [hrx] at h
    cases h
    have hread : w.rx = [.error e] ++ rx := hrx
    exact ⟨_, .drained (by simp), between_reading hread _ _ _⟩

/-- A turn. -/
theorem turn_reports (h : Turn p s s') : ∃ r, TurnReport p s.1 r s'.1 ∧ r.Between s.2 s'.2 := by
  obtain ⟨phase, w⟩ := s
  obtain ⟨phase', w'⟩ := s'
  have hturn : exec uart (runIteration p phase) w = .returned phase' w' := h
  cases phase with
  | draining => exact drain_reports hturn
  | idle =>
    obtain ⟨r, w₁, hselect⟩ | hpending := exec_selectReadOrRequest_cases w
    · obtain ⟨octet, k, rfl, hreads⟩ | ⟨rfl, hreads⟩ := select_reports hselect
      · rw [runIteration, exec_bind, hselect, Outcome.andThen_returned] at hturn
        rcases octet with e | octet
        · cases hturn
          exact ⟨_, .skipped (by simp), hreads⟩
        by_cases hstart : isFrameStart octet = true
        · simp only [hstart, if_true, exec_bind] at hturn
          obtain ⟨es, acks, hacks, hprefix, hok⟩ := receiveFrame_reports (p := p) hstart w₁
          rcases hrun : exec uart (receiveFrame p octet) w₁ with
            ⟨e | f, w₂⟩ | ⟨why, w₂⟩ | w₂
          · rw [hrun] at hturn hacks
            cases hturn
            exact ⟨_, .refused hstart hprefix, hreads.reading_left hacks⟩
          · rw [hrun] at hturn hacks
            obtain ⟨os, dst, hreceived, rfl, stop, rfl, hstop⟩ := hok f w₂ hrun
            cases hturn
            refine ⟨_, .received (k := k) ⟨stop, rfl, hstop⟩ hreceived, ?_⟩
            have hall := hreads.reading_left hacks
            refine ⟨?_, hall.tx, ?_, hall.signals, hall.requests⟩
            · have hread : List.replicate k LineEvent.silence ++ [.octet octet] ++
                  (os.map .octet ++ stop) =
                    List.replicate k .silence ++ ((octet :: os).map .octet ++ stop) := by
                rw [List.append_assoc]
                rfl
              show w.rx = _ ++ w₂.rx
              rw [← hread]
              exact hall.rx
            · show w₂.delivered ++ [f] = w.delivered ++ [f]
              rw [show w₂.delivered = w.delivered ++ [] from hall.delivered, List.append_nil]
          · rw [hrun] at hturn
            simp at hturn
          · rw [hrun] at hturn
            simp at hturn
        · simp only [hstart] at hturn
          cases hturn
          refine ⟨_, .skipped ?_, hreads⟩
          rintro c ⟨⟩
          exact Bool.not_eq_true _ ▸ hstart
      · rw [exec_runIteration_request p hselect] at hturn
        obtain ⟨r, hr, hbetween⟩ := transmit_reports hturn
        exact ⟨r, hr, hreads.reading_left hbetween⟩
    · rw [runIteration, exec_bind, hpending] at hturn
      simp at hturn

/-- Each turn of a run does what its own report says, whatever the line delivers and whatever
    fails: a frame is handed over by the turn that has read its octets, and acknowledged iff it
    is for the device; a request is answered with one status by the turn that takes it. What the
    turns read, write, hand over, signal and take, one after the other, is what the run does. -/
theorem run_reports {n : ℕ} {s : ℕ → DriverState} (h : ∀ i < n, Turn p (s i) (s (i + 1))) :
    ∃ r : ℕ → Report,
      (∀ i < n, TurnReport p (s i).1 (r i) (s (i + 1)).1 ∧
        (r i).Between (s i).2 (s (i + 1)).2) ∧
      (Report.concat ((List.range n).map r)).Between (s 0).2 (s n).2 := by
  have hreport (i : ℕ) : ∃ r : Report, i < n →
      TurnReport p (s i).1 r (s (i + 1)).1 ∧ r.Between (s i).2 (s (i + 1)).2 := by
    by_cases hi : i < n
    · obtain ⟨r, hr⟩ := turn_reports (h i hi)
      exact ⟨r, fun _ => hr⟩
    · exact ⟨onUart [] [], fun hlt => absurd hlt hi⟩
  choose r hr using hreport
  refine ⟨r, hr, ?_⟩
  -- turn by turn
  have hfirst : ∀ m ≤ n, (Report.concat ((List.range m).map r)).Between (s 0).2 (s m).2 := by
    intro m
    induction m with
    | zero => exact fun _ => concat_nil_between _
    | succ m ih =>
      intro hm
      rw [List.range_succ, List.map_append, List.map_singleton]
      exact (ih (by omega)).concat (hr m hm).2
  exact hfirst n (Nat.le_refl n)

/-- A group read comes in while one is to be transmitted. -/
def busyLine : Line where
  rx := (wireOf (data readFrame)).map .octet ++ [.silence]
  requests := [.standard readFrame]
  requestFirst := Stream'.const false
  blocks := Stream'.const true
  writeErrors := Stream'.const none
  tx := []
  delivered := []
  signals := []

/-- The line behind the reception, and behind the transmission. -/
def busyLineAfter : ℕ → Line
  | 0 => busyLine
  | n + 1 => (exec uart (runIteration .dev .idle) (busyLineAfter n)).world

theorem busyLine_turns : ∀ i < 2, Turn .dev (.idle, busyLineAfter i) (.idle, busyLineAfter (i + 1))
  | 0, _ => rfl
  | 1, _ => rfl

theorem run_reports_busyLine : ((busyLineAfter 2).delivered.length = 1 ∧
    (busyLineAfter 2).signals = [.notOk]) ∧ ∃ r : ℕ → Report,
      (∀ i < 2, TurnReport .dev .idle (r i) .idle ∧
        (r i).Between (busyLineAfter i) (busyLineAfter (i + 1))) ∧
      (Report.concat ((List.range 2).map r)).Between busyLine (busyLineAfter 2) :=
  ⟨⟨rfl, rfl⟩, run_reports (s := fun i => (.idle, busyLineAfter i)) busyLine_turns⟩

/-! ## Lines without overflow -/

/-- Somewhere on the line stand the octets of an extended frame that overflows, without a pause. -/
def CarriesOverflow (es : List LineEvent) : Prop :=
  ∃ b : List UInt8, octetAt b 0 &&& 0xd3 = 0x10 ∧ Overflows b ∧ b.map LineEvent.octet <:+: es

/-- What a reception overflows on has been on the line. -/
theorem OverflowsNext.carries (h : OverflowsNext s) : CarriesOverflow s.2.rx := by
  obtain ⟨c, w, ⟨-, hselect⟩, hext, -, b, w', hreception, hover⟩ := h
  obtain ⟨octet, k, hoctet, hreads⟩ | ⟨hrequest, -⟩ := select_reports hselect
  · cases hoctet
    obtain ⟨es, acks, hacks, -, hok⟩ :=
      reception_reports (T := ExtendedFrame) c { w with blocks := w.blocks.tail }
    rw [hreception] at hacks hok
    obtain ⟨-, os, rfl, stop, rfl, -⟩ := hok b rfl
    refine ⟨c :: os, hext, hover, List.replicate k .silence, stop ++ w'.rx, ?_⟩
    have hline : w.rx = os.map .octet ++ stop ++ w'.rx := hacks.rx
    rw [hreads.rx, hline]
    simp [onUart, eventOf]
  · simp at hrequest

/-- A run reads its line from the beginning. -/
theorem runs_rx_suffix (h : Relation.ReflTransGen (Turn p) s s') : s'.2.rx <:+ s.2.rx := by
  induction h with
  | refl => exact List.suffix_refl _
  | tail _ hturn ih =>
    obtain ⟨r, -, hbetween⟩ := turn_reports hturn
    exact (hbetween.rx ▸ List.suffix_append _ _).trans ih

/-- Whatever fails and whenever requests come: no reception is at fault on a line that does not
    carry such a frame. -/
theorem receives_safely_of_line (p : Profile) {w₀ : Line} (h : ¬CarriesOverflow w₀.rx) :
    ∀ s, Relation.ReflTransGen (Turn p) (.idle, w₀) s → ¬ReceiveFaults p s := by
  intro s hs hfaults
  obtain ⟨b, hext, hover, hinfix⟩ := ((receiveFaults_iff p s).mp hfaults).carries
  exact h ⟨b, hext, hover, hinfix.trans (runs_rx_suffix hs).isInfix⟩

end Run

end EmbassyKnx.Driver
