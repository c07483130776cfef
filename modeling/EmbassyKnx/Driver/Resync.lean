import EmbassyKnx.Driver.Bursts

/-!
# Finding the next frame

Bursts of octets are separated by silence. The driver should hand over the bursts
that are standard frames, whatever the other bursts contain. A frame that is refused
has taken its read timeout along, and the drain loop waits for another: when the
silence is too short for two, it eats the next burst.

* `listen`: what the driver makes of one burst after the other.
* `runs_lineOf`: its loops refine `listen`.
* `run_resyncs_iff`: on which sequences of bursts no frame is lost.
-/

namespace EmbassyKnx.Driver

open Rust Octets Async

/-- A burst and the silence behind it, in read timeouts. -/
structure Burst where
  octets : List UInt8
  timeouts : ℕ
  timeouts_pos : 0 < timeouts
  deriving DecidableEq

namespace Burst

/-- The burst on the receive line. -/
def events (b : Burst) : List LineEvent :=
  b.octets.map .octet ++ List.replicate b.timeouts .silence

/-- The burst starts like a standard frame. -/
def StartsStandard (b : Burst) : Prop := octetAt b.octets 0 &&& 0xd3 = 0x90

instance (b : Burst) : Decidable b.StartsStandard := inferInstanceAs (Decidable (_ = _))

/-- The burst is a standard frame. -/
def WellFormed (b : Burst) : Prop := b.StartsStandard ∧ StandardFormat b.octets

instance (b : Burst) : Decidable b.WellFormed := inferInstanceAs (Decidable (_ ∧ _))

/-- What the driver should hand over of the burst. -/
def expected (b : Burst) : List (List UInt8) := if b.WellFormed then [b.octets] else []

/-- What an idle driver takes for a frame. -/
def frame (b : Burst) : List UInt8 := b.octets.dropWhile fun o => !isFrameStart o

/-- The frame is refused with its first read timeout, and there is no second. -/
def Unfinished (p : Profile) (b : Burst) : Prop :=
  b.frame ≠ [] ∧ frameVerdict p b.frame = .ok none ∧
    b.frame.length < scratchSize (octetAt b.frame 0) ∧ b.timeouts = 1

/-- The frame is an extended one that overflows where overflow is checked. -/
def Fatal (p : Profile) (b : Burst) : Prop :=
  b.frame ≠ [] ∧ ¬octetAt b.frame 0 &&& 0xd3 = 0x90 ∧ p = .dev ∧ Overflows b.frame

instance (p : Profile) (b : Burst) : Decidable (b.Unfinished p) :=
  inferInstanceAs (Decidable (_ ∧ _))

instance (p : Profile) (b : Burst) : Decidable (b.Fatal p) := inferInstanceAs (Decidable (_ ∧ _))

end Burst

/-- The bursts on the receive line. -/
def lineOf (bs : List Burst) : List LineEvent := bs.flatMap Burst.events

/-- No well-formed burst comes directly behind an unfinished one, unless that one is itself
    eaten by the drain loop, and none behind a fatal one. -/
def Spared (p : Profile) : List Burst → Prop
  | [] => True
  | [_] => True
  | b :: c :: bs =>
    if b.Fatal p then ∀ d ∈ c :: bs, ¬d.WellFormed
    else if b.Unfinished p then ¬c.WellFormed ∧ Spared p bs
    else Spared p (c :: bs)

instance decidableSpared (p : Profile) : (bs : List Burst) → Decidable (Spared p bs)
  | [] => .isTrue trivial
  | [_] => .isTrue trivial
  | b :: c :: bs =>
    have := decidableSpared p bs
    have := decidableSpared p (c :: bs)
    inferInstanceAs (Decidable (if b.Fatal p then ∀ d ∈ c :: bs, ¬d.WellFormed
      else if b.Unfinished p then ¬c.WellFormed ∧ Spared p bs else Spared p (c :: bs)))

/-! ## What is asked of the driver -/

/-- The next turn panics. -/
def Panics (p : Profile) (s : DriverState) : Prop := (exec uart (runIteration p s.1) s.2).IsPanic

/-- The next turn waits for an octet or a request. -/
def Waits (p : Profile) (s : DriverState) : Prop := exec uart (runIteration p s.1) s.2 = .pending s.2

/-- The driver hands over `ds` on the bursts `bs`, until it waits or has panicked. -/
def HandsOver (p : Profile) (w : Line) (bs : List Burst) (ds : List (List UInt8)) : Prop :=
  ∃ s, Runs p (.idle, { w with rx := lineOf bs }) s ∧ (Waits p s ∨ Panics p s) ∧
    s.2.delivered.map Frame.data = w.delivered.map Frame.data ++ ds

/-- `ds` is right for the burst, if that starts like a standard frame. -/
def Burst.Answered (b : Burst) (ds : List (List UInt8)) : Prop := b.StartsStandard → ds = b.expected

/-- Burst by burst, the driver hands over the lists `dss`, and they are right. -/
def Resyncs (p : Profile) (w : Line) (bs : List Burst) : Prop :=
  ∃ dss : List (List (List UInt8)), dss.length = bs.length ∧
    (∀ n, HandsOver p w (bs.take n) (dss.take n).flatten) ∧
    List.Forall₂ Burst.Answered bs dss

/-! ## The listener -/

/-- What an idle driver makes of a burst: the next phase, none if it panics, and what it hands
    over. A refused frame keeps the drain loop waiting for a read timeout of its own, unless
    it was too long to be read to its end. -/
def listenIdle (p : Profile) (b : Burst) : Option Phase × List (List UInt8) :=
  if b.frame = [] then (some .idle, [])
  else
    match frameVerdict p b.frame with
    | .error _ => (none, [])
    | .ok none => (some (if b.Unfinished p then .draining else .idle), [])
    | .ok (some d) => (some .idle, [d])

/-- From one burst to the next. -/
def listen (p : Profile) : Option Phase → Burst → Option Phase × List (List UInt8)
  | none, _ => (none, [])
  | some .draining, _ => (some .idle, [])
  | some .idle, b => listenIdle p b

/-- The phase behind a sequence of bursts. -/
def phaseAfter (p : Profile) (m : Option Phase) (bs : List Burst) : Option Phase :=
  bs.foldl (fun m b => (listen p m b).1) m

/-- What is handed over, burst by burst. -/
def heard (p : Profile) : Option Phase → List Burst → List (List (List UInt8))
  | _, [] => []
  | m, b :: bs => (listen p m b).2 :: heard p (listen p m b).1 bs

section Listener

variable (p : Profile) (m : Option Phase) {b : Burst}

@[simp] theorem length_heard (bs : List Burst) : (heard p m bs).length = bs.length := by
  induction bs generalizing m with
  | nil => rfl
  | cons b bs ih => simp [heard, ih]

theorem heard_take (bs : List Burst) (n : ℕ) : heard p m (bs.take n) = (heard p m bs).take n := by
  induction bs generalizing m n with
  | nil => simp [heard]
  | cons b bs ih =>
    cases n with
    | zero => rfl
    | succ n => simp [heard, ih]

@[simp] theorem Burst.expected_eq_nil : b.expected = [] ↔ ¬b.WellFormed := by
  simp [Burst.expected]

/-- Octets before the first frame start are skipped. -/
theorem Burst.frame_of_startsStandard (h : b.StartsStandard) : b.frame = b.octets := by
  unfold Burst.frame
  cases hb : b.octets with
  | nil => rfl
  | cons o os =>
    have ho : isFrameStart o = true := by
      rw [isFrameStart_iff]
      unfold Burst.StartsStandard at h
      rw [hb] at h
      exact .inl h
    simp [ho]

theorem Burst.frame_ne_nil_of_startsStandard (h : b.StartsStandard) : b.frame ≠ [] := by
  rw [Burst.frame_of_startsStandard h]
  intro hnil
  unfold Burst.StartsStandard at h
  rw [hnil] at h
  exact absurd h (by decide)

theorem Burst.frameVerdict_of_startsStandard (h : b.StartsStandard) :
    frameVerdict p b.frame = .ok (if StandardFormat b.octets then some b.octets else none) := by
  rw [Burst.frame_of_startsStandard h]
  exact if_pos h

/-- The verdict on a fatal frame is a panic. -/
theorem Burst.fatal_iff (hne : b.frame ≠ []) :
    b.Fatal p ↔ ∃ why, frameVerdict p b.frame = .error why := by
  unfold Burst.Fatal frameVerdict
  by_cases hstd : octetAt b.frame 0 &&& 0xd3 = 0x90
  · simp [hstd]
  · have hverdict := extendedVerdict_panics p b.frame
    rw [if_neg hstd]
    by_cases hover : p = .dev ∧ Overflows b.frame
    · rw [if_pos hover] at hverdict
      rw [hverdict]
      exact ⟨fun _ => ⟨_, rfl⟩, fun _ => ⟨hne, hstd, hover⟩⟩
    · rw [if_neg hover] at hverdict
      obtain ⟨r, hr⟩ := hverdict
      rw [hr]
      simp [hstd, hover]

@[simp] theorem Burst.answered_nil : b.Answered [] ↔ ¬b.WellFormed := by
  rw [Burst.Answered, eq_comm, Burst.expected_eq_nil]
  constructor
  · intro h hwf
    exact h hwf.1 hwf
  · intro h _
    exact h

/-- What an idle driver hands over is right. -/
theorem answered_listenIdle : b.Answered (listenIdle p b).2 := by
  intro h
  unfold listenIdle
  rw [if_neg (Burst.frame_ne_nil_of_startsStandard h), Burst.frameVerdict_of_startsStandard p h]
  by_cases hfmt : StandardFormat b.octets
  · simp [hfmt, Burst.expected, Burst.WellFormed, h]
  · simp [hfmt, Burst.expected, Burst.WellFormed]

/-- The phase behind a burst that an idle driver has met. -/
theorem listenIdle_fst : (listenIdle p b).1 =
    if b.Fatal p then none else some (if b.Unfinished p then .draining else .idle) := by
  unfold listenIdle
  by_cases hne : b.frame = []
  · simp [hne, Burst.Fatal, Burst.Unfinished]
  rw [if_neg hne]
  have hfatal := Burst.fatal_iff p hne
  rcases hverdict : frameVerdict p b.frame with why | _ | d
  · rw [if_pos (hfatal.mpr ⟨why, hverdict⟩)]
  · have hnot : ¬b.Fatal p := by simp [hfatal, hverdict]
    rw [if_neg hnot]
  · have hnot : ¬b.Fatal p := by simp [hfatal, hverdict]
    have hfinished : ¬b.Unfinished p := by simp [Burst.Unfinished, hverdict]
    rw [if_neg hnot, if_neg hfinished]

/-- A driver that has panicked loses every frame. -/
theorem forall₂_heard_none (bs : List Burst) :
    List.Forall₂ Burst.Answered bs (heard p none bs) ↔ ∀ b ∈ bs, ¬b.WellFormed := by
  induction bs with
  | nil => simp [heard]
  | cons b bs ih => simp [heard, listen, ih]

/-- The listener answers the bursts iff they are `Spared`. -/
theorem forall₂_heard_iff (bs : List Burst) :
    List.Forall₂ Burst.Answered bs (heard p (some .idle) bs) ↔ Spared p bs := by
  induction bs using Spared.induct p with
  | case1 => simp [heard, Spared]
  | case2 b => simp [heard, Spared, listen, answered_listenIdle]
  | case3 b c bs hfatal =>
    have hnext : (listen p (some .idle) b).1 = none := by simp [listen, listenIdle_fst, hfatal]
    rw [Spared, if_pos hfatal, heard, List.forall₂_cons, hnext, forall₂_heard_none]
    exact and_iff_right (answered_listenIdle p)
  | case4 b c bs hfatal hunfinished ih =>
    have hnext : (listen p (some .idle) b).1 = some .draining := by
      simp [listen, listenIdle_fst, hfatal, hunfinished]
    rw [Spared, if_neg hfatal, if_pos hunfinished, heard, List.forall₂_cons, hnext, heard,
      List.forall₂_cons]
    simp [listen, ih, answered_listenIdle]
  | case5 b c bs hfatal hunfinished ih =>
    have hnext : (listen p (some .idle) b).1 = some .idle := by
      simp [listen, listenIdle_fst, hfatal, hunfinished]
    rw [Spared, if_neg hfatal, if_neg hunfinished, heard, List.forall₂_cons, hnext, ih]
    exact and_iff_right (answered_listenIdle p)

end Listener

/-! ## The driver refines the listener -/

/-- The driver is in phase `m` in front of `rest`, or has come to a panic. An idle driver may
    still have silence in front of it. -/
def StandsAt (p : Profile) (rest : List LineEvent) (s : DriverState) : Option Phase → Prop
  | none => Panics p s
  | some .draining => s.1 = .draining ∧ Undisturbed s.2 ∧ s.2.rx = rest
  | some .idle => s.1 = .idle ∧ Undisturbed s.2 ∧ ∃ k, s.2.rx = List.replicate k .silence ++ rest

/-- The octets handed over so far. -/
def handedOver (s : DriverState) : List (List UInt8) := s.2.delivered.map Frame.data

section Refinement

variable {p : Profile} {m : Option Phase} {os : List UInt8} {rest : List LineEvent} {s : DriverState}

theorem Burst.events_eq (b : Burst) : b.events =
    b.octets.map .octet ++ .silence :: List.replicate (b.timeouts - 1) .silence := by
  obtain ⟨octets, timeouts, hpos⟩ := b
  cases timeouts with
  | zero => simp at hpos
  | succ n => rfl

/-- An idle driver skips the octets that start no frame. -/
theorem StandsAt.runs_skip (h : StandsAt p (os.map .octet ++ rest) s (some .idle)) :
    ∃ s', Runs p s s' ∧ handedOver s' = handedOver s ∧
      StandsAt p ((os.dropWhile fun o => !isFrameStart o).map .octet ++ rest) s' (some .idle) := by
  induction os generalizing s with
  | nil => exact ⟨s, .refl, rfl, h⟩
  | cons o os ih =>
    by_cases ho : isFrameStart o = true
    · rw [List.dropWhile_cons_of_neg (by simp [ho])]
      exact ⟨s, .refl, rfl, h⟩
    · obtain ⟨ph, w⟩ := s
      obtain ⟨hidle, hw, k, hrx⟩ := h
      have hidle : ph = .idle := hidle
      subst hidle
      have hturn := turn_skip p hw hrx (by simpa using ho)
      obtain ⟨s', hruns, hsame, hs'⟩ := ih (s := (.idle, { w with rx := os.map .octet ++ rest }))
        ⟨rfl, hw.with_rx _, 0, rfl⟩
      rw [List.dropWhile_cons_of_pos (by simp [ho])]
      exact ⟨s', .head hturn hruns, hsame, hs'⟩

/-- The octets of a frame. -/
theorem Burst.frame_cases (b : Burst) :
    b.frame = [] ∨ ∃ c os, b.frame = c :: os ∧ isFrameStart c = true := by
  rcases hframe : b.frame with _ | ⟨c, os⟩
  · exact .inl rfl
  · have hne : b.octets.dropWhile (fun o => !isFrameStart o) ≠ [] := by
      show b.frame ≠ []
      simp [hframe]
    have hstart := List.head_dropWhile_not (fun o => !isFrameStart o) hne
    have hhead : (b.octets.dropWhile fun o => !isFrameStart o).head hne = c := by
      show b.frame.head _ = c
      simp [hframe]
    rw [hhead] at hstart
    exact .inr ⟨c, os, rfl, by simpa using hstart⟩

/-- A driver that is draining the line eats the burst. -/
theorem StandsAt.runs_draining {b : Burst} (h : StandsAt p (b.events ++ rest) s (some .draining)) :
    ∃ s', Runs p s s' ∧ handedOver s' = handedOver s ∧ StandsAt p rest s' (some .idle) := by
  obtain ⟨ph, w⟩ := s
  obtain ⟨hdraining, hw, hrx⟩ := h
  have hdraining : ph = .draining := hdraining
  subst hdraining
  have hrx : w.rx = b.octets.map .octet ++
      .silence :: (List.replicate (b.timeouts - 1) .silence ++ rest) := by
    rw [hrx, Burst.events_eq]
    simp
  exact ⟨_, runs_drain p hw hrx, rfl, rfl, hw.with_rx _, _, rfl⟩

/-- Behind a refused frame. -/
theorem runs_refused {b : Burst} {w : Line} (hne : b.frame ≠ [])
    (hrefused : frameVerdict p b.frame = .ok none) (hw : Undisturbed w)
    (hrx : w.rx = if b.frame.length < scratchSize (octetAt b.frame 0)
      then List.replicate (b.timeouts - 1) .silence ++ rest
      else (b.frame.tail.drop (scratchSize (octetAt b.frame 0) - 1)).map .octet ++
        .silence :: (List.replicate (b.timeouts - 1) .silence ++ rest)) :
    ∃ s, Runs p (.draining, w) s ∧ handedOver s = handedOver (.draining, w) ∧
      StandsAt p rest s (some (if b.Unfinished p then .draining else .idle)) := by
  by_cases hlong : b.frame.length < scratchSize (octetAt b.frame 0)
  · rw [if_pos hlong] at hrx
    by_cases hshort : b.timeouts = 1
    · rw [if_pos ⟨hne, hrefused, hlong, hshort⟩]
      refine ⟨_, .refl, rfl, rfl, hw, ?_⟩
      rw [hrx, hshort]
      rfl
    · rw [if_neg (fun h => hshort h.2.2.2)]
      have hpos := b.timeouts_pos
      have hsplit : b.timeouts - 1 = (b.timeouts - 2) + 1 := by omega
      rw [hsplit, List.replicate_succ] at hrx
      have hdrain := runs_drain p hw (show w.rx = ([] : List UInt8).map .octet ++ _ from hrx)
      exact ⟨_, hdrain, rfl, rfl, hw.with_rx _, _, rfl⟩
  · rw [if_neg hlong] at hrx
    rw [if_neg (fun h => hlong h.2.2.1)]
    exact ⟨_, runs_drain p hw hrx, rfl, rfl, hw.with_rx _, _, rfl⟩

/-- An idle driver reads the frame of the burst. -/
theorem StandsAt.runs_idle {b : Burst} (h : StandsAt p (b.events ++ rest) s (some .idle)) :
    ∃ s', Runs p s s' ∧ handedOver s' = handedOver s ++ (listenIdle p b).2 ∧
      StandsAt p rest s' (listenIdle p b).1 := by
  have hline : b.events ++ rest = b.octets.map .octet ++
      .silence :: (List.replicate (b.timeouts - 1) .silence ++ rest) := by
    rw [Burst.events_eq]
    simp
  rw [hline] at h
  obtain ⟨⟨ph, w⟩, hruns, hsame, hidle, hw, k, hrx⟩ := h.runs_skip
  have hidle : ph = .idle := hidle
  subst hidle
  rw [← hsame]
  change w.rx = _ ++ (b.frame.map _ ++ _) at hrx
  obtain hframe | ⟨c, os, hframe, hc⟩ := b.frame_cases
  · -- no frame: all the silence is left in front of the idle driver
    have hlisten : listenIdle p b = (some .idle, []) := if_pos hframe
    rw [hlisten, List.append_nil]
    refine ⟨_, hruns, rfl, rfl, hw, k + (1 + (b.timeouts - 1)), ?_⟩
    show w.rx = _
    rw [hrx, hframe, List.replicate_add, List.replicate_add]
    simp
  · have hne : ¬b.frame = [] := by simp [hframe]
    rw [hframe] at hrx
    have hturn := turn_frame p hw hrx hc
    unfold listenIdle
    rw [if_neg hne]
    rw [← hframe] at hturn
    rcases hverdict : frameVerdict p b.frame with why | _ | d
    · rw [hverdict] at hturn
      exact ⟨_, hruns, (List.append_nil _).symm, hturn⟩
    · rw [hverdict] at hturn
      obtain ⟨w', hturn, hdelivered, hw', hrx'⟩ := hturn
      obtain ⟨s', hruns', hsame', hs'⟩ := runs_refused hne hverdict hw' (by rw [hrx', hframe]; rfl)
      refine ⟨s', (hruns.tail hturn).trans hruns', ?_, hs'⟩
      rw [hsame', List.append_nil, handedOver, hdelivered]
      rfl
    · rw [hverdict] at hturn
      obtain ⟨f, w', hturn, hdata, hdelivered, hw', hrx'⟩ := hturn
      refine ⟨_, hruns.tail hturn, ?_, rfl, hw', _, hrx'⟩
      simp [handedOver, hdelivered, hdata]

/-- Any driver reads the burst as the listener does. -/
theorem StandsAt.runs_burst {b : Burst} (h : StandsAt p (b.events ++ rest) s m) :
    ∃ s', Runs p s s' ∧ handedOver s' = handedOver s ++ (listen p m b).2 ∧
      StandsAt p rest s' (listen p m b).1 := by
  cases m with
  | none => exact ⟨s, .refl, (List.append_nil _).symm, h⟩
  | some ph =>
    cases ph with
    | idle => exact h.runs_idle
    | draining =>
      obtain ⟨s', hruns, hsame, hs'⟩ := h.runs_draining
      exact ⟨s', hruns, by rw [hsame]; exact (List.append_nil _).symm, hs'⟩

/-- The driver's loops refine the listener. -/
theorem StandsAt.runs_lineOf {bs : List Burst} (h : StandsAt p (lineOf bs) s m) :
    ∃ s', Runs p s s' ∧ handedOver s' = handedOver s ++ (heard p m bs).flatten ∧
      StandsAt p [] s' (phaseAfter p m bs) := by
  induction bs generalizing s m with
  | nil => exact ⟨s, .refl, (List.append_nil _).symm, h⟩
  | cons b bs ih =>
    have hfirst : StandsAt p (b.events ++ lineOf bs) s m := h
    obtain ⟨s₁, hruns₁, hsame₁, hs₁⟩ := hfirst.runs_burst
    obtain ⟨s₂, hruns₂, hsame₂, hs₂⟩ := ih hs₁
    refine ⟨s₂, hruns₁.trans hruns₂, ?_, hs₂⟩
    rw [hsame₂, hsame₁, List.append_assoc]
    rfl

/-- At the end of the line the driver waits, or it has panicked. -/
theorem StandsAt.runs_end (h : StandsAt p [] s m) :
    ∃ s', Runs p s s' ∧ handedOver s' = handedOver s ∧ (Waits p s' ∨ Panics p s') := by
  have hwaits (w : Line) (hw : Undisturbed w) (k : ℕ) (hrx : w.rx = List.replicate k .silence) :
      Waits p (.idle, w) := by
    have hnext : nextRead w.rx = none := by
      have hskip := nextRead_silences k []
      rw [List.append_nil] at hskip
      rw [hrx, hskip]
      rfl
    have hselect : exec uart selectReadOrRequest w = .pending w := by
      show exec uart (.perform .selectReadOrRequest .done) w = _
      simp only [exec, uart, hw.requests, hnext]
    show exec uart (runIteration p .idle) w = .pending w
    rw [runIteration, exec_bind, hselect]
    rfl
  obtain ⟨ph, w⟩ := s
  rcases m with _ | _ | _
  · exact ⟨_, .refl, rfl, .inr h⟩
  · obtain ⟨hidle, hw, k, hrx⟩ := h
    have hidle : ph = .idle := hidle
    subst hidle
    exact ⟨_, .refl, rfl, .inl (hwaits w hw k (by rw [hrx, List.append_nil]))⟩
  · obtain ⟨hdraining, hw, hrx⟩ := h
    have hdraining : ph = .draining := hdraining
    subst hdraining
    have hturn : Turn p (.draining, w) (.idle, { w with rx := [] }) := by
      show exec uart (runIteration p .draining) w = _
      rw [runIteration, exec_bind, exec_timedRead, Outcome.andThen_returned, hrx]
      rfl
    exact ⟨_, .single hturn, rfl, .inl (hwaits _ (hw.with_rx _) 0 rfl)⟩

/-- What is handed over is what the listener hears. -/
theorem handsOver_heard {w : Line} (hw : Undisturbed w) (bs : List Burst) :
    HandsOver p w bs (heard p (some .idle) bs).flatten := by
  have hstart : StandsAt p (lineOf bs) (.idle, { w with rx := lineOf bs }) (some .idle) :=
    ⟨rfl, hw.with_rx _, 0, rfl⟩
  obtain ⟨s, hruns, hsame, hs⟩ := hstart.runs_lineOf
  obtain ⟨s', hruns', hsame', hend⟩ := hs.runs_end
  exact ⟨s', hruns.trans hruns', hend, hsame'.trans hsame⟩

/-- The driver is deterministic: two runs to where it stops are the same. -/
theorem Runs.eq_of_stuck {s₁ s₂ : DriverState} (h₁ : Runs p s s₁) (h₂ : Runs p s s₂)
    (hs₁ : Waits p s₁ ∨ Panics p s₁) (hs₂ : Waits p s₂ ∨ Panics p s₂) : s₁ = s₂ := by
  have hstuck (s : DriverState) (hs : Waits p s ∨ Panics p s) (s' : DriverState) :
      ¬Turn p s s' := by
    intro hturn
    unfold Turn at hturn
    rcases hs with hs | hs
    · rw [Waits, hturn] at hs
      simp at hs
    · rw [Panics, hturn] at hs
      exact Outcome.isPanic_returned _ _ hs
  induction h₁ using Relation.ReflTransGen.head_induction_on with
  | refl =>
    rcases h₂.cases_head with heq | ⟨s', hturn, -⟩
    · exact heq
    · exact absurd hturn (hstuck _ hs₁ s')
  | head hturn _ ih =>
    rcases h₂.cases_head with heq | ⟨s', hturn', hruns'⟩
    · subst heq
      exact absurd hturn (hstuck _ hs₂ _)
    · have hsame := hturn.symm.trans hturn'
      simp only [Outcome.returned.injEq] at hsame
      have hsame : _ = s' := Prod.ext hsame.1 hsame.2
      subst hsame
      exact ih hruns'

theorem HandsOver.unique {w : Line} {bs : List Burst} {ds ds' : List (List UInt8)}
    (h : HandsOver p w bs ds) (h' : HandsOver p w bs ds') : ds = ds' := by
  obtain ⟨s, hruns, hend, hs⟩ := h
  obtain ⟨s', hruns', hend', hs'⟩ := h'
  have hsame := hruns.eq_of_stuck hruns' hend hend'
  subst hsame
  exact List.append_cancel_left (hs.symm.trans hs')

/-- Lists of lists with the same prefixes when flattened. -/
theorem eq_of_flatten_take {α : Type} {xss yss : List (List α)} (hlength : xss.length = yss.length)
    (h : ∀ n, (xss.take n).flatten = (yss.take n).flatten) : xss = yss := by
  refine List.ext_getElem hlength ?_
  intro i hi hi'
  have hsucc := h (i + 1)
  rw [List.take_succ_eq_append_getElem hi, List.take_succ_eq_append_getElem hi',
    List.flatten_append, List.flatten_append, h i] at hsucc
  simpa using List.append_cancel_left hsucc

/-- The driver hands over the right frames iff the listener does. -/
theorem resyncs_iff_heard {w : Line} (hw : Undisturbed w) (bs : List Burst) :
    Resyncs p w bs ↔ List.Forall₂ Burst.Answered bs (heard p (some .idle) bs) := by
  constructor
  · rintro ⟨dss, hlength, hdss, hright⟩
    have hsame : dss = heard p (some .idle) bs := by
      apply eq_of_flatten_take
      · rw [hlength, length_heard]
      · intro n
        rw [← heard_take]
        exact (hdss n).unique (handsOver_heard hw _)
    rwa [← hsame]
  · intro hright
    refine ⟨_, length_heard p _ bs, ?_, hright⟩
    intro n
    rw [← heard_take]
    exact handsOver_heard hw _

end Refinement

/-- On an undisturbed line the driver hands over, of the bursts that start like standard
    frames, exactly the well-formed ones, iff none of these is met in the drain loop of an
    unfinished frame before it, or after a panic. -/
theorem run_resyncs_iff (p : Profile) {w : Line} (hw : Undisturbed w) (bs : List Burst) :
    Resyncs p w bs ↔ Spared p bs := by
  rw [resyncs_iff_heard hw, forall₂_heard_iff]

/-- A line with nothing to disturb the driver. -/
theorem undisturbed_fresh : Undisturbed (.fresh []) := ⟨rfl, fun _ => rfl, fun _ => rfl⟩

/-- A group read of 0/0/1 from 1.1.1. -/
def groupRead : List UInt8 := [0xBC, 0x11, 0x01, 0x00, 0x01, 0xE1, 0x00, 0x00, 0xB3]

/-- Behind a frame that has lost its end, the driver finds the next one after two read
    timeouts. -/
theorem run_resyncs_iff_two :
    Resyncs .dev (.fresh []) [⟨groupRead.take 8, 2, by decide⟩, ⟨groupRead, 1, by decide⟩] :=
  (run_resyncs_iff .dev undisturbed_fresh _).mpr (by decide)

/-- After a single read timeout it drops the next frame. -/
theorem run_loses_next_frame :
    ¬∀ p w, Undisturbed w → ∀ bs, Resyncs p w bs := by
  intro h
  have hlost := (resyncs_iff_heard undisturbed_fresh _).mp
    (h .dev (.fresh []) undisturbed_fresh
      [⟨groupRead.take 8, 1, by decide⟩, ⟨groupRead, 1, by decide⟩])
  rw [forall₂_heard_iff] at hlost
  revert hlost
  decide

end EmbassyKnx.Driver
