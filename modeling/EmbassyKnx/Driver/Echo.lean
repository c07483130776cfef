import EmbassyKnx.Driver.Bursts
import EmbassyKnx.Driver.Transmit

/-!
# The echo of a transmission

The chip echoes the octets of a frame that it puts on the bus, and `L_Data.con`
behind them. `send_frame` takes what comes next for the echo. An octet that comes late or
with a UART error makes it return, a telegram that the chip has to pass on first is taken
for the echo, and the transmit arm of `run` does not drain the line as the receive arm does:
the rest of the echo is then in front of an idle driver.

* `sendFrame_leaves`: what a transmission leaves of its echo.
* `run_eats_echoes_iff`: the runs in which an idle driver never meets its own echo.
-/

namespace EmbassyKnx.Driver

open Rust Octets Async

/-! ## The chip's side -/

/-- How an octet of the echo comes: behind these events of the line (silence, or other traffic
    that the chip passes on first), and perhaps as an error. -/
structure EchoOctet where
  before : List LineEvent
  fault : Option UartError

/-- It comes next, in time and without error. -/
def EchoOctet.Prompt (t : EchoOctet) : Prop := t.before = [] ∧ t.fault = none

/-- Nothing but silence comes before it. -/
def EchoOctet.ComesNext (t : EchoOctet) : Prop := ∀ e ∈ t.before, e = .silence

/-- The octet on the receive line. -/
def EchoOctet.event (t : EchoOctet) (octet : UInt8) : LineEvent :=
  t.fault.elim (.octet octet) .error

/-- The octet, and what comes before it. -/
def EchoOctet.events (t : EchoOctet) (octet : UInt8) : List LineEvent :=
  t.before ++ [t.event octet]

/-- How the echo of a frame comes. -/
structure Echo where
  octets : Stream' EchoOctet
  con : UInt8
  conOctet : EchoOctet

/-- The echoed octets on the receive line. -/
def echoed (ts : Stream' EchoOctet) : List UInt8 → List LineEvent
  | [] => []
  | octet :: octets => ts.head.events octet ++ echoed ts.tail octets

/-- The echo of a frame with these octets, and `L_Data.con`. -/
def Echo.events (e : Echo) (wire : List UInt8) : List LineEvent :=
  echoed e.octets wire ++ e.conOctet.events e.con

/-- The first `n` octets come in time, without errors and before anything else, and no octet
    comes between them and `L_Data.con`, which may come late. -/
def Echo.Prompt (e : Echo) (n : ℕ) : Prop :=
  (∀ k < n, (e.octets.get k).Prompt) ∧ e.conOctet.ComesNext

/-- The writes that a frame takes: two for each octet, but four for a single one. -/
def writesOf (f : Frame) : ℕ := 2 * max 2 f.data.length

/-- They all succeed. -/
def Written (f : Frame) (w : Line) : Prop := ∀ k < writesOf f, w.writeErrors.get k = none

instance (f : Frame) (w : Line) : Decidable (Written f w) :=
  inferInstanceAs (Decidable (∀ k < writesOf f, w.writeErrors.get k = none))

/-- What the chip sends back for a frame: nothing if it has not got all of it. -/
def reply (e : Echo) (f : Frame) (w : Line) : List LineEvent :=
  if Written f w then e.events (wireOf f.data) else []

/-! ## What the writes of a frame do -/

/-- `x` panics or makes at most `n` writes, and it succeeds iff they do. -/
def SendsOctets (n : ℕ) (x : Task (Except TransferError Unit)) : Prop :=
  ∀ w, (exec uart x w).IsPanic ∨ ∃ r w', exec uart x w = .returned r w' ∧ w'.rx = w.rx ∧
    (r = .ok () ↔ ∀ k < n, w.writeErrors.get k = none) ∧
    (r = .ok () → ∀ k, w'.writeErrors.get k = w.writeErrors.get (n + k))

theorem sendsOctets_pure : SendsOctets 0 (pure (.ok ())) := by
  intro w
  exact .inr ⟨_, w, rfl, rfl, by simp, fun _ k => by rw [Nat.zero_add]⟩

theorem sendsOctets_writeOctet (octet : UInt8) : SendsOctets 1 (writeOctet octet) := by
  intro w
  refine .inr ⟨_, _, exec_writeOctet w octet, writeResult_rx octet w, ?_, ?_⟩
  · unfold writeResult
    cases hhead : w.writeErrors.head with
    | none =>
      simp only [true_iff]
      intro k hk
      rw [show k = 0 by omega]
      exact hhead
    | some e =>
      simp only [reduceCtorEq, false_iff]
      intro h
      have hnone : w.writeErrors.head = none := h 0 (by decide)
      rw [hhead] at hnone
      simp at hnone
  · intro _ k
    unfold writeResult
    cases w.writeErrors.head with
    | none => rw [Nat.add_comm]; rfl
    | some e => rw [Nat.add_comm]; rfl

theorem sendsOctets_tryThen {m n : ℕ} {x y : Task (Except TransferError Unit)}
    (hx : SendsOctets m x) (hy : SendsOctets n y) : SendsOctets (m + n) (tryThen x y) := by
  intro w
  rw [tryThen, exec_bind]
  obtain hpanic | ⟨r, w₁, hrun, hrx, hok, hleft⟩ := hx w
  · exact .inl (hpanic.andThen _)
  rw [hrun, Outcome.andThen_returned]
  cases r with
  | error e =>
    refine .inr ⟨_, w₁, rfl, hrx, ?_, by simp⟩
    simp only [reduceCtorEq, false_iff] at hok ⊢
    intro h
    exact hok fun k hk => h k (by omega)
  | ok u =>
    have hfirst := hok.mp rfl
    have hleft := hleft rfl
    obtain hpanic | ⟨r, w₂, hrun₂, hrx₂, hok₂, hleft₂⟩ := hy w₁
    · exact .inl hpanic
    refine .inr ⟨r, w₂, hrun₂, hrx₂.trans hrx, ?_, ?_⟩
    · rw [hok₂]
      constructor
      · intro h k hk
        by_cases hlt : k < m
        · exact hfirst k hlt
        · have hk' := h (k - m) (by omega)
          rwa [hleft, Nat.add_sub_cancel' (by omega)] at hk'
      · intro h k hk
        rw [hleft]
        exact h (m + k) (by omega)
    · intro hr k
      rw [hleft₂ hr, hleft, Nat.add_assoc]

theorem sendsOctets_lift {n : ℕ} {α : Type} {x : Panicking α}
    {f : α → Task (Except TransferError Unit)} (hf : ∀ a, SendsOctets n (f a)) :
    SendsOctets n (liftM x >>= f) := by
  cases x with
  | ok a => exact hf a
  | error why => exact fun w => .inl (Outcome.isPanic_panicked _ _)

theorem sendsOctets_forRange {m : ℕ} {body : ℕ → Task (Except TransferError Unit)}
    (hbody : ∀ i, SendsOctets m (body i)) (lo n : ℕ) :
    SendsOctets (m * n) (forRange body lo n) := by
  induction n generalizing lo with
  | zero => exact sendsOctets_pure
  | succ n ih =>
    rw [Nat.mul_succ, Nat.add_comm]
    exact sendsOctets_tryThen (hbody lo) (ih (lo + 1))

/-- A frame is written in pairs of a command and an octet. -/
theorem sendsOctets_writeFrame (p : Profile) (buf : List UInt8) (checksum : UInt8) :
    SendsOctets (2 * max 2 buf.length) (writeFrame p buf checksum) := by
  have hbody (i : ℕ) : SendsOctets 2 (sendOctet p buf i) :=
    sendsOctets_lift fun _ => sendsOctets_tryThen (sendsOctets_writeOctet _)
      (sendsOctets_lift fun _ => sendsOctets_writeOctet _)
  have hsplit : 2 * max 2 buf.length = 1 + (1 + (2 * (buf.length - 2) + (1 + 1))) := by omega
  rw [hsplit]
  exact sendsOctets_tryThen (sendsOctets_writeOctet _) <| sendsOctets_lift fun _ =>
    sendsOctets_tryThen (sendsOctets_writeOctet _) <|
      sendsOctets_tryThen (sendsOctets_forRange hbody 1 _) <| sendsOctets_lift fun _ =>
        sendsOctets_tryThen (sendsOctets_writeOctet _) (sendsOctets_writeOctet _)

/-- `x` never succeeds. -/
def NeverSucceeds (x : Task (Except TransferError Unit)) : Prop :=
  ∀ w w', exec uart x w ≠ .returned (.ok ()) w'

/-- `x` never panics. -/
def NeverPanics (x : Task (Except TransferError Unit)) : Prop := ∀ w, ¬(exec uart x w).IsPanic

section Panicking

variable {x y : Task (Except TransferError Unit)} {α : Type} {a : α}
  {g : α → Task (Except TransferError Unit)}

theorem neverSucceeds_lift_error (why : Panic) :
    NeverSucceeds (liftM (Except.error why : Panicking α) >>= g) := by
  intro w w' h
  simp at h

theorem neverSucceeds_tryThen_left (hx : NeverSucceeds x) (y : Task (Except TransferError Unit)) :
    NeverSucceeds (tryThen x y) := by
  intro w w' h
  rw [tryThen, exec_bind] at h
  rcases hrun : exec uart x w with ⟨r, w₁⟩ | ⟨why, w₁⟩ | w₁
  · rw [hrun, Outcome.andThen_returned] at h
    cases r with
    | error e => simp at h
    | ok u => exact hx w w₁ hrun
  · rw [hrun] at h
    simp at h
  · rw [hrun] at h
    simp at h

theorem neverSucceeds_tryThen_right (hy : NeverSucceeds y) (x : Task (Except TransferError Unit)) :
    NeverSucceeds (tryThen x y) := by
  intro w w' h
  rw [tryThen, exec_bind] at h
  rcases hrun : exec uart x w with ⟨r, w₁⟩ | ⟨why, w₁⟩ | w₁
  · rw [hrun, Outcome.andThen_returned] at h
    cases r with
    | error e => simp at h
    | ok u => exact hy w₁ w' h
  · rw [hrun] at h
    simp at h
  · rw [hrun] at h
    simp at h

/-- A loop does not get past a turn that never succeeds. -/
theorem neverSucceeds_forRange {body : ℕ → Task (Except TransferError Unit)} {j : ℕ}
    (hj : NeverSucceeds (body j)) (lo n : ℕ) (hlo : lo ≤ j) (hn : j < lo + n) :
    NeverSucceeds (forRange body lo n) := by
  induction n generalizing lo with
  | zero => omega
  | succ n ih =>
    by_cases heq : lo = j
    · subst heq
      exact neverSucceeds_tryThen_left hj _
    · exact neverSucceeds_tryThen_right (ih (lo + 1) (by omega) (by omega)) _

theorem neverPanics_writeOctet (octet : UInt8) : NeverPanics (writeOctet octet) := by
  intro w
  rw [exec_writeOctet]
  exact Outcome.isPanic_returned _ _

theorem neverPanics_tryThen (hx : NeverPanics x) (hy : NeverPanics y) :
    NeverPanics (tryThen x y) := by
  intro w
  have hnot := hx w
  rw [tryThen, exec_bind]
  rcases hrun : exec uart x w with ⟨e | u, w₁⟩ | ⟨why, w₁⟩ | w₁
  · exact Outcome.isPanic_returned _ _
  · exact hy w₁
  · rw [hrun] at hnot
    exact absurd (Outcome.isPanic_panicked _ _) hnot
  · exact Outcome.isPanic_pending _

theorem neverPanics_forRange {body : ℕ → Task (Except TransferError Unit)} (lo n : ℕ)
    (hbody : ∀ i, lo ≤ i → i < lo + n → NeverPanics (body i)) :
    NeverPanics (forRange body lo n) := by
  induction n generalizing lo with
  | zero => exact fun w => Outcome.isPanic_returned _ _
  | succ n ih =>
    exact neverPanics_tryThen (hbody lo (Nat.le_refl _) (by omega))
      (ih (lo + 1) fun i hlo hi => hbody i (by omega) (by omega))

end Panicking

/-- The indices and commands of the frame stay within `u8`, where that is checked. -/
def Fits (p : Profile) (f : Frame) : Prop := 0 < f.data.length ∧ (p = .dev → f.data.length ≤ 129)

section WriteFrame

variable {p : Profile} {buf : List UInt8} {i : ℕ}

/-- The command for octet `i`. -/
theorem u8Add_start (h : p = .dev → i < 128) :
    u8Add p Commands.uLDataContReq (UInt8.ofNat i) =
      .ok (Commands.uLDataContReq + UInt8.ofNat i) := by
  cases p with
  | dev =>
    have hi := h rfl
    apply u8Add_of_lt
    rw [UInt8.toNat_ofNat_of_lt' (show i < 256 by omega)]
    show 128 + i < 256
    omega
  | release =>
    unfold u8Add
    split_ifs <;> rfl

theorem neverPanics_sendOctet (hi : i < buf.length) (h : p = .dev → i < 128) :
    NeverPanics (sendOctet p buf i) := by
  rw [sendOctet, u8Add_start h, index_eq hi]
  exact neverPanics_tryThen (neverPanics_writeOctet _) (neverPanics_writeOctet _)

theorem u8Sub_one (h : p = .dev → 0 < buf.length ∧ buf.length ≤ 129) :
    ∃ last, u8Sub p (UInt8.ofNat buf.length) 1 = .ok last := by
  cases p with
  | dev =>
    obtain ⟨hpos, hlt⟩ := h rfl
    refine ⟨_, u8Sub_of_le _ ?_⟩
    rw [UInt8.le_iff_toNat_le, UInt8.toNat_ofNat_of_lt' (show buf.length < 256 by omega)]
    exact hpos
  | release =>
    unfold u8Sub
    split_ifs
    · exact ⟨_, rfl⟩
    · exact ⟨_, rfl⟩

/-- A frame that fits is written without a panic. -/
theorem neverPanics_writeFrame (checksum : UInt8) (hpos : 0 < buf.length)
    (hlt : p = .dev → buf.length ≤ 129) : NeverPanics (writeFrame p buf checksum) := by
  obtain ⟨last, hlast⟩ : ∃ last, u8Sub p (UInt8.ofNat buf.length) 1 = .ok last :=
    u8Sub_one fun hp => ⟨hpos, hlt hp⟩
  rw [writeFrame, index_eq hpos, hlast]
  have hmiddle : NeverPanics (forRange (sendOctet p buf) 1 (buf.length - 2)) :=
    neverPanics_forRange 1 _ fun i hlo hi => neverPanics_sendOctet (by omega) fun hp => by
      have := hlt hp
      omega
  exact neverPanics_tryThen (neverPanics_writeOctet _) <|
    neverPanics_tryThen (neverPanics_writeOctet _) <| neverPanics_tryThen hmiddle <|
      neverPanics_tryThen (neverPanics_writeOctet _) (neverPanics_writeOctet _)

/-- One that does not fit is not written to its end: it has no first octet, or the command for
    octet 128 overflows. -/
theorem neverSucceeds_writeFrame (checksum : UInt8)
    (h : ¬(0 < buf.length ∧ (p = .dev → buf.length ≤ 129))) :
    NeverSucceeds (writeFrame p buf checksum) := by
  rw [writeFrame]
  apply neverSucceeds_tryThen_right
  by_cases hpos : 0 < buf.length
  · obtain ⟨hdev, hlong⟩ : p = .dev ∧ 129 < buf.length := by
      simpa [hpos] using h
    subst hdev
    have hfails : NeverSucceeds (sendOctet .dev buf 128) := neverSucceeds_lift_error _
    rw [index_eq hpos]
    exact neverSucceeds_tryThen_right (neverSucceeds_tryThen_left
      (neverSucceeds_forRange hfails 1 _ (by decide) (by omega)) _) _
  · have hnil : buf = [] := List.length_eq_zero_iff.mp (by omega)
    subst hnil
    exact neverSucceeds_lift_error _

end WriteFrame

/-! ## What is read of the echo -/

section Echoed

variable {ts : Stream' EchoOctet} {octets : List UInt8}

theorem EchoOctet.event_ne_silence (t : EchoOctet) (octet : UInt8) : t.event octet ≠ .silence := by
  unfold event
  cases t.fault <;> simp

theorem length_le_echoed (ts : Stream' EchoOctet) (octets : List UInt8) :
    octets.length ≤ (echoed ts octets).length := by
  induction octets generalizing ts with
  | nil => exact Nat.zero_le _
  | cons octet octets ih =>
    have htail := ih ts.tail
    simp only [echoed, EchoOctet.events, List.length_append, List.length_cons, List.length_nil]
    omega

/-- A prompt echo is the octets and nothing else. -/
theorem echoed_of_prompt (h : ∀ k < octets.length, (ts.get k).Prompt) :
    echoed ts octets = octets.map .octet := by
  induction octets generalizing ts with
  | nil => rfl
  | cons octet octets ih =>
    obtain ⟨hbefore, hfault⟩ : ts.head.Prompt := h 0 (Nat.succ_pos _)
    have htail : echoed ts.tail octets = octets.map .octet :=
      ih fun k hk => h (k + 1) (Nat.succ_lt_succ hk)
    rw [echoed, htail, EchoOctet.events, EchoOctet.event, hbefore, hfault]
    rfl

/-- An echo of as many events as octets, all of which are octets, is prompt. -/
theorem prompt_of_burst {rest : List LineEvent} (hlen : (echoed ts octets).length = octets.length)
    (hburst : octets.length ≤ (burst (echoed ts octets ++ rest)).length) :
    ∀ k < octets.length, (ts.get k).Prompt := by
  induction octets generalizing ts with
  | nil => simp
  | cons octet octets ih =>
    have htail := length_le_echoed ts.tail octets
    simp only [echoed, EchoOctet.events, List.length_append, List.length_cons, List.length_nil]
      at hlen
    have hbefore : ts.head.before = [] := List.length_eq_zero_iff.mp (by omega)
    rw [echoed, EchoOctet.events, EchoOctet.event, hbefore] at hburst
    cases hfault : ts.head.fault with
    | some e =>
      rw [hfault] at hburst
      simp [burst] at hburst
    | none =>
      rw [hfault] at hburst
      simp only [Option.elim_none, List.nil_append, List.cons_append, burst, List.length_cons,
        Nat.add_le_add_iff_right] at hburst
      intro k hk
      cases k with
      | zero => exact ⟨hbefore, hfault⟩
      | succ k => exact ih (by omega) hburst k (by simpa using hk)

/-- The last event of an echo is not silence. -/
theorem echoed_last (ts : Stream' EchoOctet) (hne : octets ≠ []) :
    ∃ es e, echoed ts octets = es ++ [e] ∧ e ≠ .silence := by
  induction octets generalizing ts with
  | nil => exact absurd rfl hne
  | cons octet octets ih =>
    cases octets with
    | nil => exact ⟨ts.head.before, _, by simp [echoed, EchoOctet.events],
        ts.head.event_ne_silence octet⟩
    | cons next octets =>
      obtain ⟨es, e, hechoed, he⟩ := ih ts.tail (by simp)
      exact ⟨ts.head.events octet ++ es, e, by rw [echoed, hechoed, List.append_assoc], he⟩

end Echoed

section ReadEcho

variable {w : Line} {rest : List LineEvent}

/-- As many octets of an echo are read as a burst has; what ends the burst is eaten too. -/
theorem exec_forRange_readEcho (lo n : ℕ) (w : Line) :
    (n ≤ (burst w.rx).length ∧
      exec uart (forRange readEcho lo n) w = .returned (.ok ()) { w with rx := w.rx.drop n }) ∨
      (burst w.rx).length < n ∧ ∃ e, exec uart (forRange readEcho lo n) w =
        .returned (.error e) { w with rx := w.rx.drop ((burst w.rx).length + 1) } := by
  induction n generalizing lo w with
  | zero => exact .inl ⟨Nat.zero_le _, rfl⟩
  | succ n ih =>
    rw [forRange, tryThen, exec_bind, readEcho, exec_bind, readWithTimeout, readWithTimeoutFrom,
      exec_bind, exec_timedRead, Outcome.andThen_returned]
    rcases hrx : w.rx with _ | ⟨b | _ | e, rx⟩
    · exact .inr ⟨Nat.succ_pos _, _, rfl⟩
    · simp only [burst, List.length_cons, Nat.add_le_add_iff_right, Nat.add_lt_add_iff_right,
        List.drop_succ_cons]
      exact ih (lo + 1) { w with rx }
    · exact .inr ⟨Nat.succ_pos _, _, rfl⟩
    · exact .inr ⟨Nat.succ_pos _, _, rfl⟩

/-- The reads of an echo take no more of the line than the echo. If they succeed, nothing but
    silence is left of the echo iff it is prompt. -/
theorem exec_readEchoes (lo : ℕ) (ts : Stream' EchoOctet) (octets : List UInt8)
    (hrx : w.rx = echoed ts octets ++ rest) :
    ∃ r es, exec uart (forRange readEcho lo octets.length) w =
        .returned r { w with rx := es ++ rest } ∧
      (r = .ok () → ((∀ e ∈ es, e = .silence) ↔ ∀ k < octets.length, (ts.get k).Prompt)) ∧
      (∀ e, r = .error e → ¬∀ k < octets.length, (ts.get k).Prompt) := by
  have hlen := length_le_echoed ts octets
  obtain ⟨hburst, hrun⟩ | ⟨hshort, e, hrun⟩ := exec_forRange_readEcho lo octets.length w
  · rw [hrx, List.drop_append_of_le_length hlen] at hrun
    refine ⟨_, _, hrun, fun _ => ⟨fun hsilent => ?_, fun hprompt => ?_⟩, by simp⟩
    · -- the last event of the echo is not silent, so that it has been read
      rw [hrx] at hburst
      refine prompt_of_burst (Nat.le_antisymm (Nat.le_of_not_lt fun hlt => ?_) hlen) hburst
      have hne : octets ≠ [] := by
        rintro rfl
        simp [echoed] at hlt
      obtain ⟨es, e, hechoed, he⟩ := echoed_last ts hne
      rw [hechoed] at hlt
      rw [hechoed, List.drop_append_of_le_length (by simpa [Nat.lt_succ_iff] using hlt)] at hsilent
      exact he (hsilent e (by simp))
    · rw [echoed_of_prompt hprompt, List.drop_of_length_le (by rw [List.length_map])]
      simp
  · rw [hrx, List.drop_append_of_le_length (by rw [← hrx]; omega)] at hrun
    refine ⟨_, _, hrun, by simp, fun _ _ hprompt => ?_⟩
    rw [hrx, echoed_of_prompt hprompt] at hshort
    have hoctets : octets.length ≤ (burst (octets.map LineEvent.octet ++ rest)).length := by
      clear hshort hrun hrx hlen hprompt
      induction octets with
      | nil => exact Nat.zero_le _
      | cons octet octets ih => simpa [burst] using ih
    omega

/-- An untimed read takes the first event that is not silence. -/
theorem nextRead_append (es : List LineEvent) {e : LineEvent} (he : e ≠ .silence)
    (rest : List LineEvent) : ∃ r es', nextRead (es ++ e :: rest) = some (r, es' ++ rest) ∧
      (es' = [] ↔ ∀ x ∈ es, x = .silence) := by
  induction es with
  | nil =>
    cases e with
    | octet b => exact ⟨_, [], rfl, by simp⟩
    | silence => exact absurd rfl he
    | error e => exact ⟨_, [], rfl, by simp⟩
  | cons x es ih =>
    cases x with
    | octet b => exact ⟨.ok b, es ++ [e], by simp [nextRead], by simp⟩
    | silence =>
      obtain ⟨r, es', hnext, hiff⟩ := ih
      exact ⟨r, es', hnext, by simpa using hiff⟩
    | error x => exact ⟨.error x, es ++ [e], by simp [nextRead], by simp⟩

/-- `L_Data.con` is waited for, and what comes before it is taken for it. -/
theorem exec_readCon (es : List LineEvent) {e : LineEvent} (he : e ≠ .silence)
    (hrx : w.rx = es ++ e :: rest) :
    ∃ r es', exec uart readCon w = .returned r { w with rx := es' ++ rest } ∧
      (es' = [] ↔ ∀ x ∈ es, x = .silence) := by
  obtain ⟨r, es', hnext, hiff⟩ := nextRead_append es he rest
  have hread : exec uart read w = .returned r { w with rx := es' ++ rest } := by
    show exec uart (.perform .read .done) w = _
    simp [exec, uart, hrx, hnext]
  rw [readCon, exec_bind, hread, Outcome.andThen_returned]
  cases r with
  | error e => exact ⟨_, es', rfl, hiff⟩
  | ok con =>
    show ∃ r es', exec uart (if con &&& 0x7f ≠ 0xb then _ else _) _ = .returned r _ ∧ _
    split_ifs
    · exact ⟨_, es', rfl, hiff⟩
    · exact ⟨_, es', rfl, hiff⟩
    · exact ⟨_, es', rfl, hiff⟩

end ReadEcho

/-! ## A transmission -/

section Transmission

variable (p : Profile) {w : Line} {f : Frame} {fs : List Frame} {rest : List LineEvent}

theorem length_wireOf {d : List UInt8} (hd : d ≠ []) : (wireOf d).length = d.length := by
  have hpos := List.length_pos_iff.mpr hd
  rw [wireOf, List.length_append, List.length_dropLast, List.length_singleton]
  omega

/-- `send_frame` leaves something of the echo if that is not prompt. -/
theorem sendFrame_leaves (e : Echo) (hrx : w.rx = reply e f w ++ rest) :
    ((exec uart (sendFrame p f) w).IsPanic ∧ ¬Fits p f) ∨
      ∃ r w', exec uart (sendFrame p f) w = .returned r w' ∧ rest.length ≤ w'.rx.length ∧
        (w'.rx.length = rest.length ↔ (Written f w → Fits p f → e.Prompt f.data.length)) := by
  rw [sendFrame, tryThen, exec_bind]
  obtain hpanic | ⟨r, w₁, hrun, hsame, hok, -⟩ := sendsOctets_writeFrame p f.data f.checksum w
  · exact .inl ⟨hpanic.andThen _, fun hfits =>
      neverPanics_writeFrame f.checksum hfits.1 hfits.2 w hpanic⟩
  right
  rw [hrun, Outcome.andThen_returned]
  rw [hrx] at hsame
  cases r with
  | error err =>
    have hnot : ¬Written f w := fun hwritten => absurd (hok.mpr hwritten) (by simp)
    rw [reply, if_neg hnot, List.nil_append] at hsame
    exact ⟨_, w₁, rfl, by rw [hsame], by simp [hsame, hnot]⟩
  | ok u =>
    have hwritten : Written f w := hok.mp rfl
    have hfits : Fits p f := by
      by_contra hnot
      exact neverSucceeds_writeFrame f.checksum hnot w w₁ hrun
    have hne : f.data ≠ [] := List.length_pos_iff.mp hfits.1
    rw [reply, if_pos hwritten, Echo.events, List.append_assoc] at hsame
    obtain ⟨r, es, hrun₁, hok₁, herror₁⟩ := exec_readEchoes 0 e.octets (wireOf f.data) hsame
    rw [length_wireOf hne] at hrun₁ hok₁ herror₁
    simp only [tryThen, exec_bind]
    rw [hrun₁, Outcome.andThen_returned]
    cases r with
    | error err =>
      refine ⟨_, _, rfl, ?_, ?_⟩
      · simp only [List.length_append]
        omega
      · have hlate : ¬e.Prompt f.data.length := fun hprompt => herror₁ err rfl hprompt.1
        simp only [List.length_append, EchoOctet.events, List.length_singleton]
        constructor
        · intro hlen
          omega
        · intro hall
          exact absurd (hall hwritten hfits) hlate
    | ok u =>
      have hline : es ++ (e.conOctet.events e.con ++ rest) =
          (es ++ e.conOctet.before) ++ e.conOctet.event e.con :: rest := by
        simp [EchoOctet.events]
      rw [hline]
      obtain ⟨r, es', hrun₂, hiff⟩ := exec_readCon
        (w := { w₁ with rx := (es ++ e.conOctet.before) ++ e.conOctet.event e.con :: rest })
        (es ++ e.conOctet.before) (e.conOctet.event_ne_silence e.con) rfl
      have hprompt : es' = [] ↔ e.Prompt f.data.length := by
        rw [hiff, List.forall_mem_append, hok₁ rfl]
        rfl
      refine ⟨r, _, hrun₂, ?_, ?_⟩
      · simp only [List.length_append]
        omega
      · simp only [List.length_append, Nat.add_eq_right, List.length_eq_zero_iff, hprompt]
        exact ⟨fun h _ _ => h, fun h => h hwritten hfits⟩

/-- The transmit arm of `run`. -/
def transmit (p : Profile) : Task Phase := do
  let frame ← frameChannelRxReceive
  match ← sendFrame p frame with
  | .ok conStatus =>
    conSignal conStatus
    return .idle
  | .error _ =>
    conSignal .notOk
    return .idle

/-- A turn that reads a request transmits. -/
theorem exec_runIteration_request {w w₁ : Line}
    (h : exec uart selectReadOrRequest w = .returned (.inr ()) w₁) :
    exec uart (runIteration p .idle) w = exec uart (transmit p) w₁ := by
  rw [runIteration, exec_bind, h]
  rfl

/-- The transmit arm leaves the line as `send_frame` does. -/
theorem transmit_leaves (e : Echo) (hrequests : w.requests = f :: fs)
    (hrx : w.rx = reply e f w ++ rest) :
    ((exec uart (transmit p) w).IsPanic ∧ ¬Fits p f) ∨
      ∃ w', exec uart (transmit p) w = .returned .idle w' ∧ rest.length ≤ w'.rx.length ∧
        (w'.rx.length = rest.length ↔ (Written f w → Fits p f → e.Prompt f.data.length)) := by
  have hreceive : exec uart frameChannelRxReceive w = .returned f { w with requests := fs } := by
    show exec uart (.perform .frameChannelRxReceive .done) w = _
    simp [exec, uart, hrequests]
  rw [transmit, exec_bind, hreceive, Outcome.andThen_returned, exec_bind]
  have hline : ({ w with requests := fs } : Line).rx =
      reply e f { w with requests := fs } ++ rest := hrx
  obtain ⟨hpanic, hfits⟩ | ⟨r, w', hrun, hle, hiff⟩ := sendFrame_leaves p e hline
  · exact .inl ⟨hpanic.andThen _, hfits⟩
  · rw [hrun, Outcome.andThen_returned]
    cases r with
    | error err => exact .inr ⟨_, rfl, hle, hiff⟩
    | ok status => exact .inr ⟨_, rfl, hle, hiff⟩

end Transmission

/-! ## Runs -/

/-- The driver between two turns: how many events there are in front of it up to the end of the
    last echo of its own, and how many frames it has transmitted. -/
structure EchoState where
  phase : Phase
  line : Line
  own : ℕ
  sent : ℕ

/-- The driver is started on a line. -/
def EchoState.start (w : Line) : EchoState := ⟨.idle, w, 0, 0⟩

/-- What is left of the first `own` events of a line. -/
def leftOver (own : ℕ) (rx rx' : List LineEvent) : ℕ := own - (rx.length - rx'.length)

/-- The line on which the frame `f` is answered, behind what is left of earlier echoes and what
    the chip passes on before the echo and during it. -/
def EchoState.answered (s : EchoState) (e : Echo) (f : Frame) (w : Line) : Line :=
  { w with rx := w.rx.take s.own ++ (reply e f w ++ w.rx.drop s.own) }

/-- The `select` of the state has read a request for `f`. -/
def EchoState.Sends (s : EchoState) (f : Frame) (w : Line) : Prop :=
  s.phase = .idle ∧ exec uart selectReadOrRequest s.line = .returned (.inr ()) w ∧
    w.requests.head? = some f

/-- One turn, in which the chip answers a transmission with its echo. -/
inductive EchoTurn (p : Profile) (echoes : Stream' Echo) : EchoState → EchoState → Prop
  | other {s : EchoState} {ph : Phase} {w : Line} :
      ¬Transmits (s.phase, s.line) → Turn p (s.phase, s.line) (ph, w) →
      EchoTurn p echoes s ⟨ph, w, leftOver s.own s.line.rx w.rx, s.sent⟩
  | transmission {s : EchoState} {f : Frame} {w₁ w₂ w : Line} {ph : Phase} :
      s.Sends f w₁ → s.answered (echoes.get s.sent) f w₁ = w₂ →
      exec uart (transmit p) w₂ = .returned ph w →
      EchoTurn p echoes s ⟨ph, w,
        leftOver (s.own + (reply (echoes.get s.sent) f w₁).length) w₂.rx w.rx, s.sent + 1⟩

/-- A run of the driver's loops with the echoes of its transmissions. -/
abbrev EchoRun (p : Profile) (echoes : Stream' Echo) : EchoState → EchoState → Prop :=
  Relation.ReflTransGen (EchoTurn p echoes)

section EchoRun

variable {p : Profile} {echoes : Stream' Echo} {s s' : EchoState}

/-- With nothing in front of it, the driver eats the echo of a frame iff that is prompt. -/
theorem transmission_leaves {f : Frame} {w₁ : Line} (hsends : s.Sends f w₁) (hown : s.own = 0)
    (e : Echo) :
    ((exec uart (transmit p) (s.answered e f w₁)).IsPanic ∧ ¬Fits p f) ∨
      ∃ w, exec uart (transmit p) (s.answered e f w₁) = .returned .idle w ∧
        (leftOver (s.own + (reply e f w₁).length) (s.answered e f w₁).rx w.rx = 0 ↔
          (Written f w₁ → Fits p f → e.Prompt f.data.length)) := by
  obtain ⟨fs, hrequests⟩ : ∃ fs, w₁.requests = f :: fs := by
    obtain ⟨-, -, hhead⟩ := hsends
    rcases hlist : w₁.requests with _ | ⟨g, fs⟩
    · simp [hlist] at hhead
    · rw [hlist, List.head?_cons, Option.some.injEq] at hhead
      exact ⟨fs, by rw [hhead]⟩
  have hrx : (s.answered e f w₁).rx = reply e f (s.answered e f w₁) ++ w₁.rx := by
    simp only [EchoState.answered, hown, List.take_zero, List.drop_zero, List.nil_append]
    rfl
  obtain hpanic | ⟨w, hrun, hle, hiff⟩ :=
    transmit_leaves p (w := s.answered e f w₁) e hrequests hrx
  · exact .inl hpanic
  refine .inr ⟨w, hrun, ?_⟩
  have hreply : reply e f (s.answered e f w₁) = reply e f w₁ := rfl
  have hwritten : Written f (s.answered e f w₁) ↔ Written f w₁ := Iff.rfl
  rw [hwritten] at hiff
  rw [← hiff, hrx, hreply, hown, leftOver, List.length_append]
  constructor
  · intro hzero
    by_contra hne
    -- something is left, so the chip has answered
    have hpos : 0 < (reply e f w₁).length := by
      by_cases hall : Written f w₁
      · rw [reply, if_pos hall]
        simp only [Echo.events, EchoOctet.events, List.length_append, List.length_singleton]
        omega
      · exact absurd (hiff.mpr fun h => absurd h hall) hne
    omega
  · intro heq
    omega

/-- Other turns put no echo in front of the driver, and a transmission only one that is not
    prompt. -/
theorem EchoTurn.own_eq_zero (h : EchoTurn p echoes s s') (hown : s.own = 0)
    (hprompt : ∀ f w, s.Sends f w → Written f w → Fits p f →
      (echoes.get s.sent).Prompt f.data.length) : s'.own = 0 := by
  cases h with
  | other =>
    show leftOver s.own _ _ = 0
    rw [hown, leftOver, Nat.zero_sub]
  | @transmission f w₁ w₂ w ph hsends hanswered hrun =>
    subst hanswered
    obtain ⟨hpanic, -⟩ | ⟨w', hrun', hiff⟩ :=
      transmission_leaves (p := p) hsends hown (echoes.get s.sent)
    · rw [hrun] at hpanic
      exact absurd hpanic id
    · rw [hrun'] at hrun
      cases hrun
      exact hiff.mpr (hprompt f w₁ hsends)

theorem EchoRun.own_eq_zero {s₀ : EchoState} (h : EchoRun p echoes s₀ s) (hown : s₀.own = 0)
    (hprompt : ∀ s, EchoRun p echoes s₀ s → ∀ f w, s.Sends f w → Written f w → Fits p f →
      (echoes.get s.sent).Prompt f.data.length) : s.own = 0 := by
  induction h with
  | refl => exact hown
  | tail hrun hturn ih => exact hturn.own_eq_zero ih (hprompt _ hrun)

end EchoRun

/-- In the runs of the driver from any line, with any echoes, no part of an echo is in front of
    the driver between two turns, iff the echo of each frame that has been written to its end
    comes in time, without errors and with no other traffic before it or in it. -/
theorem run_eats_echoes_iff (p : Profile) (echoes : Stream' Echo) (w₀ : Line) :
    (∀ s, EchoRun p echoes (.start w₀) s → s.own = 0) ↔
      ∀ s, EchoRun p echoes (.start w₀) s → ∀ f w, s.Sends f w → Written f w → Fits p f →
        (echoes.get s.sent).Prompt f.data.length := by
  constructor
  · intro h s hs f w hsends hwritten hfits
    obtain ⟨-, hnot⟩ | ⟨w', hrun, hiff⟩ :=
      transmission_leaves (p := p) hsends (h s hs) (echoes.get s.sent)
    · exact absurd hfits hnot
    · have hturn : EchoTurn p echoes s _ := .transmission hsends rfl hrun
      exact hiff.mp (h _ (hs.tail hturn)) hwritten hfits
  · intro h s hs
    exact hs.own_eq_zero rfl h

/-! ## A late echo, and one that is overtaken -/

/-- A group read of 0/0/1, as it is handed to `send_frame`. -/
def readFrame : StandardFrame :=
  ⟨⟨[0xBC, 0x11, 0x01, 0x00, 0x01, 0xE1, 0x00, 0x00, 0x00], by decide⟩⟩

/-- Its first octet comes behind these events, and `L_Data.con` after a pause. -/
def echoBehind (before : List LineEvent) : Echo where
  octets := Stream'.cons ⟨before, none⟩ (Stream'.const ⟨[], none⟩)
  con := 0x8B
  conOctet := ⟨[.silence], none⟩

/-- Its first octet comes late. -/
def lateEcho : Echo := echoBehind [.silence]

/-- It comes in time, behind the telegram of another device. -/
def overtakenEcho : Echo :=
  echoBehind ([0xB0, 0x11, 0x01, 0x11, 0x78, 0x60, 0x80, 0xD6].map .octet ++ [.silence])

/-- A line on which only the request to transmit it is waiting. -/
def requestLine : Line := { Line.fresh [] with requests := [.standard readFrame] }

/-- The line behind the transmission of the group read. -/
def requestLineAfter (e : Echo) : Line :=
  (exec uart (transmit .dev)
    ((EchoState.start requestLine).answered e (.standard readFrame) requestLine)).world

/-- The line behind the transmission, which has given up at the first octet. -/
def lateEchoLine : Line := requestLineAfter lateEcho

/-- The line behind the next turn. -/
def ownFrameLine : Line := (exec uart (runIteration .dev .idle) lateEchoLine).world

-- the telegram in front has been taken for the echo
example :
    (exec uart (runIteration .dev .idle) (requestLineAfter overtakenEcho)).world.delivered.map
      Frame.data = [wireOf (FrameReader.data readFrame)] := by
  decide +kernel

/-- The driver receives its own group read: it acknowledges it and hands it over. -/
theorem run_receives_lateEcho :
    (∃ s, EchoRun .dev (Stream'.const lateEcho) (.start requestLine) s ∧
      s.line.delivered.map Frame.data = [wireOf (FrameReader.data readFrame)] ∧
      s.line.tx.getLast? = some (Commands.uAcknReq ||| AckTypes.ack.toU8)) ∧
    ¬∀ p echoes w₀ s, EchoRun p echoes (.start w₀) s → s.own = 0 := by
  have hsends : (EchoState.start requestLine).Sends (.standard readFrame) requestLine :=
    ⟨rfl, rfl, rfl⟩
  have hfirst : EchoTurn .dev (Stream'.const lateEcho) (.start requestLine)
      ⟨.idle, lateEchoLine, 11, 1⟩ :=
    .transmission hsends rfl rfl
  have hidle : ¬Transmits (Phase.idle, lateEchoLine) := by
    rintro ⟨-, w, hselect⟩
    have hread : exec uart selectReadOrRequest lateEchoLine =
        .returned (.inl (.ok 0xBC)) { lateEchoLine with rx := lateEchoLine.rx.tail } := rfl
    rw [hread] at hselect
    simp at hselect
  have hsecond : EchoTurn .dev (Stream'.const lateEcho) ⟨.idle, lateEchoLine, 11, 1⟩
      ⟨.idle, ownFrameLine, 1, 1⟩ :=
    .other hidle rfl
  refine ⟨⟨_, (Relation.ReflTransGen.single hfirst).tail hsecond, ?_, ?_⟩, ?_⟩
  · decide +kernel
  · decide +kernel
  · intro h
    exact absurd (h _ _ _ _ (.single hfirst)) (by decide)

end EmbassyKnx.Driver
