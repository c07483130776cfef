import EmbassyKnx.Common.Contract
import EmbassyKnx.Driver.Reports
import EmbassyKnx.System.Protocols

/-!
# The contract of the driver task

What the driver task hands over and where it may panic, in every environment: whatever the
UART delivers and the frame pool answers, and wherever the task is interrupted.

* `meets_receiveFrame`: what all runs of `receive_frame` on a line do, it does in every
  environment.
* `meets_runIteration`: a turn of the driver.
-/

namespace EmbassyKnx

open Rust Async

/-- `send_frame` stays within `u8` and the chip has an index for every octet. -/
def Sendable (f : Frame) : Prop := 0 < f.data.length ∧ f.data.length ≤ 64

instance (f : Frame) : Decidable (Sendable f) := inferInstanceAs (Decidable (_ ∧ _))

/-- What the driver task hands over. -/
def DriverAllows (p : Profile) : DriverOp → Prop
  | .frameChannelTxSend f => ∃ b dst, Driver.ReceivedAs p b dst f
  | _ => True

/-- What it may be given to transmit. -/
def DriverAnswers : (o : DriverOp) → driverSig.Ret o → Prop
  | .frameChannelRxReceive, f => Sendable f
  | _, _ => True

/-- The contract of the driver task. -/
def driverContract (p : Profile) : Contract driverSig Unit where
  allows _ := DriverAllows p
  answers _ := DriverAnswers
  next _ _ _ := ()
  panics _ why := p = .dev ∧ why = .arithmeticOverflow

namespace Driver

/-! ## The line stands for all environments -/

/-- The operations of a reception. -/
def UsesLine : DriverOp → Prop
  | .alloc => True
  | .read => True
  | .readWithTimeout => True
  | .write _ => True
  | _ => False

/-- A program that receives. -/
def lineProtocol : Protocol driverSig Unit where
  allows _ := UsesLine
  answers _ _ := True
  next _ _ _ := ()

/-- A program that uses the line only. -/
abbrev OnLine {α : Type} (x : Task α) : Prop := Follows lineProtocol (fun _ _ => True) () x

/-- A part of the driver that can be run without a block, and while a frame is transmitted. -/
theorem onLine_of_returns {α : Type} {x : Task α} (h : ∀ g : DriverStage, g.Busy → Returns g x) :
    OnLine x := by
  have hreceiving : Returns (.receiving false) x := h _ trivial
  have htransmitting : Returns .transmitting x := h _ trivial
  clear h
  induction x with
  | done a => trivial
  | panicked why => trivial
  | perform o resume ih =>
    obtain ⟨hreceive, hreceiving⟩ := hreceiving
    obtain ⟨htransmit, htransmitting⟩ := htransmitting
    cases o with
    | read => exact ⟨trivial, fun r _ => ih r (hreceiving r trivial) (htransmitting r trivial)⟩
    | readWithTimeout =>
      exact ⟨trivial, fun r _ => ih r (hreceiving r trivial) (htransmitting r trivial)⟩
    | write octet =>
      exact ⟨trivial, fun r _ => ih r (hreceiving r trivial) (htransmitting r trivial)⟩
    | alloc => simp [driverProtocol, DriverStage.Allows] at htransmit
    | selectReadOrRequest => simp [driverProtocol, DriverStage.Allows] at htransmit
    | frameChannelRxReceive => simp [driverProtocol, DriverStage.Allows] at htransmit
    | frameChannelTxSend f => simp [driverProtocol, DriverStage.Allows] at htransmit
    | conSignal status => simp [driverProtocol, DriverStage.Allows] at hreceive

theorem onLine_receiveFrameInt (T : Type) [FrameWriter T] (p : Profile) (ctrlOctet : UInt8) :
    OnLine (receiveFrameInt T p ctrlOctet) := by
  refine ⟨trivial, fun block _ => follows_lift_bind fun scratch _ => ?_⟩
  cases scratch with
  | error e => trivial
  | ok frame =>
    refine follows_lift_bind fun frame _ => follows_lift_bind fun header _ => ?_
    refine follows_bind (onLine_of_returns fun _ hg => returns_readWithTimeout hg 0 header) ?_
    rintro ⟨⟩ ⟨header, e | bytes⟩ -
    · trivial
    · exact onLine_of_returns fun _ hg => returns_receiveBody p _ _ hg

theorem onLine_receiveFrame (p : Profile) (ctrlOctet : UInt8) :
    OnLine (receiveFrame p ctrlOctet) := by
  unfold receiveFrame
  split_ifs
  · exact follows_bind (onLine_receiveFrameInt StandardFrame p ctrlOctet) fun _ _ _ => trivial
  · exact follows_bind (onLine_receiveFrameInt ExtendedFrame p ctrlOctet) fun _ _ _ => trivial
  · trivial

/-- What a line answers next. -/
def Line.answers (w : Line) : List LineEvent × Stream' Bool × Stream' (Option UartError) :=
  (w.rx, w.blocks, w.writeErrors)

/-- A line can give every answer to a reception. -/
theorem canAnswer_uart {o : DriverOp} (ho : UsesLine o) : CanAnswer uart Line.answers o := by
  rintro r ⟨rx, blocks, writeErrors⟩
  cases o with
  | alloc =>
    refine ⟨(rx, Stream'.cons r blocks, writeErrors), fun w hw => ?_⟩
    simp only [Line.answers, Prod.mk.injEq] at hw
    obtain ⟨hrx, hblocks, hwrites⟩ := hw
    refine ⟨{ w with blocks := w.blocks.tail }, ?_, ?_⟩
    · simp [uart, hblocks]
    · simp [Line.answers, hrx, hblocks, hwrites]
  | read =>
    have hnext : ∃ event, nextRead (event :: rx) = some (r, rx) := by
      cases r with
      | error e => exact ⟨.error e, rfl⟩
      | ok octet => exact ⟨.octet octet, rfl⟩
    obtain ⟨event, hnext⟩ := hnext
    refine ⟨(event :: rx, blocks, writeErrors), fun w hw => ?_⟩
    simp only [Line.answers, Prod.mk.injEq] at hw
    obtain ⟨hrx, hblocks, hwrites⟩ := hw
    refine ⟨{ w with rx }, ?_, ?_⟩
    · simp [uart, hrx, hnext]
    · simp [Line.answers, hblocks, hwrites]
  | readWithTimeout =>
    have hnext : ∃ event, nextTimedRead (event :: rx) = (r, rx) := by
      rcases r with _ | e | octet
      · exact ⟨.silence, rfl⟩
      · exact ⟨.error e, rfl⟩
      · exact ⟨.octet octet, rfl⟩
    obtain ⟨event, hnext⟩ := hnext
    refine ⟨(event :: rx, blocks, writeErrors), fun w hw => ?_⟩
    simp only [Line.answers, Prod.mk.injEq] at hw
    obtain ⟨hrx, hblocks, hwrites⟩ := hw
    refine ⟨{ w with rx }, ?_, ?_⟩
    · simp [uart, hrx, hnext]
    · simp [Line.answers, hblocks, hwrites]
  | write octet =>
    have hnext : ∃ fault : Option UartError, r = fault.elim (.ok ()) .error := by
      rcases r with e | u
      · exact ⟨some e, rfl⟩
      · exact ⟨none, rfl⟩
    obtain ⟨fault, rfl⟩ := hnext
    refine ⟨(rx, blocks, Stream'.cons fault writeErrors), fun w hw => ?_⟩
    simp only [Line.answers, Prod.mk.injEq] at hw
    obtain ⟨hrx, hblocks, hwrites⟩ := hw
    cases fault with
    | some e =>
      refine ⟨{ w with writeErrors := w.writeErrors.tail }, ?_, ?_⟩
      · simp [uart, hwrites]
      · simp [Line.answers, hrx, hblocks, hwrites]
    | none =>
      refine ⟨{ w with writeErrors := w.writeErrors.tail, tx := w.tx ++ [octet] }, ?_, ?_⟩
      · simp [uart, hwrites]
      · simp [Line.answers, hrx, hblocks, hwrites]
  | _ => exact absurd ho id

/-- `receive_frame` returns what it has received, and panics on an overflow only. -/
theorem meets_receiveFrame (p : Profile) {octet : UInt8} (hstart : isFrameStart octet = true) :
    Meets (driverContract p) (fun _ r => ∀ f, r = .ok f → ∃ b dst, ReceivedAs p b dst f) ()
      (receiveFrame p octet) := by
  refine meets_of_exec uart Line.answers (onLine_receiveFrame p octet) ?_ ?_
    (Line.fresh []).answers
  · intro _ o ho
    refine ⟨canAnswer_uart ho, ?_, fun r => ⟨trivial, rfl⟩⟩
    cases o with
    | frameChannelTxSend f => exact absurd ho id
    | _ => trivial
  · rintro ⟨rx, blocks, writeErrors⟩
    refine ⟨{ Line.fresh rx with blocks, writeErrors }, rfl, ?_⟩
    generalize ({ Line.fresh rx with blocks, writeErrors } : Line) = w
    obtain ⟨hpanics, hreturns⟩ := receiveFrame_returns p w hstart
    by_cases hoverflow : p = .dev ∧ OverflowsAt octet w
    · obtain ⟨w', hrun⟩ := hpanics hoverflow
      rw [hrun]
      exact ⟨hoverflow.1, rfl⟩
    · obtain ⟨r, w', hrun⟩ := hreturns hoverflow
      rw [hrun]
      rintro f rfl
      obtain ⟨es, acks, -, -, hok⟩ := receiveFrame_reports (p := p) hstart w
      obtain ⟨os, dst, hreceived, -⟩ := hok f w' hrun
      exact ⟨octet :: os, dst, hreceived⟩

/-! ## Transmitting -/

section

variable {p : Profile}

/-- The program goes on without a panic, whatever it is answered. -/
abbrev Completes {α : Type} (p : Profile) (x : Task α) : Prop :=
  Meets (driverContract p) (fun _ _ => True) () x

theorem completes_tryThen {α : Type} {x : Task (Except TransferError Unit)}
    {y : Task (Except TransferError α)} (hx : Completes p x) (hy : Completes p y) :
    Completes p (tryThen x y) :=
  meets_tryThen hx (fun _ _ _ => trivial) fun _ _ => hy

theorem completes_forRange {body : ℕ → Task (Except TransferError Unit)} (lo n : ℕ)
    (hbody : ∀ i, lo ≤ i → i < lo + n → Completes p (body i)) :
    Completes p (forRange body lo n) := by
  induction n generalizing lo with
  | zero => trivial
  | succ n ih =>
    refine completes_tryThen (hbody lo (Nat.le_refl _) (by omega)) (ih (lo + 1) ?_)
    intro i hlo hi
    exact hbody i (by omega) (by omega)

theorem completes_writeOctet (octet : UInt8) : Completes p (writeOctet octet) := by
  refine ⟨trivial, fun r _ => ?_⟩
  cases r with
  | error e => trivial
  | ok u => trivial

theorem completes_sendOctet {buf : List UInt8} {i : ℕ} (hi : i < buf.length) (hlt : i < 128) :
    Completes p (sendOctet p buf i) := by
  refine meets_ok_bind (u8Add_start fun _ => hlt) (completes_tryThen (completes_writeOctet _) ?_)
  exact meets_ok_bind (index_eq hi) (completes_writeOctet _)

theorem completes_writeFrame {buf : List UInt8} (checksum : UInt8) (hpos : 0 < buf.length)
    (hle : buf.length ≤ 64) : Completes p (writeFrame p buf checksum) := by
  obtain ⟨last, hlast⟩ : ∃ last, u8Sub p (UInt8.ofNat buf.length) 1 = .ok last :=
    u8Sub_one fun _ => ⟨hpos, by omega⟩
  refine completes_tryThen (completes_writeOctet _) (meets_ok_bind (index_eq hpos) ?_)
  refine completes_tryThen (completes_writeOctet _) (completes_tryThen ?_ ?_)
  · exact completes_forRange 1 _ fun i hlo hi => completes_sendOctet (by omega) (by omega)
  · exact meets_ok_bind hlast (completes_tryThen (completes_writeOctet _) (completes_writeOctet _))

theorem completes_readEcho (i : ℕ) : Completes p (readEcho i) := by
  refine ⟨trivial, fun r _ => ?_⟩
  rcases r with _ | e | octet
  · trivial
  · trivial
  · trivial

theorem completes_readCon : Completes p readCon := by
  refine ⟨trivial, fun r _ => ?_⟩
  cases r with
  | error e => trivial
  | ok con =>
    show Completes p (if con &&& 0x7f ≠ 0xb then _ else _)
    split_ifs
    · trivial
    · trivial
    · trivial

/-- A frame that an index can be found for is transmitted without a panic. -/
theorem completes_sendFrame {frame : Frame} (h : Sendable frame) :
    Completes p (sendFrame p frame) :=
  completes_tryThen (completes_writeFrame _ h.1 h.2) <|
    completes_tryThen (completes_forRange 0 _ fun i _ _ => completes_readEcho i) completes_readCon

end

/-- A turn of the driver's loops keeps to the contract. -/
theorem meets_runIteration (p : Profile) (phase : Phase) : Completes p (runIteration p phase) := by
  cases phase with
  | draining =>
    refine ⟨trivial, ?_⟩
    rintro (_ | r) -
    · trivial
    · trivial
  | idle =>
    refine ⟨trivial, ?_⟩
    rintro ((e | octet) | _) -
    · trivial
    · show Completes p (if isFrameStart octet = true then _ else _)
      split_ifs with hstart
      · refine meets_bind (meets_receiveFrame p hstart) ?_
        rintro ⟨⟩ (e | f) hreceived
        · trivial
        · exact ⟨hreceived f rfl, fun _ _ => trivial⟩
      · trivial
    · refine ⟨trivial, fun frame hsendable => ?_⟩
      show Completes p (sendFrame p frame >>= _)
      refine meets_bind (completes_sendFrame hsendable) ?_
      rintro ⟨⟩ (e | status) -
      · exact ⟨trivial, fun _ _ => trivial⟩
      · exact ⟨trivial, fun _ _ => trivial⟩

end Driver

end EmbassyKnx
