import EmbassyKnx.Common.Protocol
import EmbassyKnx.Driver.Reception
import EmbassyKnx.System.Model

/-!
# The protocols of the tasks

What the driver task and the application task may do with frames, blocks and the
confirmation signal, and that the code of `ncn51_driver.rs` and of the layers keeps to it.

* `follows_runIteration`: a turn of the driver.
* `follows_receiveTurn`: a turn of `TransportLayer::receive`; it does not wait while it
  holds a group read, and it returns it.
* `follows_respond`: the answer to a group read.
-/

namespace EmbassyKnx

open Rust Async

/-- The layers take the frame for an `A_GroupValue_Read`. -/
def IsGroupRead (f : Frame) : Prop :=
  App.networkInd f = .ok (.dataGroup f) ∧ f.tpci .six = .ok 0 ∧ f.apci .four = .ok 0

instance (f : Frame) : Decidable (IsGroupRead f) := inferInstanceAs (Decidable (_ ∧ _))

/-! ## The driver -/

/-- Where the driver is in a turn. -/
inductive DriverStage
  /-- In front of `select`, or of a read of the drain loop. -/
  | start
  /-- An octet has come; `block`: a block is allocated. -/
  | receiving (block : Bool)
  /-- A request has come. -/
  | woken
  /-- The frame of a request is transmitted. -/
  | transmitting
  /-- A frame has been handed over or transmitted, or the drain loop has read. -/
  | over (block : Bool)
  deriving DecidableEq

namespace DriverStage

/-- The blocks that the driver holds. -/
def held : DriverStage → ℕ
  | .receiving block => block.toNat
  | .transmitting => 1
  | .over block => block.toNat
  | _ => 0

/-- The turn may end here. -/
def Finished : DriverStage → Prop
  | .receiving _ => True
  | .over _ => True
  | _ => False

theorem Finished.ne_transmitting {g : DriverStage} (h : g.Finished) : g ≠ .transmitting := by
  rintro rfl
  exact h

/-- Operations of the UART go on in these stages. -/
def Busy : DriverStage → Prop
  | .receiving _ => True
  | .transmitting => True
  | _ => False

/-- What the driver may do. -/
def Allows : DriverStage → DriverOp → Prop
  | g, .alloc => g = .receiving false
  | g, .read => g.Busy
  | g, .readWithTimeout => g.Busy ∨ g = .start
  | g, .write _ => g.Busy
  | g, .selectReadOrRequest => g = .start
  | g, .frameChannelRxReceive => g = .woken
  | g, .frameChannelTxSend _ => g = .receiving true
  | g, .conSignal _ => g = .transmitting

/-- The stage behind an operation. -/
def next : DriverStage → (o : DriverOp) → driverSig.Ret o → DriverStage
  | _, .alloc, block => .receiving block
  | .start, .readWithTimeout, _ => .over false
  | _, .selectReadOrRequest, .inl _ => .receiving false
  | _, .selectReadOrRequest, .inr () => .woken
  | _, .frameChannelRxReceive, _ => .transmitting
  | _, .frameChannelTxSend _, _ => .over false
  | _, .conSignal _, _ => .over true
  | g, _, _ => g

end DriverStage

/-- The protocol of the driver task. -/
def driverProtocol : Protocol driverSig DriverStage where
  allows := DriverStage.Allows
  answers _ _ := True
  next := DriverStage.next

namespace Driver

/-- The program returns to the stage it starts in. -/
abbrev Returns {α : Type} (g : DriverStage) (x : Task α) : Prop :=
  Follows driverProtocol (fun g' _ => g' = g) g x

section

variable {g : DriverStage}

theorem returns_read (hg : g.Busy) : Returns g read := by
  refine ⟨hg, fun r _ => ?_⟩
  cases g <;> rfl

theorem returns_timedRead (hg : g.Busy) : Returns g timedRead := by
  refine ⟨.inl hg, fun r _ => ?_⟩
  cases g with
  | start => exact absurd hg id
  | _ => rfl

theorem returns_writeOctet (hg : g.Busy) (octet : UInt8) : Returns g (writeOctet octet) := by
  refine ⟨hg, fun r _ => ?_⟩
  have hnext : driverProtocol.next g (.write octet) r = g := by cases g <;> rfl
  rw [hnext]
  cases r with
  | error e => rfl
  | ok u => rfl

theorem returns_tryThen {α : Type} {x : Task (Except TransferError Unit)}
    {y : Task (Except TransferError α)} (hx : Returns g x) (hy : Returns g y) :
    Returns g (tryThen x y) :=
  follows_tryThen hx (fun _ _ h => h) fun _ h => h ▸ hy

theorem returns_bind {α β : Type} {x : Task α} {f : α → Task β} (hx : Returns g x)
    (hf : ∀ a, Returns g (f a)) : Returns g (x >>= f) :=
  follows_bind hx fun _ a h => h ▸ hf a

theorem returns_lift_bind {α β : Type} {x : Panicking α} {f : α → Task β}
    (hf : ∀ a, Returns g (f a)) : Returns g (liftM x >>= f) :=
  follows_lift_bind fun a _ => hf a

theorem returns_forRange {body : ℕ → Task (Except TransferError Unit)}
    (hbody : ∀ i, Returns g (body i)) (lo n : ℕ) : Returns g (forRange body lo n) :=
  follows_forRange (fun i _ h => h ▸ hbody i) lo n rfl

/-! ### Reading and writing -/

theorem returns_ackIfAddressed (hg : g.Busy) (dstAddr : Address) :
    Returns g (ackIfAddressed dstAddr) := by
  unfold ackIfAddressed
  split_ifs
  · exact returns_writeOctet hg _
  · exact rfl

theorem returns_readWithTimeout (hg : g.Busy) (bytes : ℕ) (buf : List UInt8) :
    Returns g (readWithTimeoutFrom bytes buf) := by
  induction buf generalizing bytes with
  | nil => exact rfl
  | cons slot buf ih =>
    refine returns_bind (returns_timedRead hg) ?_
    rintro (_ | _ | octet)
    · exact rfl
    · exact rfl
    · exact returns_bind (ih (bytes + 1)) fun _ => rfl

theorem returns_sendFrame (p : Profile) (frame : Frame) (hg : g.Busy) :
    Returns g (sendFrame p frame) := by
  have hwrite : Returns g (writeFrame p frame.data frame.checksum) := by
    refine returns_tryThen (returns_writeOctet hg _) (returns_lift_bind fun first => ?_)
    refine returns_tryThen (returns_writeOctet hg _) (returns_tryThen ?_ ?_)
    · exact returns_forRange (fun i => returns_lift_bind fun cont =>
        returns_tryThen (returns_writeOctet hg _)
          (returns_lift_bind fun octet => returns_writeOctet hg _)) 1 _
    · exact returns_lift_bind fun last =>
        returns_tryThen (returns_writeOctet hg _) (returns_writeOctet hg _)
  have hecho (i : ℕ) : Returns g (readEcho i) := by
    refine returns_bind (returns_readWithTimeout hg 0 [0]) ?_
    rintro ⟨buf, e | n⟩
    · exact rfl
    · exact rfl
  have hcon : Returns g readCon := by
    refine returns_bind (returns_read hg) ?_
    rintro (e | con)
    · exact rfl
    · show Returns g (if con &&& 0x7f ≠ 0xb then _ else _)
      split_ifs
      · exact rfl
      · exact rfl
      · exact rfl
  exact returns_tryThen hwrite (returns_tryThen (returns_forRange hecho 0 _) hcon)

theorem returns_receiveBody {T : Type} [FrameWriter T] (p : Profile) (frame : T) (bytesRead : ℕ)
    (hg : g.Busy) : Returns g (receiveBody p frame bytesRead) := by
  refine returns_lift_bind fun dst => returns_bind (returns_ackIfAddressed hg dst) ?_
  rintro (e | u)
  · exact rfl
  · refine returns_lift_bind fun body => returns_bind (returns_readWithTimeout hg 0 body) ?_
    have haccept (frame : T) (n : ℕ) :
        Returns g (liftM (acceptFrame p frame n) : Task (Except TransferError T)) := by
      cases acceptFrame p frame n with
      | error why => trivial
      | ok r => exact rfl
    rintro ⟨body, (n | e | e | o) | n⟩
    · exact haccept _ _
    · exact rfl
    · exact rfl
    · exact rfl
    · exact haccept _ _

end

/-! ### Receiving -/

/-- The end of a reception: a frame comes in a block. -/
def ReceivedIn {T : Type} (g : DriverStage) (r : Except TransferError T) : Prop :=
  g = .receiving true ∨ g = .receiving false ∧ ∃ e, r = .error e

theorem follows_receiveFrameInt (T : Type) [FrameWriter T] [ScratchFits T] (p : Profile)
    (ctrlOctet : UInt8) :
    Follows driverProtocol ReceivedIn (.receiving false) (receiveFrameInt T p ctrlOctet) := by
  have halloc : Follows driverProtocol (fun g block => g = .receiving block) (.receiving false)
      alloc :=
    ⟨rfl, fun block _ => rfl⟩
  refine follows_bind halloc ?_
  rintro _ block rfl
  cases block with
  | false =>
    rw [ScratchFits.new_none]
    exact .inr ⟨rfl, _, rfl⟩
  | true =>
    have hbusy : (DriverStage.receiving true).Busy := trivial
    refine (?_ : Returns (.receiving true) _).mono fun g r h => .inl h
    refine returns_lift_bind fun scratch => ?_
    cases scratch with
    | error e => exact rfl
    | ok frame =>
      refine returns_lift_bind fun frame => returns_lift_bind fun header => ?_
      refine returns_bind (returns_readWithTimeout hbusy 0 header) ?_
      rintro ⟨header, e | bytes⟩
      · exact rfl
      · exact returns_receiveBody p _ _ hbusy

theorem follows_receiveFrame (p : Profile) (ctrlOctet : UInt8) :
    Follows driverProtocol ReceivedIn (.receiving false) (receiveFrame p ctrlOctet) := by
  unfold receiveFrame
  split_ifs
  · refine follows_bind (follows_receiveFrameInt StandardFrame p ctrlOctet) ?_
    rintro g (e | f) (hg | ⟨hg, e', he⟩)
    · exact .inl hg
    · exact .inr ⟨hg, _, rfl⟩
    · exact .inl hg
    · simp at he
  · refine follows_bind (follows_receiveFrameInt ExtendedFrame p ctrlOctet) ?_
    rintro g (e | f) (hg | ⟨hg, e', he⟩)
    · exact .inl hg
    · exact .inr ⟨hg, _, rfl⟩
    · exact .inl hg
    · simp at he
  · trivial

/-! ### A turn -/

/-- A turn of the driver's loops keeps to the protocol. -/
theorem follows_runIteration (p : Profile) (phase : Phase) :
    Follows driverProtocol (fun g _ => g.Finished) .start (runIteration p phase) := by
  cases phase with
  | draining =>
    refine ⟨.inr rfl, ?_⟩
    rintro (_ | r) -
    · trivial
    · trivial
  | idle =>
    refine ⟨rfl, ?_⟩
    rintro ((e | octet) | _) -
    · trivial
    · show Follows driverProtocol _ (DriverStage.receiving false)
        (if isFrameStart octet = true then _ else _)
      split_ifs
      · refine follows_bind (follows_receiveFrame p octet) ?_
        rintro g (e | f) (rfl | ⟨rfl, e', he⟩)
        · trivial
        · trivial
        · exact ⟨rfl, fun _ _ => trivial⟩
        · simp at he
      · trivial
    · refine ⟨rfl, fun frame _ => ?_⟩
      show Follows driverProtocol _ DriverStage.transmitting (sendFrame p frame >>= _)
      refine follows_bind (returns_sendFrame p frame trivial) ?_
      rintro _ (e | status) rfl
      · exact ⟨rfl, fun _ _ => trivial⟩
      · exact ⟨rfl, fun _ _ => trivial⟩

end Driver

/-! ## The application task -/

/-- How far a send is. -/
inductive SendStage
  | idle
  /-- A block is allocated for the frame. -/
  | built
  /-- The confirmation signal is reset. -/
  | ready
  /-- The frame is in the queue, and the confirmation is waited for. -/
  | queued
  /-- The frame is confirmed, or there is nothing to send. -/
  | confirmed
  deriving DecidableEq

namespace SendStage

/-- The blocks of the frame that is to be sent. -/
def held : SendStage → ℕ
  | .built => 1
  | .ready => 1
  | _ => 0

/-- No send is going on. -/
def Ended : SendStage → Prop
  | .ready => False
  | .queued => False
  | _ => True

end SendStage

/-- Where the application task is in a turn of `TransportLayer::receive`, or in the answer to
    a group read. -/
inductive AppStage
  /-- In front of the inner `select`, or in it. -/
  | awaiting
  /-- With a group read. -/
  | reading
  /-- With another frame, or with none if the ticker has fired or a read is answered. -/
  | handling (frame : Bool) (send : SendStage)
  deriving DecidableEq

namespace AppStage

/-- The blocks that the task holds. -/
def held : AppStage → ℕ
  | .awaiting => 0
  | .reading => 1
  | .handling frame send => frame.toNat + send.held

/-- What the task may do. -/
def Allows (g : AppStage) : AppOp → Prop
  | .alloc => ∃ b, g = .handling b .idle
  | .setConnection c => c.storedFrame = none
  | .conSignalReset => ∃ b, g = .handling b .built
  | .frameChannelRxSend _ => ∃ b, g = .handling b .ready
  | .conSignalWait => ∃ b, g = .handling b .queued
  | .selectFrameOrTick _ => g = .awaiting
  | _ => True

/-- No frame is stored in the connection. -/
def Answers : (o : AppOp) → appSig.Ret o → Prop
  | .getConnection, c => c.storedFrame = none
  | _, _ => True

/-- The stage behind an operation. -/
def next : AppStage → (o : AppOp) → appSig.Ret o → AppStage
  | .handling b _, .alloc, block => .handling b (if block then .built else .idle)
  | .handling b _, .conSignalReset, _ => .handling b .ready
  | .handling b _, .frameChannelRxSend _, _ => .handling b .queued
  | .handling b _, .conSignalWait, _ => .handling b .confirmed
  | _, .selectFrameOrTick _, .inl frame =>
    if IsGroupRead frame then .reading else .handling true .idle
  | _, .selectFrameOrTick _, .inr () => .handling false .confirmed
  | g, _, _ => g

end AppStage

/-- The protocol of the transport layer. -/
def transportProtocol : Protocol appSig AppStage where
  allows := AppStage.Allows
  answers := AppStage.Answers
  next := AppStage.next

namespace App

/-- What the statement of `receive` has got is a group read. -/
def IsRead (r : IndResult) : Prop := ∃ f, r = .ok (some (.dataGroup f)) ∧ f.apci .four = .ok 0

/-- A frame that is no group read has been handled, and no send is left. -/
def Handled (b : Bool) (g : AppStage) (r : IndResult) : Prop :=
  (∃ s : SendStage, g = .handling b s ∧ s.Ended) ∧ ¬IsRead r

section

variable {g : AppStage} {b : Bool} {α : Type} {post : AppStage → α → Prop}

/-! ### Sending -/

/-- The frame of a send goes into the queue, and its confirmation is waited for. -/
theorem follows_networkSend (req : NetworkServiceReq) :
    Follows transportProtocol (fun g _ => g = .handling b .confirmed) (.handling b .built)
      (networkSend req) := by
  have hsend (frame : Frame) : Follows transportProtocol (fun g _ => g = .handling b .confirmed)
      (.handling b .built) (dataLinkSend frame) :=
    ⟨⟨b, rfl⟩, fun _ _ => ⟨⟨b, rfl⟩, fun _ _ => ⟨⟨b, rfl⟩, fun _ _ => rfl⟩⟩⟩
  cases req with
  | dataGroup frame => exact hsend frame
  | dataIndividual frame => exact hsend frame

theorem follows_alloc : Follows transportProtocol
    (fun g block => g = .handling b (if block then .built else .idle)) (.handling b .idle) alloc :=
  ⟨⟨b, rfl⟩, fun _ _ => rfl⟩

/-- The result of a send that may lack a block. -/
def SentWith (b : Bool) (g : AppStage) (_ : FrameResult Unit) : Prop :=
  ∃ s : SendStage, g = .handling b s ∧ s.Ended

theorem follows_sendResponseFrame (p : Profile) (dstAddr : IndividualAddress) (seq tpci : UInt8) :
    Follows transportProtocol (SentWith b) (.handling b .idle)
      (sendResponseFrame p dstAddr seq tpci) := by
  refine follows_bind follows_alloc ?_
  rintro _ block rfl
  cases block with
  | false => exact ⟨.idle, rfl, trivial⟩
  | true =>
    refine follows_lift_bind fun frame _ => ?_
    cases frame with
    | error e => exact ⟨.built, rfl, trivial⟩
    | ok frame =>
      refine follows_bind (follows_networkSend _) ?_
      rintro _ u rfl
      exact ⟨.confirmed, rfl, trivial⟩

/-! ### The connection -/

theorem follows_getConnection {f : Connection → Task α}
    (hf : ∀ c, c.storedFrame = none → Follows transportProtocol post g (f c)) :
    Follows transportProtocol post g (getConnection >>= f) := by
  refine ⟨trivial, fun c hc => ?_⟩
  have hnext : transportProtocol.next g .getConnection c = g := by cases g <;> rfl
  rw [hnext]
  exact hf c hc

theorem follows_setConnection {f : Unit → Task α} {c : Connection} (hc : c.storedFrame = none)
    (hf : Follows transportProtocol post g (f ())) :
    Follows transportProtocol post g (setConnection c >>= f) := by
  refine ⟨hc, fun u _ => ?_⟩
  have hnext : transportProtocol.next g (.setConnection c) u = g := by cases g <;> rfl
  rw [hnext]
  exact hf

/-- Assignments to the other fields leave no frame in the connection. -/
theorem follows_modifyConnection {f : Connection → Connection} {h : Unit → Task α}
    (hf : ∀ c, (f c).storedFrame = c.storedFrame)
    (hh : Follows transportProtocol post g (h ())) :
    Follows transportProtocol post g (modifyConnection f >>= h) := by
  show Follows transportProtocol post g (getConnection >>= fun c => setConnection (f c) >>= h)
  exact follows_getConnection fun c hc => follows_setConnection ((hf c).trans hc) hh

/-- Any result but a group read is fine behind a send. -/
theorem handled_return {s : SendStage} (hs : s.Ended) {r : IndResult}
    (hr : ∀ f, r ≠ .ok (some (.dataGroup f))) : Handled b (.handling b s) r := by
  refine ⟨⟨s, rfl, hs⟩, ?_⟩
  rintro ⟨f, hf, -⟩
  exact hr f hf

/-- A response is sent, and `y` follows if there was a block for it. -/
theorem follows_afterResponse (p : Profile) {dstAddr : IndividualAddress} {seq tpci : UInt8}
    {y : Task IndResult}
    (hy : ∀ s : SendStage, s.Ended → Follows transportProtocol (Handled b) (.handling b s) y) :
    Follows transportProtocol (Handled b) (.handling b .idle)
      (tryThen (sendResponseFrame p dstAddr seq tpci) y) := by
  refine follows_tryThen (follows_sendResponseFrame p dstAddr seq tpci) ?_ ?_
  · rintro g e ⟨s, rfl, hs⟩
    exact handled_return hs (by simp)
  · rintro g ⟨s, rfl, hs⟩
    exact hy s hs

theorem follows_newConnectionA1 (frame : Frame) :
    Follows transportProtocol (Handled b) (.handling b .idle) (newConnectionA1 frame) := by
  refine follows_lift_bind fun srcAddr _ => follows_modifyConnection (fun c => rfl) ?_
  exact handled_return (s := .idle) trivial (by simp)

theorem follows_ackDataA2 (p : Profile) (frame : Frame) :
    Follows transportProtocol (Handled b) (.handling b .idle) (ackDataA2 p frame) := by
  refine follows_lift_bind fun srcAddr _ => follows_getConnection fun c hc => ?_
  refine follows_afterResponse p fun s hs => follows_modifyConnection (fun c => rfl) ?_
  refine follows_getConnection fun c hc => follows_lift_bind fun seqNoRecv _ => ?_
  exact follows_modifyConnection (fun c => rfl) (handled_return hs (by simp))

theorem follows_ackA3 (p : Profile) (frame : Frame) :
    Follows transportProtocol (Handled b) (.handling b .idle) (ackA3 p frame) := by
  refine follows_lift_bind fun srcAddr _ => follows_lift_bind fun seq _ => ?_
  refine follows_afterResponse p fun s hs => follows_modifyConnection (fun c => rfl) ?_
  exact handled_return hs (by simp)

theorem follows_notifyDisconectA5 (frame : Frame) :
    Follows transportProtocol (Handled b) (.handling b .idle) (notifyDisconectA5 frame) :=
  follows_modifyConnection (fun c => rfl) (handled_return (s := .idle) trivial (by simp))

theorem follows_disconnectA6 (p : Profile) (frame : Frame) :
    Follows transportProtocol (Handled b) (.handling b .idle) (disconnectA6 p frame) := by
  refine follows_lift_bind fun srcAddr _ => follows_afterResponse p fun s hs => ?_
  exact follows_modifyConnection (fun c => rfl) (handled_return hs (by simp))

theorem follows_rejectA10 (p : Profile) (frame : Frame) :
    Follows transportProtocol (Handled b) (.handling b .idle) (rejectA10 p frame) := by
  refine follows_lift_bind fun srcAddr _ => follows_afterResponse p fun s hs => ?_
  exact handled_return hs (by simp)

theorem follows_handleEvent (p : Profile) (event : Events) (frame : Frame) :
    Follows transportProtocol (Handled b) (.handling b .idle) (handleEvent p event frame) := by
  refine follows_getConnection fun c hc => ?_
  have hnone : Follows transportProtocol (Handled b) (.handling b .idle)
      (return .ok none : Task IndResult) := handled_return (s := .idle) trivial (by simp)
  have hstate (state : States) {x : Task IndResult}
      (hx : Follows transportProtocol (Handled b) (.handling b .idle) x) :
      Follows transportProtocol (Handled b) (.handling b .idle) (setState state >>= fun _ => x) :=
    follows_modifyConnection (fun c => rfl) hx
  -- each arm of the table is one of the actions, behind an assignment of the state perhaps
  cases event <;> cases c.state
  all_goals first
    | exact hnone
    | exact hstate _ (follows_newConnectionA1 frame)
    | exact hstate _ (follows_disconnectA6 p frame)
    | exact hstate _ (follows_notifyDisconectA5 frame)
    | exact follows_rejectA10 p frame
    | exact follows_ackDataA2 p frame
    | exact follows_ackA3 p frame

theorem follows_handleInd (p : Profile) (ind : TransportServiceInd) :
    Follows transportProtocol (Handled b) (.handling b .idle) (handleInd p ind) := by
  refine follows_getConnection fun c hc => follows_lift_bind fun event _ => ?_
  exact follows_handleEvent p event.1 event.2

theorem follows_releaseMut {f : Unit → Task α}
    (hf : Follows transportProtocol post g (f ())) :
    Follows transportProtocol post g (releaseMut >>= f) := by
  refine ⟨trivial, fun u _ => ?_⟩
  have hnext : transportProtocol.next g .releaseMut u = g := by cases g <;> rfl
  rw [hnext]
  exact hf

theorem follows_withBorrow {x : Task α} (hx : Follows transportProtocol post g x) :
    Follows transportProtocol post g (withBorrow x) := by
  refine ⟨trivial, fun ok _ => ?_⟩
  have hnext : transportProtocol.next g .borrowMut ok = g := by cases g <;> rfl
  rw [hnext]
  cases ok with
  | false => trivial
  | true =>
    show Follows transportProtocol post g (x >>= fun a => releaseMut >>= fun _ => pure a)
    exact follows_bind hx fun g a ha => follows_releaseMut ha

/-! ### Receiving -/

/-- A frame that is no group read, and no group frame with another service. -/
theorem follows_receiveInd (p : Profile) {ind : NetworkServiceInd}
    (hgroup : ∀ f, ind = .dataGroup f → ¬IsGroupRead f)
    (hnet : ∀ f, ind = .dataGroup f → networkInd f = .ok (.dataGroup f)) :
    Follows transportProtocol (Handled b) (.handling b .idle) (receiveInd p ind) := by
  cases ind with
  | dataIndividual frame =>
    refine follows_lift_bind fun tpci _ => ?_
    cases individualService tpci with
    | dataIndividual => exact handled_return (s := .idle) trivial (by simp)
    | connection service => exact follows_withBorrow (follows_handleInd p _)
    | invalidTpdu => exact handled_return (s := .idle) trivial (by simp)
  | dataBroadcast frame =>
    refine follows_lift_bind fun tpci _ => ?_
    show Follows transportProtocol _ _ (if tpci = 0 then _ else _)
    split_ifs
    · exact handled_return (s := .idle) trivial (by simp)
    · exact handled_return (s := .idle) trivial (by simp)
  | dataGroup frame =>
    refine follows_lift_bind fun tpci htpci => ?_
    show Follows transportProtocol _ _ (if tpci = 0 then _ else if tpci = 1 then _ else _)
    split_ifs with hzero hone
    · subst hzero
      refine ⟨⟨.idle, rfl, trivial⟩, ?_⟩
      rintro ⟨f, hf, hapci⟩
      simp only [Except.ok.injEq, Option.some.injEq, TransportServiceInd.dataGroup.injEq] at hf
      subst hf
      exact hgroup frame rfl ⟨hnet frame rfl, htpci, hapci⟩
    · exact handled_return (s := .idle) trivial (by simp)
    · exact handled_return (s := .idle) trivial (by simp)
  | dataSystemBroadcast frame => exact handled_return (s := .idle) trivial (by simp)

theorem networkInd_dataGroup {f f' : Frame} (h : networkInd f = .ok (.dataGroup f')) : f' = f := by
  unfold networkInd at h
  cases hdst : f.dstAddr with
  | error why =>
    rw [hdst] at h
    exact absurd h (by simp)
  | ok dst =>
    rw [hdst] at h
    cases dst with
    | individual addr =>
      have h : Except.ok (NetworkServiceInd.dataIndividual f) = .ok (.dataGroup f') := h
      simp at h
    | group addr =>
      have h : (if addr = ⟨0⟩ then Except.ok (NetworkServiceInd.dataBroadcast f)
        else .ok (.dataGroup f)) = (.ok (.dataGroup f') : Panicking NetworkServiceInd) := h
      split_ifs at h
      · simp at h
      · simpa using h.symm

/-- A frame that is no group read is handled; a group read is returned without a wait. -/
theorem follows_receiveArm_other (p : Profile) {frame : Frame} (h : ¬IsGroupRead frame) :
    Follows transportProtocol (Handled true) (.handling true .idle)
      (receiveArm p (.inl frame)) := by
  refine follows_lift_bind fun ind hind => follows_receiveInd p ?_ ?_
  · rintro f rfl
    rwa [networkInd_dataGroup hind]
  · rintro f rfl
    have hsame := networkInd_dataGroup hind
    subst hsame
    exact hind

theorem follows_receiveArm_read (p : Profile) {frame : Frame} (h : IsGroupRead frame) :
    Follows transportProtocol (fun g r => g = .reading ∧ IsRead r) .reading
      (receiveArm p (.inl frame)) := by
  obtain ⟨hnet, htpci, hapci⟩ := h
  refine follows_lift_bind fun ind hind => ?_
  rw [hnet] at hind
  cases hind
  refine follows_lift_bind fun tpci htpci' => ?_
  rw [htpci] at htpci'
  cases htpci'
  exact ⟨rfl, frame, rfl, hapci⟩

end

/-- The end of a turn of `receive`: with a group read in its result, or with no group read. -/
def ReceiveEnds (g : AppStage) (r : IndResult) : Prop :=
  g = .reading ∧ IsRead r ∨ ∃ b, Handled b g r

theorem follows_receiveStatement (p : Profile) :
    Follows transportProtocol ReceiveEnds .awaiting (receiveStatement p) := by
  refine follows_withBorrow (follows_getConnection fun self _ => ?_)
  refine ⟨rfl, ?_⟩
  rintro (frame | _) -
  · show Follows transportProtocol _ (if IsGroupRead frame then _ else _)
      (receiveArm p (.inl frame))
    split_ifs with hread
    · exact (follows_receiveArm_read p hread).mono fun g r h => .inl h
    · exact (follows_receiveArm_other p hread).mono fun g r h => .inr ⟨_, h⟩
  · refine (follows_withBorrow ?_).mono fun g r h => .inr ⟨false, h⟩
    exact handled_return (s := .confirmed) trivial (by simp)

/-- The end of a turn, with what it returns. -/
def TurnEnds (g : AppStage) (o : Option (FrameResult TransportServiceInd)) : Prop :=
  ∃ r, o = turnResult r ∧ ReceiveEnds g r

/-- A turn of `receive` keeps to the protocol. -/
theorem follows_receiveTurn (p : Profile) :
    Follows transportProtocol TurnEnds .awaiting (receiveTurn p) :=
  follows_bind (follows_receiveStatement p) fun _ r h => ⟨r, rfl, h⟩

/-- The end of an answer. -/
def AnswerEnds (g : AppStage) (_ : Unit) : Prop := ∃ s : SendStage, g = .handling false s ∧ s.Ended

/-- The answer to a group read keeps to the protocol. -/
theorem follows_respond (p : Profile) (res : ApplicationServiceRes) :
    Follows transportProtocol AnswerEnds (.handling false .idle) (respond p res) := by
  obtain ⟨resp⟩ := res
  refine follows_bind follows_alloc ?_
  rintro _ block rfl
  refine follows_lift_bind fun req hreq => ?_
  cases req with
  | error e => trivial
  | ok req =>
    cases block with
    | false =>
      rw [GroupReadResponse.toTransport_false] at hreq
      simp at hreq
    | true =>
      refine follows_lift_bind fun frame _ => ?_
      refine (follows_networkSend (b := false) _).mono ?_
      rintro g u rfl
      exact ⟨.confirmed, rfl, trivial⟩

end App

end EmbassyKnx
