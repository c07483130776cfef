import EmbassyKnx.Common.Machine
import EmbassyKnx.Transport.Receive
import EmbassyKnx.Frame.Header

/-!
# One connection step

The environment of the application task, and what `handle_ind` does in it. An
indication selects one of seven actions (`actionOf`); an action changes the
connection, queues at most one frame and returns (`act`). `act` is a function of
the connection, the frame and the outcome of the one allocation an action may
need.

* `exec_handleInd`: `handle_ind` is `act` on the action of its event.
* `responseFrame_eq`: the octets of a response frame.
-/

namespace EmbassyKnx.App

open Rust Async Connection FrameLayout FrameReader

/-! ## The environment -/

/-- What can happen to a task that waits in `receive`. -/
inductive Stimulus
  | frame (f : SizedFrame)
  /-- The connection's ticker expires, if it is armed. -/
  | tick

/-- The environment of the application task. -/
structure Station where
  connection : Connection
  /-- A `RefMut` of the connection is alive. -/
  borrowed : Bool
  /-- A block of the frame pool is free. -/
  block : Bool
  /-- What happens from now on. -/
  stimuli : List Stimulus
  /-- The frames put into `FRAME_CHANNEL_RX`. -/
  queued : List Frame

/-- The next thing that ends the `select` of `receive`. -/
def nextStimulus (timer : Bool) : List Stimulus → Option ((Frame ⊕ Unit) × List Stimulus)
  | [] => none
  | .frame f :: stimuli => some (.inl f.frame, stimuli)
  | .tick :: stimuli => if timer then some (.inr (), stimuli) else nextStimulus timer stimuli

/-- The environment. `FRAME_CHANNEL_RX` has room and the driver confirms every frame; the
    status it signals is discarded by `send`. -/
def app : Handler appSig Station
  | .alloc, w => some (w.block, w)
  | .borrowMut, w => some (!w.borrowed, { w with borrowed := true })
  | .releaseMut, w => some ((), { w with borrowed := false })
  | .getConnection, w => some (w.connection, w)
  | .setConnection c, w => some ((), { w with connection := c })
  | .conSignalReset, w => some ((), w)
  | .frameChannelRxSend frame, w => some ((), { w with queued := w.queued ++ [frame] })
  | .conSignalWait, w => some (.ok, w)
  | .selectFrameOrTick timer, w =>
    (nextStimulus timer w.stimuli).map fun (r, stimuli) => (r, { w with stimuli })

section Operations

variable (w : Station)

@[simp] theorem exec_alloc : exec app alloc w = .returned w.block w := rfl

@[simp] theorem exec_getConnection : exec app getConnection w = .returned w.connection w := rfl

@[simp] theorem exec_modifyConnection (f : Connection → Connection) :
    exec app (modifyConnection f) w = .returned () { w with connection := f w.connection } := rfl

@[simp] theorem exec_setState (state : States) :
    exec app (setState state) w =
      .returned () { w with connection := { w.connection with state } } := rfl

end Operations

/-! ## Response frames -/

/-- The frame `send_response_frame` sends. -/
def response (dst : IndividualAddress) (seq tpci : UInt8) : StandardFrame where
  buf :=
    { toList := [0x90, 0x11, 0x78, (dst.addr >>> 8).toUInt8, (dst.addr &&& 0xFF).toUInt8, 0x70,
        tpci ||| ((seq &&& 0x7) <<< 2), 0]
      length_le := by simp [maxBlockSize] }

/-- A response frame can be read. -/
def sizedResponse (dst : IndividualAddress) (seq tpci : UInt8) : SizedFrame where
  frame := .standard (response dst seq tpci)
  sized := Nat.le_refl 8

section Response

variable (dst : IndividualAddress) (seq tpci : UInt8)

theorem sizedResponse_dstAddr : (sizedResponse dst seq tpci).dstAddr = .individual dst := by
  have hat : AddressType.ofU8 ((0x70 : UInt8) >>> 7) = .individual := by decide
  have hoctet : octetAt (data (response dst seq tpci)) (atField StandardFrame) = 0x70 := rfl
  show dstAddrOf StandardFrame (data (response dst seq tpci)) = _
  rw [dstAddrOf, hoctet, hat]
  exact congrArg (Address.individual ⟨·⟩) (Octets.u16_of_octets dst.addr)

theorem response_dstAddr :
    (Frame.standard (response dst seq tpci)).dstAddr = .ok (.individual dst) := by
  rw [← sizedResponse_dstAddr dst seq tpci]
  exact (sizedResponse dst seq tpci).dstAddr_frame

theorem sizedResponse_tpci :
    (sizedResponse dst seq tpci).tpci = tpci ||| ((seq &&& 0x7) <<< 2) := rfl

end Response

theorem responseFrame_eq (p : Profile) (dst : IndividualAddress) (seq tpci : UInt8) :
    responseFrame p true dst seq tpci = .ok (.ok (response dst seq tpci)) := by
  cases p <;> rfl

theorem responseFrame_outOfMemory (p : Profile) (dst : IndividualAddress) (seq tpci : UInt8) :
    responseFrame p false dst seq tpci = .ok (.error .outOfMemory) := rfl

/-- With a free block the frame is queued; without one nothing happens. -/
theorem exec_sendResponseFrame (p : Profile) (dst : IndividualAddress) (seq tpci : UInt8)
    (w : Station) :
    exec app (sendResponseFrame p dst seq tpci) w =
      if w.block then
        .returned (.ok ()) { w with queued := w.queued ++ [.standard (response dst seq tpci)] }
      else .returned (.error .outOfMemory) w := by
  unfold sendResponseFrame
  obtain ⟨connection, borrowed, block, stimuli, queued⟩ := w
  simp only [exec_bind, exec_alloc, Outcome.andThen_returned]
  cases block with
  | true => rw [responseFrame_eq]; rfl
  | false => rw [responseFrame_outOfMemory]; rfl

/-! ## Actions -/

/-- The actions of the state machine; `ignore` is `Ok(None)`. -/
inductive Action
  | a1
  | a2
  | a3
  | a5
  | a6
  | a10
  | ignore
  deriving DecidableEq, Repr

/-- The action of an event in a state that is, or is not, `Closed`. -/
def actionOf (closed : Bool) : Events → Action
  | .connectReqSameAddressE00 => if closed then .a1 else .a6
  | .connectReqNewAddressE01 => if closed then .a1 else .a10
  | .disconnectReqSameAddressE02 => if closed then .ignore else .a5
  | .dataConnectedE04 => if closed then .a10 else .a2
  | .dataConnectedE05 => if closed then .a10 else .a3
  | _ => .ignore

/-- The code of an action, with the change of state that goes with it. -/
def runAction (p : Profile) (frame : Frame) : Action → Task IndResult
  | .a1 => do
    setState .openIdle
    newConnectionA1 frame
  | .a2 => ackDataA2 p frame
  | .a3 => ackA3 p frame
  | .a5 => do
    setState .closed
    notifyDisconectA5 frame
  | .a6 => do
    setState .closed
    disconnectA6 p frame
  | .a10 => rejectA10 p frame
  | .ignore => return .ok none

/-- `handle_event` runs the action of the event. -/
theorem handleEvent_eq (p : Profile) (event : Events) (frame : Frame) :
    handleEvent p event frame =
      getConnection >>= fun self => runAction p frame (actionOf (self.state = .closed) event) := by
  unfold handleEvent
  congr 1
  funext self
  cases event <;> cases self.state <;> rfl

/-- What an action does: the connection it leaves, the frames it queues, what it returns. -/
structure StepResult where
  connection : Connection
  sent : List Frame
  result : IndResult
  deriving DecidableEq

/-- The connection after A1. -/
def opened (c : Connection) (peer : IndividualAddress) : Connection :=
  { c with
    state := .openIdle, seqNoRecv := 0, seqNoSend := 0, srcAddr := some peer,
    connectionTimeout := armed }

/-- An action that needs a block for the frame it sends. -/
def sending (block : Bool) (c : Connection) (frame : StandardFrame)
    (done : Panicking (Connection × Option TransportServiceInd)) : Panicking StepResult :=
  if block then do
    let (c, ind) ← done
    return ⟨c, [.standard frame], .ok ind⟩
  else return ⟨c, [], .error .outOfMemory⟩

/-- The effect of an action. -/
def act (p : Profile) (c : Connection) (f : SizedFrame) (block : Bool) : Action → Panicking StepResult
  | .a1 => return ⟨opened c f.srcAddr, [], .ok (some (.connect f.frame))⟩
  | .a2 => sending block c (response f.srcAddr c.seqNoRecv 0xc2) do
    let seqNoRecv ← u8Add p c.seqNoRecv 1
    return ({ c with connectionTimeout := armed, seqNoRecv }, some (.dataConnected f.frame))
  | .a3 => sending block c (response f.srcAddr f.tpciSeq 0xc2)
    (.ok ({ c with connectionTimeout := armed }, none))
  | .a5 => return ⟨{ c with state := .closed, connectionTimeout := none }, [],
      .ok (some (.disconnect f.frame))⟩
  | .a6 => sending block { c with state := .closed } (response f.srcAddr 0 0x81)
    (.ok ({ c with state := .closed, connectionTimeout := none }, some (.disconnect f.frame)))
  | .a10 => sending block c (response f.srcAddr 0 0x81) (.ok (c, none))
  | .ignore => return ⟨c, [], .ok none⟩

/-- What a step that sends a frame leaves behind. -/
theorem sending_ok {block : Bool} {c : Connection} {frame : StandardFrame}
    {done : Panicking (Connection × Option TransportServiceInd)} {r : StepResult}
    (h : sending block c frame done = .ok r) :
    (block = true ∧ ∃ c' ind, done = .ok (c', ind) ∧ r = ⟨c', [.standard frame], .ok ind⟩) ∨
      (block = false ∧ r = ⟨c, [], .error .outOfMemory⟩) := by
  cases block with
  | true =>
    rcases done with why | ⟨c', ind⟩
    · exact nomatch h
    · exact .inl ⟨rfl, c', ind, rfl, (Except.ok.inj h).symm⟩
  | false => exact .inr ⟨rfl, (Except.ok.inj h).symm⟩

/-- The station after a step. -/
def Station.after (w : Station) (r : StepResult) : Station :=
  { w with connection := r.connection, queued := w.queued ++ r.sent }

/-- The outcome of a step as the outcome of a run. -/
def Station.outcome (w : Station) : Panicking StepResult → Outcome Station IndResult → Prop
  | .error why, o => ∃ w', o = .panicked why w'
  | .ok r, o => o = .returned r.result (w.after r)

/-- An action that sends a frame and continues with `k`. -/
theorem exec_sending (p : Profile) (dst : IndividualAddress) (seq tpci : UInt8) {k : Task IndResult}
    {done : Panicking (Connection × Option TransportServiceInd)} (w : Station)
    (hk : ∀ w' : Station, w'.connection = w.connection →
      match done with
      | .error why => ∃ w'', exec app k w' = .panicked why w''
      | .ok (c, ind) => exec app k w' = .returned (.ok ind) { w' with connection := c }) :
    w.outcome (sending w.block w.connection (response dst seq tpci) done)
      (exec app (tryThen (sendResponseFrame p dst seq tpci) k) w) := by
  obtain ⟨connection, borrowed, block, stimuli, queued⟩ := w
  simp only [tryThen, exec_bind, exec_sendResponseFrame]
  cases block with
  | true =>
    have hk := hk ⟨connection, borrowed, true, stimuli,
      queued ++ [.standard (response dst seq tpci)]⟩ rfl
    cases done with
    | error why => exact hk
    | ok r => exact hk
  | false =>
    show Outcome.returned _ _ = Outcome.returned _ _
    rw [Station.after, List.append_nil]

theorem exec_runAction (p : Profile) (f : SizedFrame) (a : Action) (w : Station) :
    w.outcome (act p w.connection f w.block a) (exec app (runAction p f.frame a) w) := by
  cases a with
  | a1 =>
    simp only [runAction, newConnectionA1, exec_bind, exec_setState, Outcome.andThen_returned,
      f.srcAddr_frame, exec_lift_ok, exec_modifyConnection]
    show Outcome.returned _ _ = Outcome.returned _ _
    rw [Station.after, List.append_nil]
    rfl
  | a2 =>
    simp only [runAction, ackDataA2, exec_bind, f.srcAddr_frame, exec_lift_ok,
      Outcome.andThen_returned, exec_getConnection]
    refine exec_sending p _ _ _ w ?_
    intro w' hw'
    simp only [exec_bind, exec_modifyConnection, Outcome.andThen_returned, exec_getConnection, hw']
    rcases u8Add p w.connection.seqNoRecv 1 with why | seqNoRecv
    · exact ⟨_, rfl⟩
    · rfl
  | a3 =>
    simp only [runAction, ackA3, exec_bind, f.srcAddr_frame, f.tpciSeq_frame, exec_lift_ok,
      Outcome.andThen_returned]
    refine exec_sending p _ _ _ w ?_
    intro w' hw'
    simp only [exec_bind, exec_modifyConnection, Outcome.andThen_returned, hw']
    rfl
  | a5 =>
    show Outcome.returned _ _ = Outcome.returned _ _
    rw [Station.after, List.append_nil]
  | a6 =>
    simp only [runAction, disconnectA6, exec_bind, exec_setState, f.srcAddr_frame, exec_lift_ok,
      Outcome.andThen_returned]
    refine exec_sending p _ _ _ { w with connection := { w.connection with state := .closed } }
      ?_
    intro w' hw'
    simp only [exec_bind, exec_modifyConnection, Outcome.andThen_returned, hw']
    rfl
  | a10 =>
    simp only [runAction, rejectA10, exec_bind, f.srcAddr_frame, exec_lift_ok,
      Outcome.andThen_returned]
    refine exec_sending p _ _ _ w ?_
    intro w' hw'
    rw [← hw']
    rfl
  | ignore =>
    show Outcome.returned _ _ = Outcome.returned _ _
    rw [Station.after, List.append_nil]

/-! ## Events -/

/-- The event of a frame that is not from the peer. -/
def foreignEvent : ConnectionService → Events
  | .connect => .connectReqNewAddressE01
  | .disconnect => .disconnectReqNewAddressE03
  | .dataConnected => .dataConnectedNewAddressE07
  | .ack => .ackNewAddressE10
  | .nak => .nakNewAddressE14

/-- The event of a T_Data_Connected of the peer with sequence number `seq`. -/
def dataEvent (p : Profile) (seqNoRecv seq : UInt8) : Panicking Events := do
  if seq = seqNoRecv then return .dataConnectedE04
  else if seq = (← u8Sub p seqNoRecv 1) then return .dataConnectedE05
  else return .dataConnectedE06

/-- The event of a frame from the peer. -/
def peerEvent (p : Profile) (c : Connection) (seq : UInt8) : ConnectionService → Panicking Events
  | .connect => .ok .connectReqSameAddressE00
  | .disconnect => .ok .disconnectReqSameAddressE02
  | .dataConnected => dataEvent p c.seqNoRecv seq
  | .ack => .ok (if seq = c.seqNoSend then .ackE08 else .ackE09)
  | .nak => .ok (if seq = c.seqNoSend then
      if c.repCount < maxRepCount then .nakE12 else .nakE13
    else .nakE11)

/-- The event of the service `s` of the frame `f`. -/
def eventFor (p : Profile) (c : Connection) (s : ConnectionService) (f : SizedFrame) :
    Panicking Events :=
  if c.srcAddr = some f.srcAddr then peerEvent p c f.tpciSeq s else .ok (foreignEvent s)

/-- The action of the service `s` of the frame `f`. -/
def stepAction (p : Profile) (c : Connection) (s : ConnectionService) (f : SizedFrame) :
    Panicking Action := do
  let event ← eventFor p c s f
  return actionOf (c.state = .closed) event

/-- One connection step on the service `s` of the frame `f`. -/
def connStep (p : Profile) (c : Connection) (s : ConnectionService) (f : SizedFrame) (block : Bool) :
    Panicking StepResult := do
  let a ← stepAction p c s f
  act p c f block a

section Events

variable (p : Profile) (c : Connection) (s : ConnectionService) (f : SizedFrame)

theorem fromPeer_eq : c.fromPeer f.frame = .ok (decide (c.srcAddr = some f.srcAddr)) := by
  unfold fromPeer
  cases c.srcAddr with
  | none => rfl
  | some addr =>
    simp only [f.srcAddr_frame, ok_bind, Option.some.injEq]
    rfl

theorem dataConnectedEvent_eq :
    c.dataConnectedEvent p f.frame = dataEvent p c.seqNoRecv f.tpciSeq := by
  rw [dataConnectedEvent, f.tpciSeq_frame]
  rfl

theorem ackEvent_eq : c.ackEvent f.frame = peerEvent p c f.tpciSeq .ack := by
  rw [ackEvent, f.tpciSeq_frame]
  show (if f.tpciSeq = c.seqNoSend then _ else _) = Except.ok (if f.tpciSeq = c.seqNoSend then _ else _)
  split_ifs <;> rfl

theorem nakEvent_eq : c.nakEvent f.frame = peerEvent p c f.tpciSeq .nak := by
  rw [nakEvent, f.tpciSeq_frame]
  show (if f.tpciSeq = c.seqNoSend then _ else _) = Except.ok (if f.tpciSeq = c.seqNoSend then _ else _)
  split_ifs <;> rfl

theorem eventOf_eq :
    c.eventOf p (s.ind f.frame) = (fun event => (event, f.frame)) <$> eventFor p c s f := by
  unfold eventFor
  by_cases hpeer : c.srcAddr = some f.srcAddr
  · have hfrom : c.fromPeer f.frame = .ok true := by rw [fromPeer_eq, decide_eq_true hpeer]
    rw [if_pos hpeer]
    cases s with
    | connect => rw [ConnectionService.ind, eventOf, hfrom]; rfl
    | disconnect => rw [ConnectionService.ind, eventOf, hfrom]; rfl
    | dataConnected => rw [ConnectionService.ind, eventOf, hfrom, dataConnectedEvent_eq]; rfl
    | ack => rw [ConnectionService.ind, eventOf, hfrom, ackEvent_eq p]; rfl
    | nak => rw [ConnectionService.ind, eventOf, hfrom, nakEvent_eq p]; rfl
  · have hfrom : c.fromPeer f.frame = .ok false := by rw [fromPeer_eq, decide_eq_false hpeer]
    rw [if_neg hpeer]
    cases s with
    | connect => rw [ConnectionService.ind, eventOf, hfrom]; rfl
    | disconnect => rw [ConnectionService.ind, eventOf, hfrom]; rfl
    | dataConnected => rw [ConnectionService.ind, eventOf, hfrom]; rfl
    | ack => rw [ConnectionService.ind, eventOf, hfrom]; rfl
    | nak => rw [ConnectionService.ind, eventOf, hfrom]; rfl

end Events

/-- `handle_ind` in the environment is `connStep`. -/
theorem exec_handleInd (p : Profile) (s : ConnectionService) (f : SizedFrame) (w : Station) :
    w.outcome (connStep p w.connection s f w.block) (exec app (handleInd p (s.ind f.frame)) w) := by
  rw [handleInd, exec_bind, exec_getConnection, Outcome.andThen_returned, exec_bind, eventOf_eq,
    connStep, stepAction]
  rcases eventFor p w.connection s f with why | event
  · exact ⟨w, rfl⟩
  · show w.outcome (act p w.connection f w.block _) (exec app (handleEvent p event f.frame) w)
    rw [handleEvent_eq, exec_bind, exec_getConnection, Outcome.andThen_returned]
    exact exec_runAction p f _ w

theorem Station.after_injective {w : Station} {r r' : StepResult} (hresult : r.result = r'.result)
    (h : w.after r = w.after r') : r = r' := by
  obtain ⟨c, sent, result⟩ := r
  obtain ⟨c', sent', result'⟩ := r'
  obtain rfl : result = result' := hresult
  obtain rfl : c = c' := congrArg Station.connection h
  obtain rfl : sent = sent' := List.append_cancel_left (congrArg Station.queued h)
  rfl

/-- `handle_ind` returns what `connStep` says, and nothing else. -/
theorem connStep_eq_ok_iff (p : Profile) (s : ConnectionService) (f : SizedFrame) (w : Station)
    (r : StepResult) : connStep p w.connection s f w.block = .ok r ↔
      exec app (handleInd p (s.ind f.frame)) w = .returned r.result (w.after r) := by
  have houtcome := exec_handleInd p s f w
  rcases hstep : connStep p w.connection s f w.block with why | r'
  · rw [hstep] at houtcome
    obtain ⟨w', hrun⟩ := houtcome
    rw [hrun]
    exact iff_of_false nofun nofun
  · rw [hstep] at houtcome
    rw [show exec app _ w = _ from houtcome]
    constructor
    · intro h
      cases h
      rfl
    · intro h
      injection h with hresult hafter
      rw [Station.after_injective hresult hafter]

theorem connStep_ok {p : Profile} {c : Connection} {s : ConnectionService} {f : SizedFrame}
    {block : Bool} {r : StepResult} (h : connStep p c s f block = .ok r) :
    ∃ a, stepAction p c s f = .ok a ∧ act p c f block a = .ok r :=
  (bind_eq_ok_iff _).mp h

/-! ## The action of an indication -/

/-- The frame is the datum that an open connection waits for. -/
def InSequence (c : Connection) (s : ConnectionService) (f : SizedFrame) : Prop :=
  c.state ≠ .closed ∧ c.srcAddr = some f.srcAddr ∧ s = .dataConnected ∧ f.tpciSeq = c.seqNoRecv

/-- The frame is a T_Connect of the peer of an open connection. -/
def Reconnects (c : Connection) (s : ConnectionService) (f : SizedFrame) : Prop :=
  c.state ≠ .closed ∧ c.srcAddr = some f.srcAddr ∧ s = .connect

section StepAction

variable (p : Profile) {c : Connection} {f : SizedFrame}

/-- A closed connection is opened by everybody. -/
theorem stepAction_closed_connect (hclosed : c.state = .closed) :
    stepAction p c .connect f = .ok .a1 := by
  unfold stepAction eventFor
  rw [decide_eq_true hclosed]
  split_ifs <;> rfl

/-- An open connection rejects the T_Connect of a third party and ignores its other frames. -/
theorem stepAction_foreign (hopen : c.state ≠ .closed) (hpeer : c.srcAddr ≠ some f.srcAddr)
    (s : ConnectionService) :
    stepAction p c s f = .ok (if s = .connect then .a10 else .ignore) := by
  unfold stepAction eventFor
  rw [if_neg hpeer, decide_eq_false hopen]
  cases s <;> rfl

theorem Reconnects.stepAction_eq {s : ConnectionService} (h : Reconnects c s f) :
    stepAction p c s f = .ok .a6 := by
  obtain ⟨hopen, hpeer, rfl⟩ := h
  unfold stepAction eventFor
  rw [if_pos hpeer, decide_eq_false hopen]
  rfl

theorem InSequence.stepAction_eq {s : ConnectionService} (h : InSequence c s f) :
    stepAction p c s f = .ok .a2 := by
  obtain ⟨hopen, hpeer, rfl, hseq⟩ := h
  unfold stepAction eventFor peerEvent dataEvent
  rw [if_pos hpeer, if_pos hseq, decide_eq_false hopen]
  rfl

/-- A datum out of sequence is acknowledged again or ignored. -/
theorem stepAction_outOfSequence (hopen : c.state ≠ .closed) (hpeer : c.srcAddr = some f.srcAddr)
    (hseq : f.tpciSeq ≠ c.seqNoRecv) :
    stepAction p c .dataConnected f =
      u8Sub p c.seqNoRecv 1 >>= fun before => .ok (if f.tpciSeq = before then .a3 else .ignore) := by
  unfold stepAction eventFor peerEvent dataEvent
  rw [if_pos hpeer, if_neg hseq, decide_eq_false hopen]
  rcases u8Sub p c.seqNoRecv 1 with why | before
  · rfl
  · simp only [ok_bind]
    split_ifs <;> rfl

end StepAction

/-- What an event says about the connection and the frame it was computed from. -/
def EventCondition (c : Connection) (s : ConnectionService) (f : SizedFrame) : Events → Prop
  | .connectReqSameAddressE00 => c.srcAddr = some f.srcAddr ∧ s = .connect
  | .connectReqNewAddressE01 => s = .connect
  | .disconnectReqSameAddressE02 => c.srcAddr = some f.srcAddr ∧ s = .disconnect
  | .dataConnectedE04 => c.srcAddr = some f.srcAddr ∧ s = .dataConnected ∧ f.tpciSeq = c.seqNoRecv
  | .dataConnectedE05 => c.srcAddr = some f.srcAddr ∧ s = .dataConnected
  | _ => True

/-- What an action says about the connection and the frame that led to it. -/
def ActionCondition (c : Connection) (s : ConnectionService) (f : SizedFrame) : Action → Prop
  | .a1 => c.state = .closed ∧ s = .connect
  | .a2 => InSequence c s f
  | .a3 => c.state ≠ .closed ∧ c.srcAddr = some f.srcAddr ∧ s = .dataConnected
  | .a5 => c.state ≠ .closed ∧ c.srcAddr = some f.srcAddr ∧ s = .disconnect
  | .a6 => Reconnects c s f
  | .a10 => True
  | .ignore => True

section Condition

variable {p : Profile} {c : Connection} {s : ConnectionService} {f : SizedFrame}

theorem eventFor_condition {event : Events} (h : eventFor p c s f = .ok event) :
    EventCondition c s f event := by
  unfold eventFor at h
  split_ifs at h with hpeer
  · cases s with
    | connect => cases h; exact ⟨hpeer, rfl⟩
    | disconnect => cases h; exact ⟨hpeer, rfl⟩
    | dataConnected =>
      simp only [peerEvent, dataEvent] at h
      split_ifs at h with hseq
      · cases h
        exact ⟨hpeer, rfl, hseq⟩
      · obtain ⟨before, -, h⟩ := (bind_eq_ok_iff _).mp h
        split_ifs at h
        · cases h
          exact ⟨hpeer, rfl⟩
        · cases h
          trivial
    | ack =>
      simp only [peerEvent] at h
      split_ifs at h <;> cases h <;> trivial
    | nak =>
      simp only [peerEvent] at h
      split_ifs at h <;> cases h <;> trivial
  · cases s <;> cases h <;> trivial

theorem stepAction_condition {a : Action} (h : stepAction p c s f = .ok a) :
    ActionCondition c s f a := by
  obtain ⟨event, hevent, h⟩ := (bind_eq_ok_iff _).mp h
  have hcondition := eventFor_condition hevent
  cases h
  by_cases hclosed : c.state = .closed
  · rw [decide_eq_true hclosed]
    cases event with
    | connectReqSameAddressE00 => exact ⟨hclosed, hcondition.2⟩
    | connectReqNewAddressE01 => exact ⟨hclosed, hcondition⟩
    | _ => trivial
  · rw [decide_eq_false hclosed]
    cases event with
    | connectReqSameAddressE00 => exact ⟨hclosed, hcondition⟩
    | disconnectReqSameAddressE02 => exact ⟨hclosed, hcondition⟩
    | dataConnectedE04 => exact ⟨hclosed, hcondition⟩
    | dataConnectedE05 => exact ⟨hclosed, hcondition⟩
    | _ => trivial

end Condition

/-- The indication a result delivers to the upper layer. -/
def delivered : IndResult → List TransportServiceInd
  | .ok (some ind) => [ind]
  | _ => []

/-- The frame is addressed to `a`. -/
def SentTo (a : IndividualAddress) (f : Frame) : Bool :=
  match f.dstAddr with
  | .ok (.individual dst) => dst = a
  | _ => false

/-! ## The connection as a machine -/

/-- An indication for the connection, with the outcome of the one allocation its step may
    need. -/
structure Indication where
  service : ConnectionService
  frame : SizedFrame
  block : Bool
  deriving DecidableEq

/-- What a step shows: the frames it queues and its result. -/
structure Output where
  sent : List Frame
  result : IndResult
  deriving DecidableEq

/-- `handle_ind` as a machine. -/
def connectionMachine (p : Profile) : Machine Connection Indication Output Panic where
  step c i := (connStep p c i.service i.frame i.block).map fun r =>
    (r.connection, ⟨r.sent, r.result⟩)

theorem step_eq_ok_iff {p : Profile} {c c' : Connection} {i : Indication} {o : Output} :
    (connectionMachine p).step c i = .ok (c', o) ↔
      connStep p c i.service i.frame i.block = .ok ⟨c', o.sent, o.result⟩ := by
  show Except.map _ _ = _ ↔ _
  rcases connStep p c i.service i.frame i.block with why | ⟨c₁, sent, result⟩
  · exact iff_of_false nofun nofun
  · constructor
    · intro h
      cases h
      rfl
    · intro h
      cases h
      rfl

/-! ## Frames of a client -/

/-- A T_Connect from 1.1.1 to the device. -/
def connectRequest : SizedFrame where
  frame := .standard ⟨⟨[0xB0, 0x11, 0x01, 0x11, 0x78, 0x60, 0x80, 0xD6], by decide⟩⟩
  sized := by decide

/-- A T_Data_Connected from 1.1.1 to the device, with `seq` in its 4-bit sequence field. -/
def datumFrame (seq : UInt8) : SizedFrame where
  frame := .standard ⟨⟨[0xB0, 0x11, 0x01, 0x11, 0x78, 0x61, (0x40 : UInt8) ||| (seq <<< 2), 0x00,
    (0x17 : UInt8) ^^^ (seq <<< 2)], by simp [maxBlockSize]⟩⟩
  sized := Nat.le_succ 8

end EmbassyKnx.App
