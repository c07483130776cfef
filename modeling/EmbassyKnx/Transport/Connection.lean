import EmbassyKnx.Transport.Services

/-!
# `Connection`

The connection state machine of `src/transport_layer.rs` (lines 170–482). The
`&mut self` of its methods is the connection in the environment, so that every
assignment takes effect where it stands between the awaits.

The events from `DataConnected_E15` on, which nothing constructs, are left out. Nothing
calls `nak_A4`, `send_data_A7`, `confirm_data_A8` and `repeat_data_A9` yet.
-/

namespace EmbassyKnx

open Rust FrameLayout FrameReader

/-- `Events` (line 172). -/
inductive Events
  | connectReqSameAddressE00
  | connectReqNewAddressE01
  | disconnectReqSameAddressE02
  | disconnectReqNewAddressE03
  | dataConnectedE04
  | dataConnectedE05
  | dataConnectedE06
  | dataConnectedNewAddressE07
  | ackE08
  | ackE09
  | ackNewAddressE10
  | nakE11
  | nakE12
  | nakE13
  | nakNewAddressE14
  deriving DecidableEq, Repr

namespace Connection

/-- `MAX_REP_COUNT`. -/
def maxRepCount : UInt8 := 3

/-- `CONNECTION_TIMEOUT_SEC`. -/
def connectionTimeoutSec : ℕ := 6

/-- `Connection::new` (line 223). -/
def new : Connection where
  state := .closed
  seqNoSend := 0
  seqNoRecv := 0
  repCount := 0
  srcAddr := none
  connectionTimeout := none
  storedFrame := none

/-- `Some(Ticker::every(Duration::from_secs(Self::CONNECTION_TIMEOUT_SEC)))`. -/
def armed : Option Ticker := some ⟨connectionTimeoutSec⟩

/-- The `DataConnected` arm of `handle_ind`, for a frame of the peer (lines 255–259). -/
def dataConnectedEvent (p : Profile) (self : Connection) (frame : Frame) : Panicking Events := do
  let val ← frame.tpciSeq
  if val = self.seqNoRecv then return .dataConnectedE04
  else if val = (← u8Sub p self.seqNoRecv 1) then return .dataConnectedE05
  else return .dataConnectedE06

/-- The `ACK` arm of `handle_ind`, for a frame of the peer (lines 263–267). -/
def ackEvent (self : Connection) (frame : Frame) : Panicking Events := do
  if (← frame.tpciSeq) = self.seqNoSend then return .ackE08 else return .ackE09

/-- The `NAK` arm of `handle_ind`, for a frame of the peer (lines 273–281). -/
def nakEvent (self : Connection) (frame : Frame) : Panicking Events := do
  if (← frame.tpciSeq) = self.seqNoSend then
    if self.repCount < maxRepCount then return .nakE12 else return .nakE13
  else return .nakE11

/-- `match &self.src_addr { Some(addr) if addr == &frame.src_addr() => .., _ => .. }`. -/
def fromPeer (self : Connection) (frame : Frame) : Panicking Bool :=
  match self.srcAddr with
  | none => return false
  | some addr => return addr = (← frame.srcAddr)

/-- The event of an indication (lines 240–289). -/
def eventOf (p : Profile) (self : Connection) (ind : TransportServiceInd) :
    Panicking (Events × Frame) :=
  match ind with
  | .connect frame => do
    if ← self.fromPeer frame then return (.connectReqSameAddressE00, frame)
    else return (.connectReqNewAddressE01, frame)
  | .disconnect frame => do
    if ← self.fromPeer frame then return (.disconnectReqSameAddressE02, frame)
    else return (.disconnectReqNewAddressE03, frame)
  | .dataConnected frame => do
    if ← self.fromPeer frame then return (← self.dataConnectedEvent p frame, frame)
    else return (.dataConnectedNewAddressE07, frame)
  | .ack frame => do
    if ← self.fromPeer frame then return (← self.ackEvent frame, frame)
    else return (.ackNewAddressE10, frame)
  | .nak frame => do
    if ← self.fromPeer frame then return (← self.nakEvent frame, frame)
    else return (.nakNewAddressE14, frame)
  | _ => .error .explicit

end Connection

namespace App

open Async Connection

/-- The result of a connection step. -/
abbrev IndResult : Type := FrameResult (Option TransportServiceInd)

/-- `self.field = value`. -/
def modifyConnection (f : Connection → Connection) : Task Unit := do
  let self ← getConnection
  setConnection (f self)

/-- The frame of `send_response_frame` (lines 335–341). -/
def responseFrame (p : Profile) (block : Bool) (dstAddr : IndividualAddress) (seq tpci : UInt8) :
    Panicking (FrameResult StandardFrame) := do
  let frame : FrameResult StandardFrame ←
    FrameWriter.new p block (minFrameSize StandardFrame)
  match frame with
  | .error e => return .error e
  | .ok frame =>
    let frame ← FrameWriter.setPriority frame .system
    let frame ← FrameWriter.setDstAddr frame (.individual dstAddr)
    let frame ← FrameWriter.setSrcAddr frame ownAddress
    let frame ← FrameWriter.setHopCount frame 7
    let frame ← FrameWriter.setTpci frame .eight tpci
    let frame ← FrameWriter.setTpciSeq frame seq
    return .ok frame

/-- `send_response_frame` (line 328). -/
def sendResponseFrame (p : Profile) (dstAddr : IndividualAddress) (seq tpci : UInt8) :
    Task (FrameResult Unit) := do
  let block ← alloc
  match ← responseFrame p block dstAddr seq tpci with
  | .error e => return .error e
  | .ok frame =>
    networkSend (.dataIndividual (.standard frame))
    return .ok ()

/-- `new_connection_A1` (line 348). -/
def newConnectionA1 (frame : Frame) : Task IndResult := do
  let srcAddr ← frame.srcAddr
  modifyConnection fun self => { self with
    seqNoRecv := 0, seqNoSend := 0, srcAddr := some srcAddr, connectionTimeout := armed }
  return .ok (some (.connect frame))

/-- `ack_data_A2` (line 362). -/
def ackDataA2 (p : Profile) (frame : Frame) : Task IndResult := do
  let srcAddr ← frame.srcAddr
  let self ← getConnection
  tryThen (sendResponseFrame p srcAddr self.seqNoRecv 0xc2) do
    modifyConnection fun self => { self with connectionTimeout := armed }
    let self ← getConnection
    let seqNoRecv ← u8Add p self.seqNoRecv 1
    modifyConnection fun self => { self with seqNoRecv }
    return .ok (some (.dataConnected frame))

/-- `ack_A3` (line 377). -/
def ackA3 (p : Profile) (frame : Frame) : Task IndResult := do
  let srcAddr ← frame.srcAddr
  let seq ← frame.tpciSeq
  tryThen (sendResponseFrame p srcAddr seq 0xc2) do
    modifyConnection fun self => { self with connectionTimeout := armed }
    return .ok none

/-- `nak_A4` (line 391). -/
def nakA4 (p : Profile) (frame : Frame) : Task IndResult := do
  let srcAddr ← frame.srcAddr
  let seq ← frame.tpciSeq
  tryThen (sendResponseFrame p srcAddr seq 0xc3) do
    modifyConnection fun self => { self with connectionTimeout := none }
    return .ok none

/-- `notify_disconect_A5` (line 402). -/
def notifyDisconectA5 (frame : Frame) : Task IndResult := do
  modifyConnection fun self => { self with connectionTimeout := none }
  return .ok (some (.disconnect frame))

/-- `disconnect_A6` (line 411). -/
def disconnectA6 (p : Profile) (frame : Frame) : Task IndResult := do
  let srcAddr ← frame.srcAddr
  tryThen (sendResponseFrame p srcAddr 0 0x81) do
    modifyConnection fun self => { self with connectionTimeout := none }
    return .ok (some (.disconnect frame))

/-- The frame of `send_data_A7` (lines 428–432), for the connection `self`. -/
def stampData (self : Connection) (frame : Frame) : Panicking Frame := do
  match self.srcAddr with
  | none => .error .explicit
  | some addr =>
    let frame ← frame.setDstAddr (.individual addr)
    let frame ← frame.setSrcAddr ownAddress
    let frame ← frame.setHopCount 7
    let frame ← frame.setTpci .six 0x10
    frame.setTpciSeq self.seqNoSend

/-- `send_data_A7` (line 423). -/
def sendDataA7 (p : Profile) (frame : Frame) : Task (FrameResult Unit) := do
  let self ← getConnection
  let frame ← stampData self frame
  let block ← alloc
  match ← Frame.tryFrom p block frame with
  | .error e => return .error e
  | .ok stored =>
    modifyConnection fun self => { self with storedFrame := some stored }
    networkSend (.dataIndividual frame)
    modifyConnection fun self => { self with repCount := 0 }
    modifyConnection fun self => { self with connectionTimeout := armed }
    return .ok ()

/-- `confirm_data_A8` (line 443), which ignores its frame. -/
def confirmDataA8 (p : Profile) (_frame : Frame) : Task (FrameResult Unit) := do
  let self ← getConnection
  let seqNoSend ← u8Add p self.seqNoSend 1
  modifyConnection fun self => { self with seqNoSend }
  modifyConnection fun self => { self with connectionTimeout := armed }
  return .ok ()

/-- `repeat_data_A9` (line 453). -/
def repeatDataA9 (p : Profile) : Task (FrameResult Unit) := do
  let self ← getConnection
  match self.storedFrame with
  | none => .panicked .explicit
  | some stored =>
    let block ← alloc
    match ← Frame.tryFrom p block stored with
    | .error e => return .error e
    | .ok storedFrame =>
      networkSend (.dataIndividual storedFrame)
      let self ← getConnection
      let repCount ← u8Add p self.repCount 1
      modifyConnection fun self => { self with repCount }
      modifyConnection fun self => { self with connectionTimeout := armed }
      return .ok ()

/-- `reject_A10` (line 466). -/
def rejectA10 (p : Profile) (frame : Frame) : Task IndResult := do
  let srcAddr ← frame.srcAddr
  tryThen (sendResponseFrame p srcAddr 0 0x81) (return .ok none)

/-- `self.state = state`. -/
def setState (state : States) : Task Unit := modifyConnection fun self => { self with state }

/-- `handle_event` (line 293). -/
def handleEvent (p : Profile) (event : Events) (frame : Frame) : Task IndResult := do
  let self ← getConnection
  match event, self.state with
  | .connectReqSameAddressE00, .closed =>
    setState .openIdle
    newConnectionA1 frame
  | .connectReqSameAddressE00, _ =>
    setState .closed
    disconnectA6 p frame
  | .connectReqNewAddressE01, .closed =>
    setState .openIdle
    newConnectionA1 frame
  | .connectReqNewAddressE01, _ => rejectA10 p frame
  | .disconnectReqSameAddressE02, .closed => return .ok none
  | .disconnectReqSameAddressE02, _ =>
    setState .closed
    notifyDisconectA5 frame
  | .disconnectReqNewAddressE03, _ => return .ok none
  | .dataConnectedE04, .closed => rejectA10 p frame
  | .dataConnectedE04, _ => ackDataA2 p frame
  | .dataConnectedE05, .closed => rejectA10 p frame
  | .dataConnectedE05, _ => ackA3 p frame
  | _, _ => return .ok none

/-- `handle_ind` (line 235). -/
def handleInd (p : Profile) (ind : TransportServiceInd) : Task IndResult := do
  let self ← getConnection
  let (event, frame) ← self.eventOf p ind
  handleEvent p event frame

/-- `connection_timeout` (line 479). -/
def connectionTimeout : Task IndResult := return .ok none

end App

end EmbassyKnx
