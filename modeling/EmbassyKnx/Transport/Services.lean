import EmbassyKnx.Common.Async
import EmbassyKnx.Driver.Model

/-!
# Data link and network layer

Models of `src/data_link_layer.rs` and `src/network_layer.rs`, and the service
primitives of `src/transport_layer.rs`. The layers run in the application task;
its queues, the frame pool, the confirmation signal and the `RefCell` around the
connection are operations of the task's environment.

The arms `_ => {}` of `NetworkLayer::receive` match nothing the data link layer
produces, so `receive` returns at its first frame.
-/

namespace EmbassyKnx

open Rust

/-- `NetworkServiceReq` (line 8). -/
inductive NetworkServiceReq
  | dataGroup (frame : Frame)
  | dataIndividual (frame : Frame)
  deriving DecidableEq

/-- `NetworkServiceInd` (line 14). -/
inductive NetworkServiceInd
  | dataIndividual (frame : Frame)
  | dataGroup (frame : Frame)
  | dataBroadcast (frame : Frame)
  | dataSystemBroadcast (frame : Frame)
  deriving DecidableEq

/-- `TransportServiceInd` (`transport_layer.rs` line 19). -/
inductive TransportServiceInd
  | dataBroadcast (frame : Frame)
  | dataSystemBroadcast (frame : Frame)
  | dataGroup (frame : Frame)
  | dataTagGroup (frame : Frame)
  | dataIndividual (frame : Frame)
  | dataConnected (frame : Frame)
  | connect (frame : Frame)
  | disconnect (frame : Frame)
  | ack (frame : Frame)
  | nak (frame : Frame)
  deriving DecidableEq

/-- `DataGroupReq` (`transport_layer.rs` line 32). -/
structure DataGroupReq where
  tsap : UInt8
  frame : Frame
  deriving DecidableEq

/-- `info_frame` (`transport_layer.rs` line 44). -/
def DataGroupReq.infoFrame (self : DataGroupReq) (dstAddress : GroupAddress) : Panicking Frame := do
  let frame ← self.frame.setDstAddr (.group dstAddress)
  let frame ← frame.setSrcAddr ownAddress
  frame.setTpci .six 0x0

/-- `TransportServiceReq` (`transport_layer.rs` line 56). -/
inductive TransportServiceReq
  | dataGroupReq (req : DataGroupReq)
  deriving DecidableEq

/-- `States` (`transport_layer.rs` line 203). -/
inductive States
  | closed
  | openIdle
  | openWait
  | connecting
  deriving DecidableEq, Repr

/-- `Ticker::every(Duration::from_secs(secs))`. -/
structure Ticker where
  secs : ℕ
  deriving DecidableEq, Repr

/-- `Connection` (`transport_layer.rs` line 210). -/
@[ext] structure Connection where
  state : States
  seqNoSend : UInt8
  seqNoRecv : UInt8
  repCount : UInt8
  srcAddr : Option IndividualAddress
  connectionTimeout : Option Ticker
  storedFrame : Option Frame
  deriving DecidableEq

/-- What the application task asks of its environment. -/
inductive AppOp
  /-- `FRAME_POOL.alloc(Vec::new())`: is a block free? -/
  | alloc
  /-- `RefCell::borrow_mut` on the connection: is there no other borrow? -/
  | borrowMut
  /-- A `RefMut` of the connection is dropped. -/
  | releaseMut
  /-- Read the connection through a `RefMut`. -/
  | getConnection
  /-- Write the connection through a `RefMut`. -/
  | setConnection (c : Connection)
  /-- `CON_SIGNAL.reset()`. -/
  | conSignalReset
  /-- `FRAME_CHANNEL_RX.send(frame)`. -/
  | frameChannelRxSend (frame : Frame)
  /-- `CON_SIGNAL.wait()`. -/
  | conSignalWait
  /-- `select(FRAME_CHANNEL_TX.receive(), ..)` against the connection's ticker, or, where
      `timer` is false, against `pending()`. -/
  | selectFrameOrTick (timer : Bool)
  deriving DecidableEq

/-- The application task's operations and their results; a lost `select` branch
    returns `Sum.inr`. -/
abbrev appSig : Signature where
  Op := AppOp
  Ret
    | .alloc => Bool
    | .borrowMut => Bool
    | .releaseMut => Unit
    | .getConnection => Connection
    | .setConnection _ => Unit
    | .conSignalReset => Unit
    | .frameChannelRxSend _ => Unit
    | .conSignalWait => ConStatus
    | .selectFrameOrTick _ => Frame ⊕ Unit

namespace App

open Async

/-- Computations of the application task. -/
abbrev Task (α : Type) : Type := Async appSig α

/-! ## The operations -/

def alloc : Task Bool := .perform .alloc .done

def getConnection : Task Connection := .perform .getConnection .done

def setConnection (c : Connection) : Task Unit := .perform (.setConnection c) .done

def releaseMut : Task Unit := .perform .releaseMut .done

def conSignalReset : Task Unit := .perform .conSignalReset .done

def frameChannelRxSend (frame : Frame) : Task Unit := .perform (.frameChannelRxSend frame) .done

def conSignalWait : Task ConStatus := .perform .conSignalWait .done

def selectFrameOrTick (timer : Bool) : Task (Frame ⊕ Unit) :=
  .perform (.selectFrameOrTick timer) .done

def tryBorrowMut : Task Bool := .perform .borrowMut .done

/-- `borrow_mut()`: panics while another borrow is alive. -/
def borrowMut : Task Unit := do
  if ← tryBorrowMut then return () else .panicked .alreadyBorrowed

/-- Evaluate `body` while a temporary `RefMut` of the connection is alive. -/
def withBorrow {α : Type} (body : Task α) : Task α := do
  borrowMut
  let a ← body
  releaseMut
  return a

/-! ## `DataLinkLayer` and `NetworkLayer` -/

/-- `DataLinkLayer::send` (`data_link_layer.rs` line 32). -/
def dataLinkSend (frame : Frame) : Task Unit := do
  conSignalReset
  frameChannelRxSend frame
  let _con ← conSignalWait
  return ()

/-- `NetworkLayer::send` (`network_layer.rs` line 51). -/
def networkSend (req : NetworkServiceReq) : Task Unit :=
  match req with
  | .dataGroup frame => dataLinkSend frame
  | .dataIndividual frame => dataLinkSend frame

/-- `TransportLayer::send` (`transport_layer.rs` line 68). -/
def transportSend (req : TransportServiceReq) : Task Unit :=
  match req with
  | .dataGroupReq req => do
    let dstAddress := GroupAddress.fromParts 1 1 98
    let frame ← req.infoFrame dstAddress
    networkSend (.dataGroup frame)

/-- What `NetworkLayer::receive` (`network_layer.rs` line 29) makes of a frame. -/
def networkInd (frame : Frame) : Panicking NetworkServiceInd := do
  match ← frame.dstAddr with
  | .individual _ => return .dataIndividual frame
  | .group addr =>
    if addr = ⟨0⟩ then return .dataBroadcast frame
    else return .dataGroup frame

end App

end EmbassyKnx
