import EmbassyKnx.Frame.DataPoint
import EmbassyKnx.Transport.Receive

/-!
# `ApplicationLayer`

Models of `src/application_layer.rs`: the service primitives, `receive`, which
handles what the transport layer has received, and the arm of `run` that answers
a service response.
-/

namespace EmbassyKnx

open Rust Async

/-- `ApplicationServiceInd` (line 9). -/
inductive ApplicationServiceInd
  | groupValueRead (asap : UInt8)
  deriving DecidableEq, Repr

/-- `GroupReadResponse` (line 13). -/
structure GroupReadResponse where
  data : DataPoint
  asap : UInt8
  hopCount : UInt8
  priority : Priority
  deriving DecidableEq, Repr

namespace GroupReadResponse

/-- `new` (line 21). -/
def new (asap : UInt8) (data : DataPoint) (priority : Priority) : GroupReadResponse where
  data := data
  asap := asap
  hopCount := 7
  priority := priority

/-- `to_transport` (line 30); `block` is the outcome of `FRAME_POOL.alloc`. -/
def toTransport (p : Profile) (block : Bool) (self : GroupReadResponse) (tsap : UInt8) :
    Panicking (FrameResult DataGroupReq) := do
  match ← Frame.fromDatapoint p block self.data with
  | .error e => return .error e
  | .ok frame =>
    let frame ← frame.setApci .four 0x1
    let frame ← frame.setPriority self.priority
    let frame ← frame.setHopCount self.hopCount
    return .ok ⟨tsap, frame⟩

theorem toTransport_false (p : Profile) (resp : GroupReadResponse) (tsap : UInt8) :
    resp.toTransport p false tsap = .ok (.error .outOfMemory) := by
  unfold toTransport Frame.fromDatapoint Frame.fromValue
  split_ifs
  · rfl
  · rfl

end GroupReadResponse

/-- `ApplicationServiceRes` (line 39). -/
inductive ApplicationServiceRes
  | groupValueRead (resp : GroupReadResponse)
  deriving DecidableEq, Repr

/-- What `ApplicationLayer::receive` asks of its environment. -/
inductive ApplicationOp
  /-- `self.tx.send(ind)`. -/
  | txSend (ind : ApplicationServiceInd)
  deriving DecidableEq

/-- The operations of `ApplicationLayer::receive` and their results. -/
abbrev applicationSig : Signature where
  Op := ApplicationOp
  Ret
    | .txSend _ => Unit

namespace App

/-- `ApplicationLayer::receive` (line 62). -/
def applicationReceive (frame : FrameResult TransportServiceInd) : Async applicationSig Unit := do
  match frame with
  | .ok (.dataGroup frame) =>
    let apci ← frame.apci .four
    if apci = 0 then .perform (.txSend (.groupValueRead 0)) .done
    else return ()
  | .ok _ => return ()
  | .error _ => return ()

/-- The second arm of `run` (lines 93–101), once `self.rx.receive()` has returned `res`. -/
def respond (p : Profile) (res : ApplicationServiceRes) : Task Unit :=
  match res with
  | .groupValueRead resp => do
    let block ← alloc
    -- `unwrap!` panics on `Err`
    match ← resp.toTransport p block 0 with
    | .error _ => .panicked .explicit
    | .ok req => transportSend (.dataGroupReq req)

end App

end EmbassyKnx
