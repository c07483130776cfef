import EmbassyKnx.Transport.Connection

/-!
# `TransportLayer`

`receive_ind` and `receive` of `src/transport_layer.rs` (lines 79–167). The
guard that `receive` creates inside the arguments of `select` is a temporary of
the whole `let` statement: it is alive while `select` is awaited and while the
arms of the `match` run.
-/

namespace EmbassyKnx

open Rust

/-- The connection-oriented services. -/
inductive ConnectionService
  | dataConnected
  | connect
  | disconnect
  | ack
  | nak
  deriving DecidableEq, Repr

/-- The indication of a service. -/
def ConnectionService.ind : ConnectionService → Frame → TransportServiceInd
  | .dataConnected => .dataConnected
  | .connect => .connect
  | .disconnect => .disconnect
  | .ack => .ack
  | .nak => .nak

/-- What a TPCI octet of an individually addressed frame stands for. -/
inductive IndividualService
  | dataIndividual
  | connection (service : ConnectionService)
  | invalidTpdu
  deriving DecidableEq, Repr

namespace App

open Async

/-- The chain of tests in `receive_ind` (lines 86–121). -/
def individualService (tpci : UInt8) : IndividualService :=
  if tpci >>> 2 = 0 then .dataIndividual
  else if tpci >>> 6 = 1 then .connection .dataConnected
  else if tpci = 0x80 then .connection .connect
  else if tpci = 0x81 then .connection .disconnect
  else if tpci &&& 0x3c = 0xc2 then .connection .ack
  else if tpci &&& 0x3c = 0xc4 then .connection .nak
  else .invalidTpdu

/-- `receive_ind` (line 79). -/
def receiveInd (p : Profile) (ind : NetworkServiceInd) : Task IndResult := do
  match ind with
  | .dataIndividual frame =>
    let tpci ← frame.tpci .eight
    match individualService tpci with
    | .dataIndividual => return .ok (some (.dataIndividual frame))
    | .connection service => withBorrow (handleInd p (service.ind frame))
    | .invalidTpdu => return .error (.invalidTpdu tpci)
  | .dataBroadcast frame =>
    let tpci ← frame.tpci .six
    if tpci = 0 then return .ok (some (.dataBroadcast frame))
    else return .error (.invalidTpdu tpci)
  | .dataGroup frame =>
    let tpci ← frame.tpci .six
    if tpci = 0 then return .ok (some (.dataGroup frame))
    else if tpci = 1 then return .ok (some (.dataTagGroup frame))
    else return .error (.invalidTpdu tpci)
  | .dataSystemBroadcast frame => return .ok (some (.dataSystemBroadcast frame))

/-- The arms of the `match` in `receive` (lines 160–161), the reception of the network
    layer included. -/
def receiveArm (p : Profile) : Frame ⊕ Unit → Task IndResult
  | .inl frame => do
    let ind ← networkInd frame
    receiveInd p ind
  | .inr () => withBorrow connectionTimeout

/-- The `let` statement of `receive` (lines 148–162), without its `?`. -/
def receiveStatement (p : Profile) : Task IndResult :=
  withBorrow do
    let self ← getConnection
    let event ← selectFrameOrTick self.connectionTimeout.isSome
    receiveArm p event

/-- What `receive` does with the result of the statement (lines 162–165): return, or
    loop. -/
def turnResult : IndResult → Option (FrameResult TransportServiceInd)
  | .error e => some (.error e)
  | .ok (some ind) => some (.ok ind)
  | .ok none => none

/-- One turn of the loop of `receive` (line 146); `none` if it loops. -/
def receiveTurn (p : Profile) : Task (Option (FrameResult TransportServiceInd)) := do
  let ret ← receiveStatement p
  return turnResult ret

end App

end EmbassyKnx
