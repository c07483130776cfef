import EmbassyKnx.Application.Services
import Mathlib.Logic.Relation

/-!
# The tasks and their channels

Model of `src/main.rs` and of `ApplicationLayer::run`: the driver task, the
application task and the main task, their channels, the confirmation signal and the
frame pool. A task is polled until it waits; then any task may be polled next.
`select` polls `transport.receive()` first, and drops it when the second future wins.

The pool is a number of free blocks. A block is held by the task that has allocated
it or has received its frame, until the frame is sent on or the future that owns it
ends. The UART and the clock answer as they like. Borrows of the connection succeed.

Frames, indications and responses carry numbers that no task sees: a frame that the
driver hands over is numbered by its place in `delivered`, one that the application task
sends by `sent`, and a group read gives its number to the indication and the response.
-/

namespace EmbassyKnx

open Rust Async

inductive TaskId
  | driver
  | app
  | main
  deriving DecidableEq, Repr

/-- What the environment answers in one step. -/
structure Env where
  /-- The next octet of the UART; none if nothing comes, or not in time. -/
  octet : Option (Except UartError UInt8)
  /-- The outcome of a write to the UART. -/
  written : Except UartError Unit
  /-- Has the connection's ticker fired? -/
  tick : Bool

/-- The driver task: the rest of its turn, the blocks it holds and the number of the frame
    that it transmits. -/
structure DriverTask where
  rest : Driver.Task Driver.Phase
  held : ℕ
  sending : Option ℕ

/-- Where the application task is in the loop of `ApplicationLayer::run` (line 87). -/
inductive AppControl
  /-- In `select`, with the rest of a turn of `transport.receive()`. -/
  | select (receive : App.Task (Option (FrameResult TransportServiceInd)))
  /-- In `self.receive(frame)`. -/
  | indicate (receive : Async applicationSig Unit)
  /-- At `self.rx.receive()`. -/
  | take
  /-- In `self.transport.send(..)`, the response of it included. -/
  | respond (send : App.Task Unit)

/-- The application task: the blocks it holds, the frame it has received, and the number of
    the frame whose confirmation it waits for. -/
structure AppTask where
  control : AppControl
  held : ℕ
  frame : Option (ℕ × Frame)
  sending : Option ℕ

/-- Where the main task is in its loop (`main.rs` line 83). -/
inductive MainTask
  | receive
  | send (number : ℕ) (res : ApplicationServiceRes)
  deriving DecidableEq

/-- The tasks and what they share. -/
structure System where
  running : TaskId
  driver : DriverTask
  app : AppTask
  main : MainTask
  free : ℕ
  frameChannelTx : List (ℕ × Frame)
  frameChannelRx : List (ℕ × Frame)
  conSignal : Option (Option ℕ × ConStatus)
  serviceChannelRx : List (ℕ × ApplicationServiceInd)
  serviceChannelTx : List (ℕ × ApplicationServiceRes)
  connection : Connection
  /-- The frames that have ever been put into `FRAME_CHANNEL_TX`. -/
  delivered : List (ℕ × Frame)
  /-- How many frames have been put into `FRAME_CHANNEL_RX`. -/
  sent : ℕ
  /-- The responses that the application task has taken. -/
  answered : List ℕ

/-- `CHANNEL_SIZE` (`ncn51_driver.rs` line 96), the capacity of the frame channels and the
    number of blocks. -/
def channelSize : ℕ := 8

/-- The capacity of the service channels. -/
def serviceChannelSize : ℕ := 4

namespace System

/-! ## Operations of the tasks -/

/-- The driver's operations. -/
def driverReply (e : Env) : Handler driverSig System
  | .alloc, s =>
    if 0 < s.free then
      some (true, { s with free := s.free - 1, driver.held := s.driver.held + 1 })
    else some (false, s)
  | .read, s => e.octet.map (·, s)
  | .readWithTimeout, s => some (e.octet, s)
  | .write _, s => some (e.written, s)
  | .selectReadOrRequest, s =>
    match e.octet with
    | some r => some (.inl r, s)
    | none => if s.frameChannelRx.isEmpty then none else some (.inr (), s)
  | .frameChannelRxReceive, s =>
    match s.frameChannelRx with
    | [] => none
    | (number, frame) :: rest =>
      some (frame, { s with
        frameChannelRx := rest, driver.held := s.driver.held + 1, driver.sending := some number })
  | .frameChannelTxSend frame, s =>
    if s.frameChannelTx.length < channelSize then
      some ((), { s with
        frameChannelTx := s.frameChannelTx ++ [(s.delivered.length, frame)]
        delivered := s.delivered ++ [(s.delivered.length, frame)]
        driver.held := s.driver.held - 1 })
    else none
  | .conSignal status, s =>
    some ((), { s with conSignal := some (s.driver.sending, status), driver.sending := none })

/-- The operations of the transport layer. -/
def appReply (e : Env) : Handler appSig System
  | .alloc, s =>
    if 0 < s.free then some (true, { s with free := s.free - 1, app.held := s.app.held + 1 })
    else some (false, s)
  | .borrowMut, s => some (true, s)
  | .releaseMut, s => some ((), s)
  | .getConnection, s => some (s.connection, s)
  | .setConnection c, s => some ((), { s with connection := c })
  | .conSignalReset, s => some ((), { s with conSignal := none })
  | .frameChannelRxSend frame, s =>
    if s.frameChannelRx.length < channelSize then
      some ((), { s with
        frameChannelRx := s.frameChannelRx ++ [(s.sent, frame)], sent := s.sent + 1
        app.held := s.app.held - 1, app.sending := some s.sent })
    else none
  | .conSignalWait, s =>
    match s.conSignal with
    | none => none
    | some (_, status) => some (status, { s with conSignal := none, app.sending := none })
  | .selectFrameOrTick timer, s =>
    match s.frameChannelTx with
    | (number, frame) :: rest =>
      some (.inl frame, { s with
        frameChannelTx := rest, app.held := s.app.held + 1, app.frame := some (number, frame) })
    | [] => if timer && e.tick then some (.inr (), s) else none

/-! ## Steps -/

/-- The driver task goes on. -/
def stepDriver (p : Profile) (e : Env) (s : System) : Option System :=
  match s.driver.rest with
  | .done phase =>
    some { s with driver := ⟨Driver.runIteration p phase, 0, none⟩, free := s.free + s.driver.held }
  | .panicked _ => none
  | .perform o resume =>
    (driverReply e o s).map fun reply => { reply.2 with driver.rest := resume reply.1 }

/-- The application task leaves a part of its loop, whose frames are dropped. -/
def leave (s : System) (control : AppControl) : System :=
  { s with app := ⟨control, 0, none, none⟩, free := s.free + s.app.held }

/-- In `select` (line 89). -/
def stepSelect (p : Profile) (e : Env) (s : System) :
    App.Task (Option (FrameResult TransportServiceInd)) → Option System
  | .done none => some (s.leave (.select (App.receiveTurn p)))
  | .done (some frame) => some { s with app.control := .indicate (App.applicationReceive frame) }
  | .panicked _ => none
  | .perform o resume =>
    match appReply e o s with
    | some reply => some { reply.2 with app.control := .select (resume reply.1) }
    -- `ready_to_receive()`
    | none => if s.serviceChannelTx.isEmpty then none else some (s.leave .take)

/-- In `self.receive(frame)` (line 91); an indication takes the number of the frame. -/
def stepIndicate (p : Profile) (s : System) : Async applicationSig Unit → Option System
  | .done () => some (s.leave (.select (App.receiveTurn p)))
  | .panicked _ => none
  | .perform (.txSend ind) resume =>
    if s.serviceChannelRx.length < serviceChannelSize then
      some { s with
        serviceChannelRx := s.serviceChannelRx ++ [((s.app.frame.map Prod.fst).getD 0, ind)]
        app.frame := none, app.control := .indicate (resume ()) }
    else none

/-- At `self.rx.receive()` (line 93). -/
def stepTake (p : Profile) (s : System) : Option System :=
  match s.serviceChannelTx with
  | [] => none
  | (number, res) :: rest =>
    some { s with serviceChannelTx := rest, answered := s.answered ++ [number]
                  app.control := .respond (App.respond p res) }

/-- In `self.transport.send(..)` (line 95). -/
def stepRespond (p : Profile) (e : Env) (s : System) : App.Task Unit → Option System
  | .done () => some (s.leave (.select (App.receiveTurn p)))
  | .panicked _ => none
  | .perform o resume =>
    (appReply e o s).map fun reply => { reply.2 with app.control := .respond (resume reply.1) }

/-- The application task goes on. -/
def stepApp (p : Profile) (e : Env) (s : System) : Option System :=
  match s.app.control with
  | .select receive => stepSelect p e s receive
  | .indicate receive => stepIndicate p s receive
  | .take => stepTake p s
  | .respond send => stepRespond p e s send

/-- The main task goes on (lines 84–97). -/
def stepMain (s : System) : Option System :=
  match s.main with
  | .receive =>
    match s.serviceChannelRx with
    | [] => none
    | (number, .groupValueRead _asap) :: rest =>
      let resp := GroupReadResponse.new 0 (.b1 (.new true)) .normal
      some { s with serviceChannelRx := rest, main := .send number (.groupValueRead resp) }
  | .send number res =>
    if s.serviceChannelTx.length < serviceChannelSize then
      some { s with serviceChannelTx := s.serviceChannelTx ++ [(number, res)], main := .receive }
    else none

/-- Can the driver be left at the operation? -/
def driverWaits (s : System) : DriverOp → Bool
  | .alloc => false
  | .read => true
  | .readWithTimeout => true
  | .write _ => true
  | .selectReadOrRequest => s.frameChannelRx.isEmpty
  | .frameChannelRxReceive => s.frameChannelRx.isEmpty
  | .frameChannelTxSend _ => channelSize ≤ s.frameChannelTx.length
  | .conSignal _ => false

/-- Can the application task be left at the operation? -/
def appWaits (s : System) : AppOp → Bool
  | .frameChannelRxSend _ => channelSize ≤ s.frameChannelRx.length
  | .conSignalWait => s.conSignal.isNone
  | .selectFrameOrTick _ => s.frameChannelTx.isEmpty
  | _ => false

/-- Is the running task at an operation that is pending? -/
def waits (s : System) : Bool :=
  match s.running with
  | .driver =>
    match s.driver.rest with
    | .perform o _ => s.driverWaits o
    | _ => false
  | .app =>
    match s.app.control with
    | .select (.perform o _) => s.appWaits o && s.serviceChannelTx.isEmpty
    | .indicate (.perform _ _) => serviceChannelSize ≤ s.serviceChannelRx.length
    | .take => s.serviceChannelTx.isEmpty
    | .respond (.perform o _) => s.appWaits o
    | _ => false
  | .main =>
    match s.main with
    | .receive => s.serviceChannelRx.isEmpty
    | .send _ _ => serviceChannelSize ≤ s.serviceChannelTx.length

/-- The running task goes on, or waits while another one is polled. -/
inductive Action
  | run (e : Env)
  | poll (t : TaskId)

/-- One step of the system. -/
def step (p : Profile) (s : System) : Action → Option System
  | .run e =>
    match s.running with
    | .driver => stepDriver p e s
    | .app => stepApp p e s
    | .main => stepMain s
  | .poll t => if s.waits then some { s with running := t } else none

/-- The system when `main` has spawned the tasks. -/
def initial (p : Profile) : System where
  running := .main
  driver := ⟨Driver.runIteration p .idle, 0, none⟩
  app := ⟨.select (App.receiveTurn p), 0, none, none⟩
  main := .receive
  free := channelSize
  frameChannelTx := []
  frameChannelRx := []
  conSignal := none
  serviceChannelRx := []
  serviceChannelTx := []
  connection := .new
  delivered := []
  sent := 0
  answered := []

/-- One step, whatever the environment does. -/
def Step (p : Profile) (s s' : System) : Prop := ∃ a, s.step p a = some s'

/-- What the system can come to. -/
def Reachable (p : Profile) (s : System) : Prop := Relation.ReflTransGen (Step p) (initial p) s

end System

end EmbassyKnx
