import EmbassyKnx.Common.Async
import EmbassyKnx.Frame.Frame

/-!
# The bus driver

Model of `src/ncn51_driver.rs`: the task that frames the octets of the bus
coupler's UART, acknowledges and delivers received frames, and transmits queued
ones. The UART, the frame pool and the queues are operations of the task's
environment. Log output, the LED and the constructor are left out.

`run` is an endless loop and so is the drain loop of
`read_with_timeout_ignore_errors`; `runIteration` is one turn of whichever of
the two the task is in.
-/

namespace EmbassyKnx

open Rust Heapless FrameLayout FrameReader

/-- `uarte::Error` of the HAL; the driver passes it on without looking inside. -/
structure UartError where
  code : ℕ
  deriving DecidableEq, Repr

/-- `TransferError` (line 22). -/
inductive TransferError
  | timeoutError (read : ℕ)
  | readError (e : UartError)
  | frameError (e : FrameError)
  | invalidData (octet : UInt8)
  deriving DecidableEq, Repr

/-- `ConStatus` (line 79). -/
inductive ConStatus
  | ok
  | notOk
  deriving DecidableEq, Repr

/-- `AckTypes` (line 85). -/
inductive AckTypes
  | nack
  | busy
  | ack
  deriving DecidableEq, Repr

/-- `ack as u8`. -/
def AckTypes.toU8 : AckTypes → UInt8
  | .nack => 0x4
  | .busy => 0x2
  | .ack => 0x1

namespace Commands

/-! The commands of `mod commands` (line 56) that the driver sends. -/

def uAcknReq : UInt8 := 0x10
def uLDataStartReq : UInt8 := 0x80
def uLDataContReq : UInt8 := 0x80
def uLDataEndReq : UInt8 := 0x40

end Commands

/-- What the driver task asks of its environment. -/
inductive DriverOp
  /-- `FRAME_POOL.alloc(Vec::new())`: is a block free? -/
  | alloc
  /-- `uarte.read` of one octet. -/
  | read
  /-- `uarte.read` of one octet `.with_timeout(BUS_SILENCE_US)`. -/
  | readWithTimeout
  /-- `uarte.write` or `uarte.write_from_ram` of one octet. -/
  | write (octet : UInt8)
  /-- `select(uarte.read(..), FRAME_CHANNEL_RX.ready_to_receive())`. -/
  | selectReadOrRequest
  /-- `FRAME_CHANNEL_RX.receive()`. -/
  | frameChannelRxReceive
  /-- `FRAME_CHANNEL_TX.send(frame)`. -/
  | frameChannelTxSend (frame : Frame)
  /-- `CON_SIGNAL.signal(status)`. -/
  | conSignal (status : ConStatus)

/-- The driver's operations and their results; a timed read that runs out
    returns `none`, a lost `select` branch returns `Sum.inr`. -/
abbrev driverSig : Signature where
  Op := DriverOp
  Ret
    | .alloc => Bool
    | .read => Except UartError UInt8
    | .readWithTimeout => Option (Except UartError UInt8)
    | .write _ => Except UartError Unit
    | .selectReadOrRequest => Except UartError UInt8 ⊕ Unit
    | .frameChannelRxReceive => Frame
    | .frameChannelTxSend _ => Unit
    | .conSignal _ => Unit

namespace Driver

open Async

/-- Computations of the driver task. -/
abbrev Task (α : Type) : Type := Async driverSig α

/-! ## The operations -/

def alloc : Task Bool := .perform .alloc .done

def read : Task (Except UartError UInt8) := .perform .read .done

def timedRead : Task (Option (Except UartError UInt8)) := .perform .readWithTimeout .done

def write (octet : UInt8) : Task (Except UartError Unit) := .perform (.write octet) .done

def selectReadOrRequest : Task (Except UartError UInt8 ⊕ Unit) :=
  .perform .selectReadOrRequest .done

def frameChannelRxReceive : Task Frame := .perform .frameChannelRxReceive .done

def frameChannelTxSend (frame : Frame) : Task Unit := .perform (.frameChannelTxSend frame) .done

def conSignal (status : ConStatus) : Task Unit := .perform (.conSignal status) .done

/-! ## `NCN51Driver` -/

/-- `FRAME_TYPE_MASK`. -/
def frameTypeMask : UInt8 := 0xd3

/-- `FRAME_TYPE_STD`. -/
def frameTypeStd : UInt8 := 0x90

/-- `FRAME_TYPE_EXT`. -/
def frameTypeExt : UInt8 := 0x10

/-- `is_frame_start` (line 135). -/
def isFrameStart (ctrl : UInt8) : Bool :=
  [frameTypeStd, frameTypeExt].contains (ctrl &&& frameTypeMask)

/-- Write one octet; `?` turns the HAL's error into a `TransferError`. -/
def writeOctet (octet : UInt8) : Task (Except TransferError Unit) := do
  match ← write octet with
  | .error e => return .error (.readError e)
  | .ok () => return .ok ()

/-- `ack` (line 139). -/
def ack (kind : AckTypes) : Task (Except TransferError Unit) :=
  writeOctet (Commands.uAcknReq ||| kind.toU8)

/-- The condition of `ack_if_addressed` (lines 274–278). -/
def addressed : Address → Bool
  | .individual addr => decide (addr = ownAddress)
  | .group _ => true

/-- `ack_if_addressed` (line 273). -/
def ackIfAddressed (dstAddr : Address) : Task (Except TransferError Unit) := do
  if addressed dstAddr then ack .ack else return .ok ()

/-- `read_with_timeout` (line 285) on the rest of a slice, after `bytes` octets
    of it: what it leaves there and its result. -/
def readWithTimeoutFrom (bytes : ℕ) : List UInt8 → Task (List UInt8 × Except TransferError ℕ)
  | [] => return ([], .ok bytes)
  | slot :: buf => do
    match ← timedRead with
    | none => return (slot :: buf, .error (.timeoutError bytes))
    | some (.error e) => return (slot :: buf, .error (.readError e))
    | some (.ok octet) =>
      let (buf, result) ← readWithTimeoutFrom (bytes + 1) buf
      return (octet :: buf, result)

/-- `read_with_timeout(buf)`. -/
def readWithTimeout (buf : List UInt8) : Task (List UInt8 × Except TransferError ℕ) :=
  readWithTimeoutFrom 0 buf

/-- The acceptance test of `receive_frame_int` (lines 245–256) on the scratch
    frame after `bytesRead` octets have been read. -/
def acceptFrame {T : Type} [FrameWriter T] (p : Profile) (frame : T) (bytesRead : ℕ) :
    Panicking (Except TransferError T) := do
  -- `||` is lazy: `length()` is not evaluated when a bound is missed
  if bytesRead < minFrameSize T ∨ bytesRead > maxFrameSize T then
    return .error (.frameError .invalidLength)
  else if bytesRead ≠ (← length p frame).toNat then
    return .error (.frameError .invalidLength)
  else if (← index (data frame) bytesRead) ≠ checksum frame then
    return .error (.frameError .checksum)
  else
    match ← FrameWriter.setLength p frame bytesRead with
    | (_, .error e) => return .error (.frameError e)
    | (frame, .ok ()) => return .ok frame

/-- `receive_frame_int` from the acknowledgement on (lines 235–257), when the
    header is in `frame` and `bytesRead` octets have been read. -/
def receiveBody {T : Type} [FrameWriter T] (p : Profile) (frame : T) (bytesRead : ℕ) :
    Task (Except TransferError T) := do
  match ← ackIfAddressed (← dstAddr frame) with
  | .error e => return .error e
  | .ok () =>
    let body ← sliceFrom (data frame) (headerLength T)
    let (body, result) ← readWithTimeout body
    let frame : T := FrameWriter.ofBuf ((buf frame).overwrite (headerLength T) body)
    match result with
    | .ok bytes => acceptFrame p frame (bytesRead + bytes)
    | .error (.timeoutError bytes) => acceptFrame p frame (bytesRead + bytes)
    | .error e => return .error e

/-- `receive_frame_int::<T>` (line 229). -/
def receiveFrameInt (T : Type) [FrameWriter T] (p : Profile) (ctrlOctet : UInt8) :
    Task (Except TransferError T) := do
  let block ← alloc
  let scratch : FrameResult T ← FrameWriter.new p block (maxFrameSize T)
  match scratch with
  | .error e => return .error (.frameError e)
  | .ok frame =>
    let frame ← FrameWriter.modifyData frame 0 fun _ => ctrlOctet
    let header ← slice (data frame) 1 (headerLength T)
    let (header, result) ← readWithTimeout header
    let frame : T := FrameWriter.ofBuf ((buf frame).overwrite 1 header)
    match result with
    | .error e => return .error e
    | .ok bytes => receiveBody p frame (1 + bytes)

/-- `receive_frame` (line 259). -/
def receiveFrame (p : Profile) (ctrlOctet : UInt8) : Task (Except TransferError Frame) := do
  if ctrlOctet &&& frameTypeMask = frameTypeStd then
    return (← receiveFrameInt StandardFrame p ctrlOctet).map .standard
  else if ctrlOctet &&& frameTypeMask = frameTypeExt then
    return (← receiveFrameInt ExtendedFrame p ctrlOctet).map .extended
  else .panicked .explicit

/-- The data octets of `send_frame` (lines 202–206), from octet `i` on. -/
def sendOctet (p : Profile) (buf : List UInt8) (i : ℕ) : Task (Except TransferError Unit) := do
  let cont ← u8Add p Commands.uLDataContReq (UInt8.ofNat i)
  tryThen (writeOctet cont) do
    let octet ← index buf i
    writeOctet octet

/-- The writes of `send_frame` (lines 196–210). -/
def writeFrame (p : Profile) (buf : List UInt8) (checksum : UInt8) :
    Task (Except TransferError Unit) :=
  tryThen (writeOctet Commands.uLDataStartReq) do
    let first ← index buf 0
    tryThen (writeOctet first) <| tryThen (forRange (sendOctet p buf) 1 (buf.length - 2)) do
      let last ← u8Sub p (UInt8.ofNat buf.length) 1
      tryThen (writeOctet (Commands.uLDataEndReq ||| last)) (writeOctet checksum)

/-- One octet of the echo `send_frame` reads back (lines 211–214). -/
def readEcho (_i : ℕ) : Task (Except TransferError Unit) := do
  match ← readWithTimeout [0] with
  | (_, .error e) => return .error e
  | (_, .ok _) => return .ok ()

/-- The wait for `L_Data.con` at the end of `send_frame` (lines 215–226). -/
def readCon : Task (Except TransferError ConStatus) := do
  match ← read with
  | .error e => return .error (.readError e)
  | .ok con =>
    if con &&& 0x7f ≠ 0xb then return .error (.invalidData con)
    else return .ok (if con >>> 7 ≠ 0 then .ok else .notOk)

/-- `send_frame` (line 195). The octets of the echo overwrite the frame, which is
    dropped when `send_frame` returns. -/
def sendFrame (p : Profile) (frame : Frame) : Task (Except TransferError ConStatus) :=
  tryThen (writeFrame p frame.data frame.checksum) <|
    tryThen (forRange readEcho 0 frame.data.length) readCon

/-- Where the task is between two turns of its loops: waiting for traffic, or
    draining the line after a failed reception. -/
inductive Phase
  | idle
  | draining
  deriving DecidableEq, Repr

/-- One turn of `run` (line 146), or of the drain loop of
    `read_with_timeout_ignore_errors` (line 298). -/
def runIteration (p : Profile) : Phase → Task Phase
  | .idle => do
    match ← selectReadOrRequest with
    | .inl (.error _) => return .idle
    | .inl (.ok octet) =>
      if isFrameStart octet then
        match ← receiveFrame p octet with
        | .ok frame =>
          frameChannelTxSend frame
          return .idle
        | .error _ => return .draining
      else return .idle
    | .inr () =>
      let frame ← frameChannelRxReceive
      match ← sendFrame p frame with
      | .ok conStatus =>
        conSignal conStatus
        return .idle
      | .error _ =>
        conSignal .notOk
        return .idle
  | .draining => do
    match ← timedRead with
    | some _ => return .draining
    | none => return .idle

end Driver

end EmbassyKnx
