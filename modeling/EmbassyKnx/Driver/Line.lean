import EmbassyKnx.Driver.Model
import Mathlib.Data.Stream.Init

/-!
# The line the driver listens to

The environment of the driver task: what the UART is going to deliver, which
allocations and writes will succeed, and a record of what the driver has
written and handed on. An empty `rx` is a line that stays silent: a timed read
runs out, an untimed one waits for ever.

* `exec_readWithTimeoutFrom`: a timed read of a slice takes the leading octets
  of the line, up to the slice's length or the first silence or error.
-/

namespace EmbassyKnx.Driver

open Rust Async

/-- One thing that happens on the receive line. -/
inductive LineEvent
  | octet (b : UInt8)
  /-- No octet for `BUS_SILENCE_US`. -/
  | silence
  | error (e : UartError)
  deriving DecidableEq, Repr

/-- The world of the driver task. -/
structure Line where
  /-- What the UART delivers from now on. -/
  rx : List LineEvent
  /-- The frames in `FRAME_CHANNEL_RX`. -/
  requests : List Frame
  /-- Does the request branch win the next `select`, when it is ready? -/
  requestFirst : Stream' Bool
  /-- The outcomes of the next allocations. -/
  blocks : Stream' Bool
  /-- The outcomes of the next writes. -/
  writeErrors : Stream' (Option UartError)
  /-- The octets written to the UART. -/
  tx : List UInt8
  /-- The frames put into `FRAME_CHANNEL_TX`. -/
  delivered : List Frame
  /-- The statuses signalled on `CON_SIGNAL`. -/
  signals : List ConStatus

/-- A line that has just been started on `rx`, with every block free and every write
    succeeding. -/
def Line.fresh (rx : List LineEvent) : Line where
  rx := rx
  requests := []
  requestFirst := Stream'.const false
  blocks := Stream'.const true
  writeErrors := Stream'.const none
  tx := []
  delivered := []
  signals := []

/-- A burst on a line that has just been started. -/
theorem Line.fresh_rx (os : List UInt8) :
    (Line.fresh (os.map .octet ++ [.silence])).rx = os.map .octet ++ [.silence] := rfl

/-- The next untimed read: silence does not end it. -/
def nextRead : List LineEvent → Option (Except UartError UInt8 × List LineEvent)
  | [] => none
  | .silence :: rx => nextRead rx
  | .error e :: rx => some (.error e, rx)
  | .octet b :: rx => some (.ok b, rx)

/-- The next timed read; `none` is the timeout. -/
def nextTimedRead : List LineEvent → Option (Except UartError UInt8) × List LineEvent
  | [] => (none, [])
  | .silence :: rx => (none, rx)
  | .error e :: rx => (some (.error e), rx)
  | .octet b :: rx => (some (.ok b), rx)

/-- The environment. `FRAME_CHANNEL_TX` has room. -/
def uart : Handler driverSig Line
  | .alloc, w => some (w.blocks.head, { w with blocks := w.blocks.tail })
  | .read, w => (nextRead w.rx).map fun (r, rx) => (r, { w with rx })
  | .readWithTimeout, w => some ((nextTimedRead w.rx).1, { w with rx := (nextTimedRead w.rx).2 })
  | .write octet, w =>
    match w.writeErrors.head with
    | some e => some (.error e, { w with writeErrors := w.writeErrors.tail })
    | none => some (.ok (), { w with writeErrors := w.writeErrors.tail, tx := w.tx ++ [octet] })
  | .selectReadOrRequest, w =>
    match w.requests, nextRead w.rx with
    | [], none => none
    | [], some (r, rx) => some (.inl r, { w with rx })
    | _ :: _, none => some (.inr (), w)
    | _ :: _, some (r, rx) =>
      if w.requestFirst.head then some (.inr (), { w with requestFirst := w.requestFirst.tail })
      else some (.inl r, { w with rx, requestFirst := w.requestFirst.tail })
  | .frameChannelRxReceive, w =>
    match w.requests with
    | [] => none
    | frame :: requests => some (frame, { w with requests })
  | .frameChannelTxSend frame, w => some ((), { w with delivered := w.delivered ++ [frame] })
  | .conSignal status, w => some ((), { w with signals := w.signals ++ [status] })

/-! ## Bursts -/

/-- The octets that arrive before the first silence or error. -/
def burst : List LineEvent → List UInt8
  | .octet b :: rx => b :: burst rx
  | _ => []

/-- What ends a timed read that runs out of octets after `read` of them, and the
    line after it. -/
def readStop (read : ℕ) : List LineEvent → TransferError × List LineEvent
  | .error e :: rx => (.readError e, rx)
  | .silence :: rx => (.timeoutError read, rx)
  | rx => (.timeoutError read, rx)

/-- The line is silent, for one read timeout at least. -/
def Quiet : List LineEvent → Prop
  | [] => True
  | .silence :: _ => True
  | _ => False

theorem burst_map_octet_append (os : List UInt8) {rx : List LineEvent} (h : Quiet rx) :
    burst (os.map LineEvent.octet ++ rx) = os := by
  induction os with
  | nil =>
    cases rx with
    | nil => rfl
    | cons e rx => cases e <;> first | rfl | exact absurd h id
  | cons o os ih => simp [burst, ih]

theorem drop_map_octet_append (os : List UInt8) (rx : List LineEvent) :
    (os.map LineEvent.octet ++ rx).drop os.length = rx := by
  rw [List.drop_left' (by rw [List.length_map])]

theorem readStop_cases (read : ℕ) (rx : List LineEvent) :
    ∃ rx', readStop read rx = (.timeoutError read, rx') ∨
      ∃ e, readStop read rx = (.readError e, rx') := by
  rcases rx with _ | ⟨_ | _ | e, rx⟩
  · exact ⟨[], .inl rfl⟩
  · exact ⟨_, .inl rfl⟩
  · exact ⟨rx, .inl rfl⟩
  · exact ⟨rx, .inr ⟨e, rfl⟩⟩

theorem readStop_of_quiet (read : ℕ) {rx : List LineEvent} (h : Quiet rx) :
    ∃ rx', readStop read rx = (.timeoutError read, rx') := by
  cases rx with
  | nil => exact ⟨[], rfl⟩
  | cons e rx =>
    cases e with
    | octet b => exact absurd h id
    | silence => exact ⟨rx, rfl⟩
    | error e => exact absurd h id

/-! ## Operations on the line -/

/-- The outcome of writing one octet. -/
def writeResult (octet : UInt8) (w : Line) : Except TransferError Unit × Line :=
  match w.writeErrors.head with
  | some e => (.error (.readError e), { w with writeErrors := w.writeErrors.tail })
  | none => (.ok (), { w with writeErrors := w.writeErrors.tail, tx := w.tx ++ [octet] })

@[simp] theorem writeResult_rx (octet : UInt8) (w : Line) : (writeResult octet w).2.rx = w.rx := by
  rw [writeResult]
  cases w.writeErrors.head <;> rfl

theorem writeResult_of_none {w : Line} (h : w.writeErrors.head = none) (octet : UInt8) :
    writeResult octet w =
      (.ok (), { w with writeErrors := w.writeErrors.tail, tx := w.tx ++ [octet] }) := by
  rw [writeResult, h]

section Operations

variable (w : Line)

@[simp] theorem exec_alloc :
    exec uart alloc w = .returned w.blocks.head { w with blocks := w.blocks.tail } := rfl

@[simp] theorem exec_timedRead :
    exec uart timedRead w =
      .returned (nextTimedRead w.rx).1 { w with rx := (nextTimedRead w.rx).2 } := rfl

@[simp] theorem exec_frameChannelTxSend (frame : Frame) :
    exec uart (frameChannelTxSend frame) w =
      .returned () { w with delivered := w.delivered ++ [frame] } := rfl

theorem exec_writeOctet (octet : UInt8) :
    exec uart (writeOctet octet) w = .returned (writeResult octet w).1 (writeResult octet w).2 := by
  rw [writeOctet, exec_bind, write, writeResult]
  simp only [exec, uart]
  cases w.writeErrors.head <;> rfl

end Operations

/-- A timed read of a slice: it is filled with the leading octets of the line, or
    the read stops where the octets do. -/
theorem exec_readWithTimeoutFrom (buf : List UInt8) (read : ℕ) (w : Line) :
    exec uart (readWithTimeoutFrom read buf) w =
      if buf.length ≤ (burst w.rx).length then
        .returned ((burst w.rx).take buf.length, .ok (read + buf.length))
          { w with rx := w.rx.drop buf.length }
      else
        .returned (burst w.rx ++ buf.drop (burst w.rx).length,
            .error (readStop (read + (burst w.rx).length) (w.rx.drop (burst w.rx).length)).1)
          { w with rx := (readStop (read + (burst w.rx).length)
              (w.rx.drop (burst w.rx).length)).2 } := by
  induction buf generalizing read w with
  | nil => simp [readWithTimeoutFrom]
  | cons slot buf ih =>
    obtain ⟨rx, requests, requestFirst, blocks, writeErrors, tx, delivered, signals⟩ := w
    rw [readWithTimeoutFrom, exec_bind, exec_timedRead, Outcome.andThen_returned]
    rcases rx with _ | ⟨_ | _ | e, rx⟩
    · simp [nextTimedRead, burst, readStop]
    · rename_i octet
      simp only [nextTimedRead, exec_bind, burst, List.length_cons, Nat.add_le_add_iff_right,
        List.take_succ_cons, List.drop_succ_cons]
      have := ih (read + 1) ⟨rx, requests, requestFirst, blocks, writeErrors, tx, delivered, signals⟩
      rw [this]
      split_ifs with h
      · simp [Nat.add_assoc, Nat.add_comm 1]
      · simp [Nat.add_assoc, Nat.add_comm 1]
    · simp [nextTimedRead, burst, readStop]
    · simp [nextTimedRead, burst, readStop]

end EmbassyKnx.Driver
