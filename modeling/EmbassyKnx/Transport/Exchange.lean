import EmbassyKnx.Common.StopAndWait
import EmbassyKnx.Transport.Step

/-!
# Sessions of a connection

The peer of an open connection numbers its data modulo 16 and sends the next one
only after a T_ACK with the number of the current one; everybody else sends what
they like. A `Session` is any run of the connection under this discipline, from
the T_Connect that opens it. What the two ends have seen of it is an `Exchange`.
-/

namespace EmbassyKnx.App

open Rust Async Connection FrameLayout FrameReader StopAndWait

/-! ## What the peer and the upper layer see -/

/-- A T_ACK that was sent to the peer. -/
structure Ack where
  number : UInt8
  /-- The position of the datum that the peer had sent last. -/
  datum : ℕ
  deriving DecidableEq

/-- What has happened since the connection was opened. -/
structure Exchange (δ : Type) where
  peer : IndividualAddress
  /-- The data the peer has sent, repetitions left out. -/
  sent : List δ
  /-- The data delivered, each with the position of the datum the peer had sent last. -/
  delivered : List (δ × ℕ)
  acks : List Ack
  deriving DecidableEq

/-- The number in a T_ACK, a TPDU `11ssss10`. -/
def ackNumber (f : Frame) : Option UInt8 :=
  match f.tpci .eight with
  | .ok tpci => if tpci &&& 0xC3 = 0xC2 then some ((tpci >>> 2) &&& 0xF) else none
  | .error _ => none

/-- The numbers of the T_ACKs to `a` among some frames. -/
def acksTo (a : IndividualAddress) (sent : List Frame) : List UInt8 :=
  (sent.filter (SentTo a)).filterMap ackNumber

section Exchange

variable {δ : Type} (content : Frame → δ)

/-- The data among what a result delivers. -/
def dataDelivered (result : IndResult) : List δ :=
  (delivered result).filterMap fun
    | .dataConnected f => some (content f)
    | _ => none

namespace Exchange

variable (e : Exchange δ) (f : SizedFrame)

/-- The exchange of a connection that has just been opened. -/
def opened (peer : IndividualAddress) : Exchange δ := ⟨peer, [], [], []⟩

/-- The frame carries the number of the next datum. -/
def IsNext : Prop := f.seqField = e.sent.length % 16

instance : Decidable (e.IsNext f) := inferInstanceAs (Decidable (_ = _))

/-- What the peer may send: the next datum, when it has got a T_ACK with the number of the
    current one, or the current one again. -/
def MaySend : Prop :=
  e.IsNext f ∧
      (e.sent = [] ∨ ∃ ack ∈ e.acks, ack.number.toNat = (e.sent.length - 1) % 16) ∨
    f.seqField = (e.sent.length - 1) % 16 ∧ e.sent.getLast? = some (content f.frame)

instance [DecidableEq δ] : Decidable (e.MaySend content f) :=
  inferInstanceAs (Decidable (_ ∧ _ ∨ _))

/-- A datum of the peer arrives. -/
def arrive : Exchange δ :=
  if e.IsNext f then { e with sent := e.sent ++ [content f.frame] } else e

/-- The position of the datum that the frame carries. -/
def position : ℕ := (e.arrive content f).sent.length - 1

/-- The connection sends and delivers. -/
def record (r : StepResult) : Exchange δ :=
  { e with
    delivered := e.delivered ++ (dataDelivered content r.result).map (·, e.sent.length - 1)
    acks := e.acks ++ (acksTo e.peer r.sent).map (⟨·, e.sent.length - 1⟩) }

/-- The exchange as a stop-and-wait transfer. -/
def ledger : Ledger δ := ⟨e.sent, e.delivered, e.acks.map Ack.datum⟩

end Exchange

/-! ## Sessions -/

/-- A frame that arrives at a connection during a session. -/
structure Turn (δ : Type) where
  exchange : Exchange δ
  connection : Connection
  service : ConnectionService
  frame : SizedFrame

namespace Turn

variable (p : Profile) (t : Turn δ)

/-- The frame is a datum of the connected peer. -/
def IsDatum : Prop :=
  t.connection.state ≠ .closed ∧ t.frame.srcAddr = t.exchange.peer ∧ t.service = .dataConnected

instance : Decidable t.IsDatum := inferInstanceAs (Decidable (_ ∧ _))

/-- The frame opens the connection: it begins another session. -/
def Opens : Prop := t.connection.state = .closed ∧ t.service = .connect

/-- The exchange with the frame. -/
def arrived : Exchange δ :=
  if t.IsDatum then t.exchange.arrive content t.frame else t.exchange

/-- What the connection does, with a free block for its response. -/
def step : Panicking StepResult := connStep p t.connection t.service t.frame true

/-- The step is a call of `handle_ind`. -/
theorem step_eq_ok_iff {w : Station} (hw : w.connection = t.connection) (hblock : w.block = true)
    (r : StepResult) : t.step p = .ok r ↔
      exec app (handleInd p (t.service.ind t.frame.frame)) w = .returned r.result (w.after r) := by
  rw [← connStep_eq_ok_iff, hw, hblock]
  rfl

/-- The exchange and the connection behind the step. -/
def finish : Panicking (Exchange δ × Connection) :=
  (t.step p).map fun r => ((t.arrived content).record content r, r.connection)

end Turn

/-- The sessions: the frames that have arrived, the latest first, and where they have led
    to. The peer of the open connection keeps to its discipline with its data. Whatever else
    it sends is free, and so are the frames of third parties. -/
inductive Session (p : Profile) : List (Turn δ) → Panicking (Exchange δ × Connection) → Prop
  | opened {c : Connection} {f : SizedFrame} (hclosed : c.state = .closed) :
      Session p []
        ((connStep p c .connect f true).map fun r => (.opened f.srcAddr, r.connection))
  | turn {ts : List (Turn δ)} {t : Turn δ} (h : Session p ts (.ok (t.exchange, t.connection)))
      (hopens : ¬t.Opens) (hdatum : t.IsDatum → t.exchange.MaySend content t.frame) :
      Session p (t :: ts) (t.finish content p)

end Exchange

/-! ## Sequence numbers in octets -/

/-- `tpci_seq` drops the highest bit of the sequence field. -/
theorem tpciSeq_toNat (f : SizedFrame) : f.tpciSeq.toNat = f.seqField % 8 := by
  unfold SizedFrame.tpciSeq SizedFrame.seqField
  generalize f.tpci = tpci
  revert tpci
  exact Octets.forall_octet (by decide +kernel)

theorem response_tpci (dst : IndividualAddress) (seq tpci : UInt8) :
    (Frame.standard (response dst seq tpci)).tpci .eight = .ok (tpci ||| ((seq &&& 0x7) <<< 2)) :=
  (sizedResponse dst seq tpci).tpci_frame

theorem ackNumber_ack (dst : IndividualAddress) (seq : UInt8) :
    ackNumber (.standard (response dst seq 0xc2)) = some (seq &&& 0x7) := by
  rw [ackNumber, response_tpci]
  revert seq
  exact Octets.forall_octet (by decide +kernel)

theorem ackNumber_disconnect (dst : IndividualAddress) :
    ackNumber (.standard (response dst 0 0x81)) = none := by
  rw [ackNumber, response_tpci]
  decide

theorem acksTo_ack (a : IndividualAddress) (seq : UInt8) :
    acksTo a [.standard (response a seq 0xc2)] = [seq &&& 0x7] := by
  have hto : SentTo a (.standard (response a seq 0xc2)) = true := by
    rw [SentTo, response_dstAddr]
    exact decide_eq_true rfl
  rw [acksTo, List.filter_cons_of_pos hto, List.filter_nil,
    List.filterMap_cons_some (ackNumber_ack a seq), List.filterMap_nil]

theorem acksTo_disconnect (a dst : IndividualAddress) :
    acksTo a [.standard (response dst 0 0x81)] = [] := by
  rw [acksTo, List.filterMap_eq_nil_iff]
  intro g hg
  rw [List.mem_singleton.mp (List.mem_filter.mp hg).1]
  exact ackNumber_disconnect dst

theorem toNat_and_seven (x : UInt8) : (x &&& 0x7).toNat = x.toNat % 8 := by
  revert x
  exact Octets.forall_octet (by decide +kernel)

end EmbassyKnx.App
