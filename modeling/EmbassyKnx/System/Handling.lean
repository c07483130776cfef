import EmbassyKnx.Common.Contract
import EmbassyKnx.Transport.Borrow
import EmbassyKnx.Transport.Reachable
import EmbassyKnx.Application.GroupRead
import EmbassyKnx.Application.GroupResponse
import EmbassyKnx.System.Protocols

/-!
# The contract of the application task

A turn of `TransportLayer::receive` under interruption: what it has done of one connection
step at each of its operations. `Handling` records the frame of the turn and the
connection in front of it; the contract says that the turn comes to `connStep` of both, and
that the only frame it sends is the response of the action.

* `meets_receiveTurn`: a turn of `receive`.
* `meets_respond`: the answer to a group read.
-/

namespace EmbassyKnx

open Rust Async App

/-- The service of the connection, if it is one. -/
def IndividualService.forConnection : IndividualService → Option ConnectionService
  | .connection service => some service
  | _ => none

/-- The service of the connection that `receive_ind` takes the frame for. -/
def connectionService (f : Frame) : Option ConnectionService :=
  match f.dstAddr, f.tpci .eight with
  | .ok (.individual _), .ok tpci => (individualService tpci).forConnection
  | _, _ => none

/-- A frame is all there is to a frame that can be read. -/
theorem SizedFrame.eq_of_frame {x y : SizedFrame} (h : x.frame = y.frame) : x = y := by
  cases x
  cases y
  cases h
  rfl

section Service

variable {x : SizedFrame}

theorem connectionService_individual {dst : IndividualAddress}
    (hdst : x.dstAddr = .individual dst) :
    connectionService x.frame = (individualService x.tpci).forConnection := by
  simp only [connectionService, x.dstAddr_frame, x.tpci_frame, hdst]

theorem connectionService_group {addr : GroupAddress} (hdst : x.dstAddr = .group addr) :
    connectionService x.frame = none := by
  simp only [connectionService, x.dstAddr_frame, hdst]

end Service

/-- The device may answer the frame: a group read, a T_Connect or a T_Data_Connected. -/
def Answerable (f : Frame) : Prop :=
  IsGroupRead f ∨ connectionService f = some .connect ∨ connectionService f = some .dataConnected

instance (f : Frame) : Decidable (Answerable f) := inferInstanceAs (Decidable (_ ∨ _))

/-- How many of the frames may be answered. -/
def answerable (fs : List Frame) : ℕ := fs.countP (Answerable ·)

theorem answerable_append (fs fs' : List Frame) :
    answerable (fs ++ fs') = answerable fs + answerable fs' :=
  List.countP_append

/-! ## A turn of `receive` -/

/-- What an action makes of the connection, one assignment after the other. -/
def App.Action.stages (c : Connection) (x : SizedFrame) : Action → List Connection
  | .a1 => [{ c with state := .openIdle }, opened c x.srcAddr]
  | .a2 =>
    [{ c with connectionTimeout := Connection.armed },
      { c with connectionTimeout := Connection.armed, seqNoRecv := c.seqNoRecv + 1 }]
  | .a3 => [{ c with connectionTimeout := Connection.armed }]
  | .a5 => [{ c with state := .closed }, { c with state := .closed, connectionTimeout := none }]
  | .a6 => [{ c with state := .closed }, { c with state := .closed, connectionTimeout := none }]
  | .a10 => []
  | .ignore => []

/-- The action that the frame `y` calls for in the connection `c` makes `c'` of it. -/
def App.Makes (p : Profile) (c : Connection) (y : Frame) (c' : Connection) : Prop :=
  ∃ (x : SizedFrame) (s : ConnectionService) (a : Action), y = x.frame ∧
    connectionService y = some s ∧ stepAction p c s x = .ok a ∧ c' ∈ a.stages c x

/-- What has happened in a turn. -/
structure Handling where
  /-- The frame that has come. -/
  frame : Option Frame
  /-- The connection when it came. -/
  before : Connection
  now : Connection
  /-- The outcome of the allocation. -/
  block : Option Bool
  /-- The frames that have been put into `FRAME_CHANNEL_RX`. -/
  queued : List Frame

namespace Handling

/-- In front of the inner `select`. -/
def start (c : Connection) : Handling := ⟨none, c, c, none, []⟩

/-- The frame is the response of the action that the turn's frame calls for. -/
def Owes (p : Profile) (g : Handling) (f : Frame) : Prop :=
  ∃ (x : SizedFrame) (s : ConnectionService) (a : App.Action) (r : StandardFrame),
    g.frame = some x.frame ∧ connectionService x.frame = some s ∧
      stepAction p g.before s x = .ok a ∧ a.response g.before x = some r ∧ f = .standard r ∧
        g.now = a.interim g.before ∧ g.block = some true

/-- The frame of the turn is for the connection. -/
def ForConnection (g : Handling) : Prop :=
  ∃ f s, g.frame = some f ∧ connectionService f = some s

/-- The turn may make `c` of the connection. -/
def Assigns (p : Profile) (g : Handling) (c : Connection) : Prop :=
  ∃ y, g.frame = some y ∧ Makes p g.before y c

theorem Assigns.forConnection {p : Profile} {g : Handling} {c : Connection} (h : g.Assigns p c) :
    g.ForConnection := by
  obtain ⟨y, hframe, x, s, a, -, hs, -⟩ := h
  exact ⟨y, s, hframe, hs⟩

/-- The frames that the turn may still send, or make another part send. -/
def owed (g : Handling) : ℕ := if g.queued = [] then answerable g.frame.toList else 0

/-- What the turn may do. -/
def Allows (p : Profile) (g : Handling) : AppOp → Prop
  | .setConnection c => g.Assigns p c
  | .frameChannelRxSend f => g.Owes p f ∧ g.queued = []
  | .conSignalWait => ∃ f, g.Owes p f ∧ g.queued = [f]
  | .selectFrameOrTick _ => ∃ c, g = start c
  | _ => True

/-- The connection is free, no other task changes it, and the header of a frame can be read. -/
def Answers (g : Handling) : (o : AppOp) → appSig.Ret o → Prop
  | .borrowMut, free => free = true
  | .getConnection, c => c = g.now
  | .selectFrameOrTick _, .inl f => f.Sized
  | _, _ => True

/-- What has happened behind an operation. -/
def next (g : Handling) : (o : AppOp) → appSig.Ret o → Handling
  | .alloc, block => { g with block := some block }
  | .setConnection c, _ => { g with now := c }
  | .frameChannelRxSend f, _ => { g with queued := g.queued ++ [f] }
  | .selectFrameOrTick _, .inl f => { g with frame := some f }
  | _, _ => g

/-- The connection step of the frame overflows. -/
def Overflows (p : Profile) (g : Handling) (why : Panic) : Prop :=
  ∃ (x : SizedFrame) (s : ConnectionService) (block : Bool), g.frame = some x.frame ∧
    connectionService x.frame = some s ∧ connStep p g.before s x block = .error why

/-- The end of a turn with the result `r` of its statement: a frame for the connection has taken
    one connection step, any other has left the connection as it was. -/
structure Over (p : Profile) (g : Handling) (r : IndResult) : Prop where
  step : ∀ (x : SizedFrame) (s : ConnectionService), g.frame = some x.frame →
    connectionService x.frame = some s →
      ∃ block, connStep p g.before s x block = .ok ⟨g.now, g.queued, r⟩
  pass : ¬g.ForConnection → g.now = g.before ∧ g.queued = []
  group : ∀ f, r = .ok (some (.dataGroup f)) → g.frame = some f ∧ g.queued = [] ∧ f.Sized ∧
    networkInd f = .ok (.dataGroup f) ∧ f.tpci .six = .ok 0

end Handling

/-- The contract of a turn of `receive`. -/
def receiveContract (p : Profile) : Contract appSig Handling where
  allows := Handling.Allows p
  answers := Handling.Answers
  next := Handling.next
  panics := Handling.Overflows p

namespace App

section Turn

variable {p : Profile} {α : Type} {post : Handling → α → Prop} {g : Handling}

theorem meets_getConnection {k : Connection → Task α}
    (hk : Meets (receiveContract p) post g (k g.now)) :
    Meets (receiveContract p) post g (getConnection >>= k) := by
  refine ⟨trivial, ?_⟩
  rintro c rfl
  exact hk

theorem meets_modifyConnection {f : Connection → Connection} {k : Unit → Task α}
    (hg : g.Assigns p (f g.now))
    (hk : Meets (receiveContract p) post { g with now := f g.now } (k ())) :
    Meets (receiveContract p) post g (modifyConnection f >>= k) :=
  meets_getConnection ⟨hg, fun _ _ => hk⟩

theorem meets_withBorrow {x : Task α} (hx : Meets (receiveContract p) post g x) :
    Meets (receiveContract p) post g (withBorrow x) := by
  refine ⟨trivial, ?_⟩
  rintro _ rfl
  show Meets (receiveContract p) post g (x >>= fun a => releaseMut >>= fun _ => pure a)
  exact meets_bind hx fun g a ha => ⟨trivial, fun _ _ => ha⟩

/-! ### Actions -/

section Action

variable {x : SizedFrame} {s : ConnectionService} {c now : Connection} {a : Action}

/-- A response is sent, or there is no block for it. -/
def Sent (x : SizedFrame) (c now : Connection) (frame : StandardFrame) (g : Handling) :
    FrameResult Unit → Prop
  | .ok () => g = ⟨some x.frame, c, now, some true, [.standard frame]⟩
  | .error e => g = ⟨some x.frame, c, now, some false, []⟩ ∧ e = .outOfMemory

theorem meets_sendResponseFrame {dst : IndividualAddress} {seq tpci : UInt8}
    (howes : ∀ queued, Handling.Owes p ⟨some x.frame, c, now, some true, queued⟩
      (.standard (response dst seq tpci))) :
    Meets (receiveContract p) (Sent x c now (response dst seq tpci))
      ⟨some x.frame, c, now, none, []⟩ (sendResponseFrame p dst seq tpci) := by
  have halloc : Meets (receiveContract p)
      (fun g block => g = ⟨some x.frame, c, now, some block, []⟩)
      ⟨some x.frame, c, now, none, []⟩ alloc :=
    ⟨trivial, fun block _ => rfl⟩
  refine meets_bind halloc ?_
  rintro _ block rfl
  cases block with
  | false => exact meets_ok_bind (responseFrame_outOfMemory p dst seq tpci) ⟨rfl, rfl⟩
  | true =>
    refine meets_ok_bind (responseFrame_eq p dst seq tpci) ?_
    exact ⟨trivial, fun _ _ => ⟨⟨howes _, rfl⟩, fun _ _ => ⟨⟨_, howes _, rfl⟩, fun _ _ => rfl⟩⟩⟩

/-- The action `a` on the frame `x` has been carried out. -/
def Acted (p : Profile) (c : Connection) (x : SizedFrame) (a : Action) (g : Handling)
    (r : IndResult) : Prop :=
  ∃ now block queued b, g = ⟨some x.frame, c, now, block, queued⟩ ∧
    act p c x b a = .ok ⟨now, queued, r⟩

/-- An action that sends a response, and goes on with `k` if there is a block for it. -/
theorem meets_sending {dst : IndividualAddress} {seq tpci : UInt8} {k : Task IndResult}
    (howes : ∀ queued, Handling.Owes p ⟨some x.frame, c, now, some true, queued⟩
      (.standard (response dst seq tpci)))
    (hfull : act p c x false a = .ok ⟨now, [], .error .outOfMemory⟩)
    (hk : Meets (receiveContract p) (Acted p c x a)
      ⟨some x.frame, c, now, some true, [.standard (response dst seq tpci)]⟩ k) :
    Meets (receiveContract p) (Acted p c x a) ⟨some x.frame, c, now, none, []⟩
      (tryThen (sendResponseFrame p dst seq tpci) k) := by
  refine meets_tryThen (meets_sendResponseFrame howes) ?_ ?_
  · rintro g e ⟨rfl, rfl⟩
    exact ⟨_, _, _, false, rfl, hfull⟩
  · rintro g rfl
    exact hk

/-- An action on a frame for the connection. -/
theorem meets_runAction (hs : connectionService x.frame = some s)
    (ha : stepAction p c s x = .ok a) :
    Meets (receiveContract p) (Acted p c x a) ⟨some x.frame, c, c, none, []⟩
      (runAction p x.frame a) := by
  have howes (r : StandardFrame) (hr : a.response c x = some r) (queued : List Frame) :
      Handling.Owes p ⟨some x.frame, c, a.interim c, some true, queued⟩ (.standard r) :=
    ⟨x, s, a, r, rfl, hs, ha, hr, rfl, rfl, rfl⟩
  have hx {now c' : Connection} {block : Option Bool} {queued : List Frame}
      (hc' : c' ∈ a.stages c x) : Handling.Assigns p ⟨some x.frame, c, now, block, queued⟩ c' :=
    ⟨x.frame, rfl, x, s, a, rfl, hs, ha, hc'⟩
  have hfirst {c₁ : Connection} {cs : List Connection} : c₁ ∈ c₁ :: cs := List.mem_cons_self
  have hsecond {c₁ c₂ : Connection} : c₂ ∈ [c₁, c₂] := List.mem_cons_of_mem _ List.mem_cons_self
  cases a with
  | a1 =>
    refine meets_modifyConnection (hx hfirst)
      (meets_ok_bind x.srcAddr_frame (meets_modifyConnection (hx hsecond) ?_))
    exact ⟨_, _, _, false, rfl, rfl⟩
  | a2 =>
    refine meets_ok_bind x.srcAddr_frame (meets_getConnection ?_)
    refine meets_sending (howes _ rfl) rfl
      (meets_modifyConnection (hx hfirst) (meets_getConnection ?_))
    refine meets_lift_bind ?_ ?_
    · intro seqNoRecv hseq
      have hseq : u8Add p c.seqNoRecv 1 = .ok seqNoRecv := hseq
      obtain rfl := u8Add_ok hseq
      refine meets_modifyConnection (hx hsecond) ⟨_, _, _, true, rfl, ?_⟩
      simp only [act, sending, hseq]
      rfl
    · intro why hwhy
      have hwhy : u8Add p c.seqNoRecv 1 = .error why := hwhy
      refine ⟨x, s, true, rfl, hs, ?_⟩
      simp only [connStep, ha, ok_bind, act, sending, hwhy]
      rfl
  | a3 =>
    refine meets_ok_bind x.srcAddr_frame (meets_ok_bind x.tpciSeq_frame ?_)
    refine meets_sending (howes _ rfl) rfl (meets_modifyConnection (hx hfirst) ?_)
    exact ⟨_, _, _, true, rfl, rfl⟩
  | a5 =>
    refine meets_modifyConnection (hx hfirst) (meets_modifyConnection (hx hsecond) ?_)
    exact ⟨_, _, _, false, rfl, rfl⟩
  | a6 =>
    refine meets_modifyConnection (hx hfirst) (meets_ok_bind x.srcAddr_frame ?_)
    refine meets_sending (howes _ rfl) rfl (meets_modifyConnection (hx hsecond) ?_)
    exact ⟨_, _, _, true, rfl, rfl⟩
  | a10 =>
    refine meets_ok_bind x.srcAddr_frame ?_
    refine meets_sending (howes _ rfl) rfl ?_
    exact ⟨_, _, _, true, rfl, rfl⟩
  | ignore => exact ⟨_, _, _, false, rfl, rfl⟩

end Action

/-- `handle_ind` takes the connection step of the frame. -/
theorem meets_handleInd {x : SizedFrame} {s : ConnectionService} {c : Connection}
    (hs : connectionService x.frame = some s) :
    Meets (receiveContract p) (Handling.Over p) ⟨some x.frame, c, c, none, []⟩
      (handleInd p (s.ind x.frame)) := by
  refine meets_getConnection ?_
  show Meets _ _ _ (liftM (c.eventOf p (s.ind x.frame)) >>= _)
  rw [eventOf_eq]
  cases hevent : eventFor p c s x with
  | error why =>
    refine ⟨x, s, true, rfl, hs, ?_⟩
    simp only [connStep, stepAction, hevent]
    rfl
  | ok event =>
    have ha : stepAction p c s x = .ok (actionOf (c.state = .closed) event) := by
      simp only [stepAction, hevent]
      rfl
    show Meets _ _ _ (handleEvent p event x.frame)
    rw [handleEvent_eq]
    refine meets_getConnection ((meets_runAction hs ha).mono ?_)
    rintro _ r ⟨now, block, queued, b, rfl, hact⟩
    refine ⟨?_, ?_, ?_⟩
    · intro y s' hy hs'
      obtain rfl : x = y := SizedFrame.eq_of_frame (Option.some.inj hy)
      obtain rfl : s = s' := Option.some.inj (hs.symm.trans hs')
      refine ⟨b, ?_⟩
      simp only [connStep, ha, ok_bind, hact]
    · intro hnot
      exact absurd ⟨x.frame, s, rfl, hs⟩ hnot
    · intro f hf
      exact absurd hf (act_ne_dataGroup hact f)

/-! ### Receiving -/

/-- The end of a turn with a frame that is not for the connection. -/
theorem Handling.over_pass {x : SizedFrame} {c : Connection} {r : IndResult}
    (hs : connectionService x.frame = none)
    (hr : ∀ f, r = .ok (some (.dataGroup f)) →
      f = x.frame ∧ networkInd f = .ok (.dataGroup f) ∧ f.tpci .six = .ok 0) :
    Handling.Over p ⟨some x.frame, c, c, none, []⟩ r := by
  refine ⟨?_, fun _ => ⟨rfl, rfl⟩, ?_⟩
  · intro y s hy hs'
    obtain rfl := SizedFrame.eq_of_frame (Option.some.inj hy)
    exact absurd (hs.symm.trans hs') (by simp)
  · rintro f hf
    obtain ⟨rfl, hnet, htpci⟩ := hr f hf
    exact ⟨rfl, rfl, x.sized, hnet, htpci⟩

theorem meets_receiveArm (x : SizedFrame) (c : Connection) :
    Meets (receiveContract p) (Handling.Over p) ⟨some x.frame, c, c, none, []⟩
      (receiveArm p (.inl x.frame)) := by
  cases hdst : x.dstAddr with
  | individual dst =>
    have hservice := connectionService_individual hdst
    refine meets_ok_bind (networkInd_of_individual hdst) (meets_ok_bind x.tpci_frame ?_)
    cases hs : individualService x.tpci with
    | dataIndividual =>
      rw [hs] at hservice
      exact Handling.over_pass hservice (by simp)
    | connection s =>
      rw [hs] at hservice
      exact meets_withBorrow (meets_handleInd hservice)
    | invalidTpdu =>
      rw [hs] at hservice
      exact Handling.over_pass hservice (by simp)
  | group addr =>
    have hservice := connectionService_group hdst
    have hnet := networkInd_of_group hdst
    refine meets_ok_bind hnet ?_
    split_ifs with haddr
    · refine meets_ok_bind x.tpci_six_frame ?_
      split_ifs
      · exact Handling.over_pass hservice (by simp)
      · exact Handling.over_pass hservice (by simp)
    · rw [if_neg haddr] at hnet
      refine meets_ok_bind x.tpci_six_frame ?_
      split_ifs with hzero
      · refine Handling.over_pass hservice ?_
        intro f hf
        simp only [Except.ok.injEq, Option.some.injEq, TransportServiceInd.dataGroup.injEq] at hf
        subst hf
        exact ⟨rfl, hnet, hzero ▸ x.tpci_six_frame⟩
      · exact Handling.over_pass hservice (by simp)
      · exact Handling.over_pass hservice (by simp)

theorem meets_receiveStatement (c : Connection) :
    Meets (receiveContract p) (Handling.Over p) (.start c) (receiveStatement p) := by
  refine meets_withBorrow (meets_getConnection ⟨⟨c, rfl⟩, ?_⟩)
  rintro (f | _) hf
  · exact meets_receiveArm ⟨f, hf⟩ c
  · refine meets_withBorrow ⟨?_, fun _ => ⟨rfl, rfl⟩, ?_⟩
    · intro x s hx
      simp [receiveContract, Handling.next, Handling.start] at hx
    · simp

/-- The end of a turn, with what it returns. -/
def TurnOver (p : Profile) (g : Handling) (o : Option (FrameResult TransportServiceInd)) : Prop :=
  ∃ r, o = turnResult r ∧ g.Over p r

/-- A turn of `receive` comes to one connection step at most. -/
theorem meets_receiveTurn (p : Profile) (c : Connection) :
    Meets (receiveContract p) (TurnOver p) (.start c) (receiveTurn p) :=
  meets_bind (meets_receiveStatement c) fun _ r h => ⟨r, rfl, h⟩

end Turn

/-! ## The answer to a group read -/

/-- The response of the main task. -/
def mainResponse : ApplicationServiceRes :=
  .groupValueRead (.new 0 (.b1 (.new true)) .normal)

/-- The frame it is sent in: `true` to 1/1/98. -/
def groupReply : StandardFrame where
  buf :=
    { toList := groupResponse (.b1 (.new true)) .normal (.fromParts 1 1 98)
      length_le := by decide }

/-- How far an answer is. -/
inductive AnswerStage
  | idle
  /-- There is no block for it. -/
  | starved
  | built
  | queued

/-- What an answer may do. -/
def AnswerStage.Allows (g : AnswerStage) : AppOp → Prop
  | .alloc => g = .idle
  | .conSignalReset => g = .built
  | .frameChannelRxSend f => g = .built ∧ f = .standard groupReply
  | .conSignalWait => g = .queued
  | _ => False

/-- The stage behind an operation. -/
def AnswerStage.next (g : AnswerStage) : (o : AppOp) → appSig.Ret o → AnswerStage
  | .alloc, block => if block then .built else .starved
  | .frameChannelRxSend _, _ => .queued
  | _, _ => g

/-- The frames that it may still send. -/
def AnswerStage.owed : AnswerStage → ℕ
  | .queued => 0
  | _ => 1

/-- The contract of an answer: it panics without a block. -/
def answerContract : Contract appSig AnswerStage where
  allows := AnswerStage.Allows
  answers _ _ _ := True
  next := AnswerStage.next
  panics g why := g = .starved ∧ why = .explicit

theorem meets_networkSend {frame : Frame} (h : frame = .standard groupReply) :
    Meets answerContract (fun _ _ => True) .built (networkSend (.dataGroup frame)) :=
  ⟨rfl, fun _ _ => ⟨⟨rfl, h⟩, fun _ _ => ⟨rfl, fun _ _ => trivial⟩⟩⟩

/-- The answer of the main task is sent as `groupReply`. -/
theorem meets_respond (p : Profile) :
    Meets answerContract (fun _ _ => True) .idle (respond p mainResponse) := by
  have halloc : Meets answerContract
      (fun g block => g = if block then .built else .starved) .idle alloc :=
    ⟨rfl, fun _ _ => rfl⟩
  refine meets_bind halloc ?_
  rintro _ block rfl
  cases block with
  | false => exact meets_ok_bind (GroupReadResponse.toTransport_false p _ 0) ⟨rfl, rfl⟩
  | true =>
    obtain ⟨req, f, hreq, hinfo, hdata⟩ :=
      infoFrame_toTransport p 0 0 (.b1 (.new true)) .normal (.fromParts 1 1 98)
    refine meets_ok_bind hreq (meets_ok_bind hinfo (meets_networkSend ?_))
    obtain ⟨⟨octets, hle⟩⟩ := f
    cases hdata
    rfl

end App

end EmbassyKnx
