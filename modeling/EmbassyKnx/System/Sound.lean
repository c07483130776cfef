import EmbassyKnx.System.Contracts
import EmbassyKnx.System.Handling
import EmbassyKnx.System.Outline
import Mathlib.Data.List.Forall2

/-!
# The contracts of the tasks together

What holds of the whole system because every task keeps to its contract. The application
task drops `transport.receive()` wherever it waits, and begins it anew with the next frame:
the connection still goes through one attempt after the other, one for each frame for it.

* `Sound.step`: what a step of any task keeps.
* `Sends.sound_of`: it holds along every run, for every relation that attempts keep.
* `Reachable.sound`: so it holds of all that the system can come to.
-/

namespace EmbassyKnx

open Rust Async App FrameLayout FrameReader

/-- The header of the frame goes up to its APCI. -/
theorem SizedFrame.exists_apci (f : SizedFrame) : ∃ apci, f.frame.apci .four = .ok apci := by
  obtain ⟨frame | frame, h⟩ := f
  · have hlen : 8 ≤ (data frame).length := h
    show ∃ apci, FrameReader.apci frame .four = .ok apci
    rw [FrameReader.apci, index_eq_octetAt (by show 6 < _; omega),
      index_eq_octetAt (by show 7 < _; omega)]
    exact ⟨_, rfl⟩
  · have hlen : 9 ≤ (data frame).length := h
    show ∃ apci, FrameReader.apci frame .four = .ok apci
    rw [FrameReader.apci, index_eq_octetAt (by show 7 < _; omega),
      index_eq_octetAt (by show 8 < _; omega)]
    exact ⟨_, rfl⟩

/-! ## The record of the connection -/

/-- The frames for the connection, with their services. -/
def connectionFrames (fs : List Frame) : List (Frame × ConnectionService) :=
  fs.filterMap fun f => (connectionService f).map (f, ·)

/-- The frames that an attempt puts into `FRAME_CHANNEL_RX`. -/
def App.Attempt.sent (t : Attempt) : List Frame := t.after.queued.drop t.before.queued.length

/-- A relation between the frames that have been taken, the replies to them and the connection. -/
abbrev Account := List Frame → List Frame → Connection → Prop

/-- Attempts at connection steps keep the relation, one for each frame that is for the connection. -/
structure Account.Kept (p : Profile) (R : Account) : Prop where
  pass : ∀ {fs out : List Frame} {c : Connection} {f : Frame}, R fs out c →
    connectionService f = none → R (fs ++ [f]) out c
  attempt : ∀ {fs out : List Frame} {t : Attempt}, R fs out t.before.connection → t.Happens p →
    connectionService t.frame.frame = some t.service →
      R (fs ++ [t.frame.frame]) (out ++ t.sent) t.after.connection

/-- The connection has gone through one attempt for each of the frames that is for it, and the
    attempts have sent `out`. -/
def Attempted (p : Profile) : Account := fun fs out c =>
  ∃ ts : List Attempt, History p .new ts c ∧
    ts.map (fun t => (t.frame.frame, t.service)) = connectionFrames fs ∧
      ts.flatMap Attempt.sent = out

theorem connectionFrames_append (fs fs' : List Frame) :
    connectionFrames (fs ++ fs') = connectionFrames fs ++ connectionFrames fs' :=
  List.filterMap_append

theorem attempted_nil (p : Profile) : Attempted p [] [] .new := ⟨[], .nil _, rfl, rfl⟩

theorem kept_attempted (p : Profile) : Account.Kept p (Attempted p) where
  pass := by
    rintro fs out c f ⟨ts, hhistory, hts, hout⟩ hnone
    refine ⟨ts, hhistory, ?_, hout⟩
    rw [connectionFrames_append, hts]
    simp [connectionFrames, hnone]
  attempt := by
    rintro fs out t ⟨ts, hhistory, hts, hout⟩ ht hservice
    refine ⟨ts ++ [t], hhistory.concat ht rfl, ?_, ?_⟩
    · rw [connectionFrames_append, List.map_append, hts]
      simp [connectionFrames, hservice]
    · rw [List.flatMap_append, hout]
      simp

/-- The turn is in front of its frame, or in the send of its response. -/
def Handling.Paused (p : Profile) (g : Handling) : Prop :=
  (∃ c, g = .start c) ∨ ∃ f, g.Owes p f ∧ (g.queued = [] ∨ g.queued = [f])

section Account

variable {p : Profile} {R : Account} {fs out : List Frame} {g : Handling}

/-- A frame that is not for the connection. -/
theorem Account.Kept.forward (hR : Account.Kept p R) {c : Connection} (h : R fs out c)
    (hnot : ¬g.ForConnection) : R (fs ++ g.frame.toList) out c := by
  cases hframe : g.frame with
  | none =>
    rw [Option.toList_none, List.append_nil]
    exact h
  | some f =>
    cases hservice : connectionService f with
    | none => exact hR.pass h hservice
    | some s => exact absurd ⟨f, s, hframe, hservice⟩ hnot

/-- A turn that is over. -/
theorem Account.Kept.over (hR : Account.Kept p R) (h : R fs out g.before) {r : IndResult}
    (hover : g.Over p r) (hsized : ∀ f, g.frame = some f → f.Sized) :
    R (fs ++ g.frame.toList) (out ++ g.queued) g.now := by
  by_cases hconnection : g.ForConnection
  · obtain ⟨f, s, hframe, hs⟩ := hconnection
    obtain ⟨block, hstep⟩ := hover.step ⟨f, hsized f hframe⟩ s hframe hs
    let before : Station := ⟨g.before, false, block, [], []⟩
    let t : Attempt := ⟨before, s, ⟨f, hsized f hframe⟩, .returned r,
      before.after ⟨g.now, g.queued, r⟩⟩
    have happens : t.Happens p := Attempt.happens_of_step hstep rfl rfl
    rw [hframe]
    exact hR.attempt (t := t) h happens hs
  · obtain ⟨hnow, hqueued⟩ := hover.pass hconnection
    rw [hnow, hqueued, List.append_nil]
    exact hR.forward h hconnection

/-- A turn that is dropped where it waits: in front of its frame, or in a send. -/
theorem Account.Kept.dropped (hR : Account.Kept p R) (h : R fs out g.before) (hpaused : g.Paused p) :
    R (fs ++ g.frame.toList) (out ++ g.queued) g.now := by
  rcases hpaused with ⟨c, rfl⟩ | ⟨f, ⟨x, s, a, r, hframe, hs, ha, hr, rfl, hnow, -⟩, hqueued⟩
  · show R (fs ++ []) (out ++ []) c
    rw [List.append_nil, List.append_nil]
    exact h
  · let before : Station := ⟨g.before, false, true, [], []⟩
    rw [hnow, hframe]
    rcases hqueued with hqueued | hqueued
    · let t : Attempt := ⟨before, s, x, .dropped (.frameChannelRxSend (.standard r)),
        { before with connection := a.interim g.before }⟩
      have happens : t.Happens p := drops_handleInd.mpr ⟨a, r, ha, hr, rfl, .inl ⟨rfl, rfl⟩⟩
      rw [hqueued]
      exact hR.attempt (t := t) h happens hs
    · let t : Attempt := ⟨before, s, x, .dropped .conSignalWait,
        { before with connection := a.interim g.before, queued := [.standard r] }⟩
      have happens : t.Happens p := drops_handleInd.mpr ⟨a, r, ha, hr, rfl, .inr ⟨rfl, rfl⟩⟩
      rw [hqueued]
      exact hR.attempt (t := t) h happens hs

end Account

/-! ## Replies -/

/-- `f` is what the connection answers to the frame `y`: a T_ACK with its number, or a
    T_Disconnect, to its sender. -/
def IsReplyTo (y f : Frame) : Prop :=
  ∃ (x : SizedFrame) (s : ConnectionService) (r : StandardFrame), y = x.frame ∧
    connectionService y = some s ∧ f = .standard r ∧
      (s = .dataConnected ∧ r = response x.srcAddr x.tpciSeq 0xc2 ∨
        (s = .connect ∨ s = .dataConnected) ∧ r = response x.srcAddr 0 0x81)

theorem reply_of_stepAction {p : Profile} {c : Connection} {s : ConnectionService} {x : SizedFrame}
    {a : App.Action} {r : StandardFrame} (ha : stepAction p c s x = .ok a)
    (hr : a.response c x = some r) :
    s = .dataConnected ∧ r = response x.srcAddr x.tpciSeq 0xc2 ∨
      (s = .connect ∨ s = .dataConnected) ∧ r = response x.srcAddr 0 0x81 := by
  have hcondition := stepAction_condition ha
  cases a with
  | a2 =>
    obtain ⟨-, -, hs, hseq⟩ := hcondition
    obtain rfl := Option.some.inj hr
    rw [hseq]
    exact .inl ⟨hs, rfl⟩
  | a3 => exact .inl ⟨hcondition.2.2, (Option.some.inj hr).symm⟩
  | a6 => exact .inr ⟨.inl hcondition.2.2, (Option.some.inj hr).symm⟩
  | a10 =>
    refine .inr ⟨?_, (Option.some.inj hr).symm⟩
    obtain ⟨event, hevent, haction⟩ := (bind_eq_ok_iff _).mp ha
    have hevent := eventFor_condition hevent
    cases event with
    | connectReqSameAddressE00 => exact .inl hevent.2
    | connectReqNewAddressE01 => exact .inl hevent
    | dataConnectedE04 => exact .inr hevent.2.1
    | dataConnectedE05 => exact .inr hevent.2
    | _ =>
      exfalso
      revert haction
      cases decide (c.state = .closed) <;> decide
  | a1 => simp [Action.response] at hr
  | a5 => simp [Action.response] at hr
  | ignore => simp [Action.response] at hr

/-- It is not the answer to a group read. -/
theorem IsReplyTo.ne_groupReply {y f : Frame} (h : IsReplyTo y f) : f ≠ .standard groupReply := by
  rintro rfl
  obtain ⟨x, s, r, -, -, hr, ⟨-, rfl⟩ | ⟨-, rfl⟩⟩ := h
  · have hlen : 9 = 8 := congrArg (fun f => f.data.length) hr
    omega
  · have hlen : 9 = 8 := congrArg (fun f => f.data.length) hr
    omega

/-- What the connection has sent of `log`. -/
def replies (log : List Frame) : List Frame := log.filter (· ≠ .standard groupReply)

theorem replies_answer (log : List Frame) :
    replies (log ++ [.standard groupReply]) = replies log := by
  simp [replies]

theorem IsReplyTo.replies {y f : Frame} (h : IsReplyTo y f) (log : List Frame) :
    replies (log ++ [f]) = EmbassyKnx.replies log ++ [f] := by
  simp [EmbassyKnx.replies, h.ne_groupReply]

/-- The frames `out` answer some of the frames `ys`, each of them once and in their order. -/
def InOrder (ys out : List Frame) : Prop :=
  List.SublistForall₂ (fun f y => IsReplyTo y f) out ys

section Order

variable {ys ys' out : List Frame} {y f : Frame}

theorem InOrder.mono (h : InOrder ys out) (hsub : ys.Sublist ys') : InOrder ys' out := by
  obtain ⟨questions, hall, hquestions⟩ := List.sublistForall₂_iff.mp h
  exact List.sublistForall₂_iff.mpr ⟨questions, hall, hquestions.trans hsub⟩

/-- A reply to a frame behind the others. -/
theorem InOrder.reply (h : InOrder ys out) (hreply : IsReplyTo y f) :
    InOrder (ys ++ [y]) (out ++ [f]) := by
  obtain ⟨questions, hall, hquestions⟩ := List.sublistForall₂_iff.mp h
  exact List.sublistForall₂_iff.mpr ⟨questions ++ [y], List.rel_append hall (.cons hreply .nil),
    hquestions.append (.refl _)⟩

end Order

section Attempts

variable {p : Profile}

theorem act_sent {c : Connection} {x : SizedFrame} {block : Bool} {a : App.Action} {r : StepResult}
    (h : act p c x block a = .ok r) :
    r.sent = [] ∨ ∃ f, a.response c x = some f ∧ r.sent = [.standard f] := by
  have hsending {c' : Connection} {f : StandardFrame}
      {done : Panicking (Connection × Option TransportServiceInd)}
      (h : sending block c' f done = .ok r) : r.sent = [] ∨ r.sent = [.standard f] := by
    obtain ⟨-, c'', ind, -, rfl⟩ | ⟨-, rfl⟩ := sending_ok h
    · exact .inr rfl
    · exact .inl rfl
  cases a with
  | a2 => exact (hsending h).imp_right fun hsent => ⟨_, rfl, hsent⟩
  | a3 => exact (hsending h).imp_right fun hsent => ⟨_, rfl, hsent⟩
  | a6 => exact (hsending h).imp_right fun hsent => ⟨_, rfl, hsent⟩
  | a10 => exact (hsending h).imp_right fun hsent => ⟨_, rfl, hsent⟩
  | a1 =>
    cases h
    exact .inl rfl
  | a5 =>
    cases h
    exact .inl rfl
  | ignore =>
    cases h
    exact .inl rfl

/-- An attempt sends nothing, or a reply to its frame. -/
theorem attempt_sent {t : Attempt} (ht : t.Happens p)
    (hservice : connectionService t.frame.frame = some t.service) :
    t.sent = [] ∨ ∃ f, t.sent = [f] ∧ IsReplyTo t.frame.frame f := by
  have hreply {a : App.Action} {f : StandardFrame}
      (ha : stepAction p t.before.connection t.service t.frame = .ok a)
      (hf : a.response t.before.connection t.frame = some f) :
      IsReplyTo t.frame.frame (.standard f) :=
    ⟨t.frame, t.service, f, rfl, hservice, rfl, reply_of_stepAction ha hf⟩
  cases hending : t.ending with
  | returned result =>
    obtain ⟨r, hstep, hafter, -⟩ := ht.returned hending
    obtain ⟨a, ha, hact⟩ := connStep_ok hstep
    have hsent : t.sent = r.sent := by
      rw [Attempt.sent, hafter]
      exact List.drop_left
    rw [hsent]
    obtain hnone | ⟨f, hf, hone⟩ := act_sent hact
    · exact .inl hnone
    · exact .inr ⟨_, hone, hreply ha hf⟩
  | dropped o =>
    obtain ⟨a, f, ha, hf, -, ⟨-, hafter⟩ | ⟨-, hafter⟩⟩ := drops_handleInd.mp (ht.dropped hending)
    · refine .inl ?_
      rw [Attempt.sent, hafter]
      exact List.drop_length
    · refine .inr ⟨_, ?_, hreply ha hf⟩
      rw [Attempt.sent, hafter]
      exact List.drop_left

/-- What the attempts of a history have sent is in the order of their frames. -/
theorem App.History.inOrder {c c' : Connection} {ts : List Attempt} (h : History p c ts c')
    (hservice : ∀ t ∈ ts, connectionService t.frame.frame = some t.service) :
    InOrder (ts.map fun t => t.frame.frame) (ts.flatMap Attempt.sent) := by
  induction h with
  | nil c => exact List.SublistForall₂.nil
  | @cons t ts c ht _ ih =>
    obtain ⟨hfirst, hrest⟩ := List.forall_mem_cons.mp hservice
    rw [List.map_cons, List.flatMap_cons]
    obtain hnone | ⟨f, hone, hreply⟩ := attempt_sent ht hfirst
    · rw [hnone]
      exact (ih hrest).cons_right
    · rw [hone]
      exact (ih hrest).cons hreply

theorem connectionFrames_sublist (fs : List Frame) :
    ((connectionFrames fs).map Prod.fst).Sublist fs := by
  induction fs with
  | nil => exact .refl _
  | cons f fs ih =>
    cases hservice : connectionService f with
    | none => simpa [connectionFrames, hservice] using ih.cons f
    | some s => simpa [connectionFrames, hservice] using ih

theorem Attempted.inOrder {fs out : List Frame} {c : Connection} (h : Attempted p fs out c) :
    InOrder fs out := by
  obtain ⟨ts, hhistory, hts, rfl⟩ := h
  have hservice : ∀ t ∈ ts, connectionService t.frame.frame = some t.service := by
    intro t ht
    have hmem : (t.frame.frame, t.service) ∈ connectionFrames fs := by
      rw [← hts]
      exact List.mem_map_of_mem ht
    obtain ⟨y, -, hy⟩ := List.mem_filterMap.mp hmem
    obtain ⟨s, hs, hy⟩ := Option.map_eq_some_iff.mp hy
    obtain ⟨rfl, rfl⟩ := Prod.mk.inj hy
    exact hs
  have horder := hhistory.inOrder hservice
  have hframes : ts.map (fun t => t.frame.frame) = (connectionFrames fs).map Prod.fst := by
    rw [← hts, List.map_map]
    rfl
  rw [hframes] at horder
  exact horder.mono (connectionFrames_sublist fs)

end Attempts

/-- The answer to a group read, or a reply to one of the frames. -/
def IsTraffic (fs : List (ℕ × Frame)) (f : Frame) : Prop :=
  f = .standard groupReply ∨ ∃ y ∈ fs, IsReplyTo y.2 f

section Replies

variable {fs : List (ℕ × Frame)} {f : Frame}

theorem IsTraffic.append (h : IsTraffic fs f) (fs' : List (ℕ × Frame)) :
    IsTraffic (fs ++ fs') f := by
  rcases h with h | ⟨y, hy, h⟩
  · exact .inl h
  · exact .inr ⟨y, List.mem_append_left fs' hy, h⟩

/-- Traffic is short. -/
theorem IsTraffic.sendable (h : IsTraffic fs f) : Sendable f := by
  rcases h with rfl | ⟨y, -, x, s, r, -, -, rfl, ⟨-, rfl⟩ | ⟨-, rfl⟩⟩
  · decide
  · exact ⟨Nat.succ_pos 7, Nat.le_add_right 8 56⟩
  · exact ⟨Nat.succ_pos 7, Nat.le_add_right 8 56⟩

theorem IsTraffic.sized (h : IsTraffic fs f) : f.Sized := by
  rcases h with rfl | ⟨y, -, x, s, r, -, -, rfl, ⟨-, rfl⟩ | ⟨-, rfl⟩⟩
  · decide
  · exact Nat.le_refl 8
  · exact Nat.le_refl 8

/-- Its last octet is a placeholder for the checksum. -/
theorem IsTraffic.last (h : IsTraffic fs f) :
    octetAt f.data (f.data.length - 1) = 0 := by
  rcases h with rfl | ⟨y, -, x, s, r, -, -, rfl, ⟨-, rfl⟩ | ⟨-, rfl⟩⟩
  · decide
  · rfl
  · rfl

/-- What the application task may send in a turn is a reply to the frame of the turn. -/
theorem Handling.Owes.isReplyTo {p : Profile} {g : Handling} (h : g.Owes p f) :
    ∃ y, g.frame = some y ∧ IsReplyTo y f := by
  obtain ⟨x, s, a, r, hframe, hs, ha, hr, rfl, -, -⟩ := h
  exact ⟨x.frame, hframe, x, s, r, rfl, hs, rfl, reply_of_stepAction ha hr⟩

end Replies

/-- The answers to group reads. -/
def groupAnswers (log : List Frame) : ℕ := log.count (.standard groupReply)

theorem groupAnswers_answer (log : List Frame) :
    groupAnswers (log ++ [.standard groupReply]) = groupAnswers log + 1 := by
  simp [groupAnswers]

theorem IsReplyTo.groupAnswers {y f : Frame} (h : IsReplyTo y f) (log : List Frame) :
    groupAnswers (log ++ [f]) = groupAnswers log := by
  simp [EmbassyKnx.groupAnswers, h.ne_groupReply]

/-- All that has been put into `FRAME_CHANNEL_RX` is traffic, and `queue` is the end of it. -/
structure Logged (fs : List (ℕ × Frame)) (queue : List (ℕ × Frame)) (log : List Frame) : Prop where
  traffic : ∀ f ∈ log, IsTraffic fs f
  waiting : queue.map Prod.snd <:+ log

section Logs

variable {fs queue : List (ℕ × Frame)} {log : List Frame} {x : ℕ × Frame}

theorem Logged.mem (h : Logged fs queue log) (hx : x ∈ queue) : IsTraffic fs x.2 :=
  h.traffic _ (h.waiting.subset (List.mem_map_of_mem hx))

/-- The driver takes a frame. -/
theorem Logged.pop (h : Logged fs (x :: queue) log) : Logged fs queue log :=
  ⟨h.traffic, (List.suffix_cons _ _).trans h.waiting⟩

/-- The application task puts a frame. -/
theorem Logged.push (h : Logged fs queue log) (htraffic : IsTraffic fs x.2) :
    Logged fs (queue ++ [x]) (log ++ [x.2]) where
  traffic f hf := by
    rcases List.mem_append.mp hf with hf | hf
    · exact h.traffic f hf
    · obtain rfl := List.mem_singleton.mp hf
      exact htraffic
  waiting := by
    obtain ⟨before, hlog⟩ := h.waiting
    refine ⟨before, ?_⟩
    rw [List.map_append, ← List.append_assoc, hlog]
    rfl

/-- It takes a frame. -/
theorem Logged.append (h : Logged fs queue log) (fs' : List (ℕ × Frame)) :
    Logged (fs ++ fs') queue log :=
  ⟨fun f hf => (h.traffic f hf).append fs', h.waiting⟩

end Logs

/-! ## The invariant -/

/-- The turn has sent nothing, or the reply to its frame. -/
def Handling.Replies (g : Handling) : Prop :=
  g.queued = [] ∨ ∃ y f, g.frame = some y ∧ g.queued = [f] ∧ IsReplyTo y f

/-- A frame that is replied to is for the connection. -/
theorem IsReplyTo.forConnection {g : Handling} {y f : Frame} (h : IsReplyTo y f)
    (hframe : g.frame = some y) : g.ForConnection := by
  obtain ⟨x, s, r, -, hs, -, -⟩ := h
  exact ⟨y, s, hframe, hs⟩

/-- The responses that the main task is about to send. -/
def MainTask.owed : MainTask → ℕ
  | .receive => 0
  | .send _ _ => 1

namespace System

/-- The application task is in a turn of `receive`; `fs` are the frames it has taken, `before` those
    it has taken in front of the turn, `log` those it has sent and `answered` the number of responses
    that it has taken. -/
structure InTurn (p : Profile) (R : Account) (c : Connection) (frame : Option (ℕ × Frame))
    (fs : List (ℕ × Frame)) (log : List Frame) (answered : ℕ) (g : Handling) (before : List Frame) :
    Prop where
  now : g.now = c
  frame : g.frame = frame.map Prod.snd
  taken : fs.map Prod.snd = before ++ g.frame.toList
  recorded : ∃ out, R before out g.before ∧ replies log = out ++ g.queued
  queued : g.Replies
  assigned : g.Assigns p g.now ∨ g.now = g.before
  answers : groupAnswers log ≤ answered

/-- It is in no turn: the connection is behind the last of the frames. -/
structure Settled (R : Account) (c : Connection) (fs : List (ℕ × Frame)) (log : List Frame)
    (answered : ℕ) : Prop where
  recorded : R (fs.map Prod.snd) (replies log) c
  answers : groupAnswers log ≤ answered

/-- What the application task does where it is; `owed` are the frames that it may still send for
    what it has taken. -/
def AppSound (p : Profile) (R : Account) (c : Connection) (frame : Option (ℕ × Frame))
    (fs : List (ℕ × Frame)) (owed : ℕ) (log : List Frame) (answered : ℕ) : AppControl → Prop
  | .select x => ∃ (g : Handling) (before : List Frame),
      Meets (receiveContract p) (TurnOver p) g x ∧
        InTurn p R c frame fs log answered g before ∧ owed = g.owed
  | .indicate x =>
      (x = .done () ∧ owed = 0 ∨ x = .perform (.txSend (.groupValueRead 0)) .done ∧ owed = 1) ∧
        Settled R c fs log answered
  | .take => owed = 0 ∧ Settled R c fs log answered
  | .respond x => Settled R c fs log answered ∧ groupAnswers log + owed ≤ answered ∧
      ∃ g, Meets answerContract (fun _ _ => True) g x ∧ owed = g.owed

/-- The tasks keep to their contracts; `fs` are the frames that have been taken from
    `FRAME_CHANNEL_TX`, and `log` those that have been put into `FRAME_CHANNEL_RX`. -/
structure Sound (p : Profile) (R : Account) (s : System) (fs : List (ℕ × Frame)) (owed : ℕ)
    (log : List Frame) : Prop where
  delivered : s.delivered = fs ++ s.frameChannelTx
  received : ∀ x ∈ s.delivered, ∃ b dst, Driver.ReceivedAs p b dst x.2
  sent : log.length = s.sent
  traffic : Logged fs s.frameChannelRx log
  driver : Driver.Completes p s.driver.rest
  response : ∀ x ∈ s.serviceChannelTx, x.2 = mainResponse
  main : ∀ n res, s.main = .send n res → res = mainResponse
  count : s.sent + owed + s.serviceChannelRx.length + s.main.owed + s.serviceChannelTx.length ≤
    answerable (fs.map Prod.snd)
  app : AppSound p R s.connection s.app.frame fs owed log s.answered.length s.app.control

/-- What a step puts into `FRAME_CHANNEL_RX`. -/
def put (s s' : System) : List Frame :=
  if s'.sent = s.sent then [] else (s'.frameChannelRx.getLast?.map Prod.snd).toList

/-- A run, with all that it puts into `FRAME_CHANNEL_RX`. -/
inductive Sends (p : Profile) : System → List Frame → Prop
  | start : Sends p (initial p) []
  | step {s s' : System} {log : List Frame} : Sends p s log → Step p s s' →
      Sends p s' (log ++ put s s')

section Steps

variable {p : Profile} {R : Account} {e : Env} {s s' : System} {fs : List (ℕ × Frame)}
  {owed : ℕ} {log : List Frame}

theorem sound_initial (p : Profile) (hnil : R [] [] .new) : Sound p R (initial p) [] 0 [] where
  delivered := rfl
  received := by simp [initial]
  sent := rfl
  traffic := ⟨List.forall_mem_nil _, List.suffix_refl _⟩
  driver := Driver.meets_runIteration p .idle
  response := by simp [initial]
  main := by simp [initial]
  count := Nat.le_refl 0
  app := ⟨.start .new, [], meets_receiveTurn p .new,
    ⟨rfl, rfl, rfl, ⟨[], hnil, rfl⟩, .inl rfl, .inr rfl, Nat.le_refl 0⟩, rfl⟩

/-- A step that does not send. -/
theorem Sound.silent (h : Sound p R s' fs owed log) (hsent : s'.sent = s.sent) :
    Sound p R s' fs owed (log ++ put s s') := by
  rw [put, if_pos hsent, List.append_nil]
  exact h

/-- A step that sends. -/
theorem Sound.sending {n : ℕ} {f : Frame} (h : Sound p R s' fs owed (log ++ [f]))
    (hsent : s'.sent = s.sent + 1) (hlast : s'.frameChannelRx.getLast? = some (n, f)) :
    Sound p R s' fs owed (log ++ put s s') := by
  have hput : put s s' = [f] := by simp [put, hsent, hlast]
  rw [hput]
  exact h

theorem Sound.sent_concat (h : Sound p R s fs owed log) (f : Frame) :
    (log ++ [f]).length = s.sent + 1 := by
  rw [List.length_append, h.sent]
  rfl

/-! ### The driver -/

/-- A step of the driver that leaves the queues. -/
theorem Sound.driven (h : Sound p R s fs owed log) (driver : DriverTask) (free : ℕ)
    (conSignal : Option (Option ℕ × ConStatus)) (hdriver : Driver.Completes p driver.rest) :
    Sound p R { s with driver, free, conSignal } fs owed
      (log ++ put s { s with driver, free, conSignal }) :=
  .silent { h with driver := hdriver } rfl

theorem Sound.stepDriver (h : Sound p R s fs owed log) (hstep : stepDriver p e s = some s') :
    Sound p R s' fs owed (log ++ put s s') := by
  have hdriver := h.driver
  unfold System.stepDriver at hstep
  cases hrest : s.driver.rest with
  | done phase =>
    rw [hrest] at hstep
    cases hstep
    exact h.driven _ _ _ (Driver.meets_runIteration p phase)
  | panicked why =>
    rw [hrest] at hstep
    simp at hstep
  | perform o resume =>
    rw [hrest] at hstep hdriver
    obtain ⟨⟨r, s₁⟩, hreply, hs'⟩ := Option.map_eq_some_iff.mp hstep
    subst hs'
    obtain ⟨hallows, hresume⟩ := hdriver
    cases o with
    | alloc =>
      simp only [driverReply] at hreply
      split_ifs at hreply
      · cases hreply
        exact h.driven _ _ _ (hresume _ trivial)
      · cases hreply
        exact h.driven _ _ _ (hresume _ trivial)
    | read =>
      obtain ⟨r', -, hr⟩ := Option.map_eq_some_iff.mp hreply
      cases hr
      exact h.driven _ _ _ (hresume _ trivial)
    | readWithTimeout =>
      cases hreply
      exact h.driven _ _ _ (hresume _ trivial)
    | write octet =>
      cases hreply
      exact h.driven _ _ _ (hresume _ trivial)
    | selectReadOrRequest =>
      simp only [driverReply] at hreply
      cases hoctet : e.octet with
      | some octet =>
        rw [hoctet] at hreply
        cases hreply
        exact h.driven _ _ _ (hresume _ trivial)
      | none =>
        rw [hoctet] at hreply
        simp only at hreply
        split_ifs at hreply
        cases hreply
        exact h.driven _ _ _ (hresume _ trivial)
    | frameChannelRxReceive =>
      simp only [driverReply] at hreply
      rcases hqueue : s.frameChannelRx with _ | ⟨⟨n, f⟩, rest⟩
      · rw [hqueue] at hreply
        simp at hreply
      · rw [hqueue] at hreply
        cases hreply
        have htraffic := h.traffic
        rw [hqueue] at htraffic
        have hfirst := htraffic.mem List.mem_cons_self
        exact .silent { h with traffic := htraffic.pop, driver := hresume _ hfirst.sendable } rfl
    | frameChannelTxSend f =>
      simp only [driverReply] at hreply
      split_ifs at hreply
      cases hreply
      refine .silent { h with delivered := ?_, received := ?_, driver := hresume _ trivial } rfl
      · show s.delivered ++ _ = fs ++ (s.frameChannelTx ++ _)
        rw [h.delivered, List.append_assoc]
      · intro x hx
        rcases List.mem_append.mp hx with hx | hx
        · exact h.received x hx
        · obtain rfl := List.mem_singleton.mp hx
          exact hallows
    | conSignal status =>
      cases hreply
      exact h.driven _ _ _ (hresume _ trivial)

/-! ### The application task -/

/-- What is not owed any more. -/
theorem Sound.count_le (h : Sound p R s fs owed log) {owed' : ℕ} (hle : owed' ≤ owed) :
    s.sent + owed' + s.serviceChannelRx.length + s.main.owed + s.serviceChannelTx.length ≤
      answerable (fs.map Prod.snd) := by
  have hcount := h.count
  omega

/-- A step of the application task that leaves the queues. -/
theorem Sound.handled (h : Sound p R s fs owed log) (app : AppTask) (free : ℕ)
    (conSignal : Option (Option ℕ × ConStatus)) (c : Connection) {owed' : ℕ} (hle : owed' ≤ owed)
    (happ : AppSound p R c app.frame fs owed' log s.answered.length app.control) :
    Sound p R { s with app, free, conSignal, connection := c } fs owed'
      (log ++ put s { s with app, free, conSignal, connection := c }) :=
  .silent { h with count := h.count_le hle, app := happ } rfl

/-- The task begins its loop anew. -/
theorem Sound.leave (h : Sound p R s fs owed log)
    (hsettled : Settled R s.connection fs log s.answered.length) :
    Sound p R (s.leave (.select (receiveTurn p))) fs 0
      (log ++ put s (s.leave (.select (receiveTurn p)))) := by
  apply h.handled _ _ _ _ (Nat.zero_le _)
  exact ⟨.start s.connection, fs.map Prod.snd, meets_receiveTurn p _,
    ⟨rfl, rfl, (List.append_nil _).symm, ⟨_, hsettled.recorded, (List.append_nil _).symm⟩,
      .inl rfl, .inr rfl, hsettled.answers⟩, rfl⟩

theorem Sound.received_sized (h : Sound p R s fs owed log) : ∀ x ∈ s.delivered, x.2.Sized := by
  intro x hx
  obtain ⟨b, dst, hreceived⟩ := h.received x hx
  exact hreceived.sized

/-- The frame of a turn has been delivered. -/
theorem Sound.frame_sized (h : Sound p R s fs owed log) {g : Handling} {before : List Frame}
    (hturn : InTurn p R s.connection s.app.frame fs log s.answered.length g before) {f : Frame}
    (hf : g.frame = some f) : f.Sized := by
  have hmem : f ∈ fs.map Prod.snd := by simp [hturn.taken, hf]
  obtain ⟨x, hx, rfl⟩ := List.mem_map.mp hmem
  exact h.received_sized x (by rw [h.delivered]; exact List.mem_append_left _ hx)

/-- An operation of a turn that has no reply waits. -/
theorem paused_of_reply {g : Handling} {o : AppOp} (hallows : g.Allows p o)
    (hreply : appReply e o s = none) : g.Paused p := by
  cases o with
  | frameChannelRxSend f => exact .inr ⟨f, hallows.1, .inl hallows.2⟩
  | conSignalWait =>
    obtain ⟨f, howes, hqueued⟩ := hallows
    exact .inr ⟨f, howes, .inr hqueued⟩
  | selectFrameOrTick timer => exact .inl hallows
  | alloc =>
    simp only [appReply] at hreply
    split_ifs at hreply
  | borrowMut => simp [appReply] at hreply
  | releaseMut => simp [appReply] at hreply
  | getConnection => simp [appReply] at hreply
  | setConnection c => simp [appReply] at hreply
  | conSignalReset => simp [appReply] at hreply

/-- The future of `transport.receive()` is dropped where it waits. -/
theorem InTurn.dropped (hR : Account.Kept p R) {c : Connection} {frame : Option (ℕ × Frame)}
    {answered : ℕ} {g : Handling} {before : List Frame}
    (hturn : InTurn p R c frame fs log answered g before) (hpaused : g.Paused p) :
    Settled R c fs log answered := by
  obtain ⟨out, hrecord, hreplies⟩ := hturn.recorded
  refine ⟨?_, hturn.answers⟩
  rw [hturn.taken, ← hturn.now, hreplies]
  exact hR.dropped hrecord hpaused

/-- A turn owes a frame to what it replies to. -/
theorem owed_of_reply {g : Handling} {f : Frame} (howes : g.Owes p f) (hqueued : g.queued = []) :
    g.owed = 1 := by
  obtain ⟨y, hframe, x, service, r, rfl, hservice, -, hr⟩ := howes.isReplyTo
  have hanswerable : Answerable x.frame := by
    rcases hr with ⟨rfl, -⟩ | ⟨rfl | rfl, -⟩
    · exact .inr (.inr hservice)
    · exact .inr (.inl hservice)
    · exact .inr (.inr hservice)
  rw [Handling.owed, if_pos hqueued, hframe]
  simp [answerable, hanswerable]

/-- An operation of a turn of `transport.receive()`. -/
theorem Sound.receive (h : Sound p R s fs owed log) {g : Handling} {before : List Frame} {o : AppOp}
    {resume : appSig.Ret o → App.Task (Option (FrameResult TransportServiceInd))}
    (hmeets : Meets (receiveContract p) (TurnOver p) g (.perform o resume))
    (hturn : InTurn p R s.connection s.app.frame fs log s.answered.length g before)
    (howed : owed = g.owed) {r : appSig.Ret o} (hreply : appReply e o s = some (r, s')) :
    ∃ fs' owed', fs <+: fs' ∧ Sound p R { s' with app.control := .select (resume r) } fs' owed'
      (log ++ put s { s' with app.control := .select (resume r) }) := by
  obtain ⟨hallows, hresume⟩ := hmeets
  have ⟨hnow, hframe, htaken, hrecord, hone, hassigned, hanswers⟩ := hturn
  subst howed
  cases o with
  | alloc =>
    simp only [appReply] at hreply
    split_ifs at hreply
    · cases hreply
      exact ⟨fs, _, List.prefix_refl _, h.handled _ _ _ _ (Nat.le_refl _)
        ⟨_, before, hresume _ trivial,
          ⟨hnow, hframe, htaken, hrecord, hone, hassigned, hanswers⟩, rfl⟩⟩
    · cases hreply
      exact ⟨fs, _, List.prefix_refl _, h.handled _ _ _ _ (Nat.le_refl _)
        ⟨_, before, hresume _ trivial,
          ⟨hnow, hframe, htaken, hrecord, hone, hassigned, hanswers⟩, rfl⟩⟩
  | borrowMut =>
    cases hreply
    exact ⟨fs, _, List.prefix_refl _, h.handled _ _ _ _ (Nat.le_refl _)
      ⟨_, before, hresume _ rfl, hturn, rfl⟩⟩
  | releaseMut =>
    cases hreply
    exact ⟨fs, _, List.prefix_refl _, h.handled _ _ _ _ (Nat.le_refl _)
      ⟨_, before, hresume _ trivial, hturn, rfl⟩⟩
  | getConnection =>
    cases hreply
    exact ⟨fs, _, List.prefix_refl _, h.handled _ _ _ _ (Nat.le_refl _)
      ⟨_, before, hresume _ hnow.symm, hturn, rfl⟩⟩
  | setConnection c =>
    cases hreply
    exact ⟨fs, _, List.prefix_refl _, h.handled _ _ _ _ (Nat.le_refl _)
      ⟨_, before, hresume _ trivial,
        ⟨rfl, hframe, htaken, hrecord, hone, .inl hallows, hanswers⟩, rfl⟩⟩
  | conSignalReset =>
    cases hreply
    exact ⟨fs, _, List.prefix_refl _, h.handled _ _ _ _ (Nat.le_refl _)
      ⟨_, before, hresume _ trivial, hturn, rfl⟩⟩
  | frameChannelRxSend f =>
    simp only [appReply] at hreply
    split_ifs at hreply
    cases hreply
    obtain ⟨howes, hqueued⟩ := hallows
    obtain ⟨y, hy, hreply⟩ := howes.isReplyTo
    have htraffic : IsTraffic fs f := by
      have hmem : y ∈ fs.map Prod.snd := by simp [htaken, hy]
      obtain ⟨z, hz, rfl⟩ := List.mem_map.mp hmem
      exact .inr ⟨z, hz, hreply⟩
    have hrecord' : ∃ out, R before out g.before ∧
        replies (log ++ [f]) = out ++ (g.queued ++ [f]) := by
      obtain ⟨out, hout, hreplies⟩ := hrecord
      refine ⟨out, hout, ?_⟩
      rw [hreply.replies, hreplies, List.append_assoc]
    have hanswers' : groupAnswers (log ++ [f]) ≤ s.answered.length := by
      rw [hreply.groupAnswers]
      exact hanswers
    refine ⟨fs, 0, List.prefix_refl _, .sending (n := s.sent) { h with
      sent := h.sent_concat f, traffic := h.traffic.push htraffic, count := ?_,
      app := ⟨_, before, hresume _ trivial,
        ⟨hnow, hframe, htaken, hrecord', .inr ⟨y, f, hy, ?_, hreply⟩, hassigned, hanswers'⟩, ?_⟩ }
      rfl List.getLast?_concat⟩
    · have hcount := h.count
      rw [owed_of_reply howes hqueued] at hcount
      show s.sent + 1 + 0 + s.serviceChannelRx.length + s.main.owed + s.serviceChannelTx.length ≤ _
      omega
    · show g.queued ++ [f] = [f]
      rw [hqueued, List.nil_append]
    · exact (if_neg (by simp [receiveContract, Handling.next, hqueued])).symm
  | conSignalWait =>
    simp only [appReply] at hreply
    rcases hsignal : s.conSignal with _ | ⟨n, status⟩
    · rw [hsignal] at hreply
      simp at hreply
    · rw [hsignal] at hreply
      cases hreply
      exact ⟨fs, _, List.prefix_refl _, h.handled _ _ _ _ (Nat.le_refl _)
        ⟨_, before, hresume _ trivial, hturn, rfl⟩⟩
  | selectFrameOrTick timer =>
    obtain ⟨c, rfl⟩ := hallows
    have hfs : fs.map Prod.snd = before := htaken.trans (List.append_nil _)
    simp only [appReply] at hreply
    rcases hqueue : s.frameChannelTx with _ | ⟨⟨n, f⟩, rest⟩
    · rw [hqueue] at hreply
      simp only at hreply
      split_ifs at hreply
      cases hreply
      exact ⟨fs, _, List.prefix_refl _, h.handled _ _ _ _ (Nat.le_refl _)
        ⟨_, before, hresume _ trivial, hturn, rfl⟩⟩
    · rw [hqueue] at hreply
      cases hreply
      have hdelivered := h.delivered
      rw [hqueue] at hdelivered
      have hsized : f.Sized := h.received_sized (n, f) (by simp [hdelivered])
      have htaken : (fs ++ [(n, f)]).map Prod.snd = before ++ [f] := by
        rw [List.map_append, hfs]
        rfl
      refine ⟨fs ++ [(n, f)], answerable [f], List.prefix_append _ _, .silent { h with
        delivered := ?_, traffic := h.traffic.append _, count := ?_,
        app := ⟨_, before, hresume _ hsized,
          ⟨hnow, rfl, htaken, hrecord, .inl rfl, .inr rfl, hanswers⟩, rfl⟩ } rfl⟩
      · show s.delivered = fs ++ [(n, f)] ++ rest
        rw [hdelivered, List.append_assoc]
        rfl
      · have hcount : s.sent + 0 + s.serviceChannelRx.length + s.main.owed +
            s.serviceChannelTx.length ≤ answerable (fs.map Prod.snd) := h.count
        have hsum : answerable ((fs ++ [(n, f)]).map Prod.snd) =
            answerable (fs.map Prod.snd) + answerable [f] := by
          rw [htaken, ← hfs, answerable_append]
        show s.sent + answerable [f] + s.serviceChannelRx.length + s.main.owed +
          s.serviceChannelTx.length ≤ answerable ((fs ++ [(n, f)]).map Prod.snd)
        omega

/-- `self.receive` does not panic on a frame that can be read, and indicates a group read. -/
theorem applicationReceive_cases {r : FrameResult TransportServiceInd}
    (hsized : ∀ f, r = .ok (.dataGroup f) → f.Sized) :
    applicationReceive r = .done () ∨
      applicationReceive r = .perform (.txSend (.groupValueRead 0)) .done ∧
        ∃ f, r = .ok (.dataGroup f) ∧ f.apci .four = .ok 0 := by
  rcases r with e | ind
  · exact .inl rfl
  cases ind with
  | dataGroup f =>
    obtain ⟨apci, hapci⟩ := SizedFrame.exists_apci ⟨f, hsized f rfl⟩
    rw [applicationReceive_ok hapci]
    split_ifs with hzero
    · subst hzero
      exact .inr ⟨rfl, f, rfl, hapci⟩
    · exact .inl rfl
  | _ => exact .inl rfl

theorem Sound.stepSelect {x : App.Task (Option (FrameResult TransportServiceInd))}
    (hR : Account.Kept p R) (h : Sound p R s fs owed log) (hcontrol : s.app.control = .select x)
    (hstep : stepSelect p e s x = some s') :
    ∃ fs' owed', fs <+: fs' ∧ Sound p R s' fs' owed' (log ++ put s s') := by
  have happ := h.app
  rw [hcontrol] at happ
  obtain ⟨g, before, hmeets, hturn, howed⟩ := happ
  cases x with
  | done result =>
    obtain ⟨r, hr, hover⟩ := hmeets
    obtain ⟨out, hout, hreplies⟩ := hturn.recorded
    have hrecord := hR.over hout hover fun f hf => h.frame_sized hturn hf
    rw [← hturn.taken, hturn.now, ← hreplies] at hrecord
    have hsettled : Settled R s.connection fs log s.answered.length := ⟨hrecord, hturn.answers⟩
    cases result with
    | none =>
      cases hstep
      exact ⟨fs, 0, List.prefix_refl _, h.leave hsettled⟩
    | some frame =>
      cases hstep
      have hgroup (f : Frame) (hf : frame = .ok (.dataGroup f)) : r = .ok (some (.dataGroup f)) := by
        subst hf
        rcases r with e | _ | ind
        · simp [turnResult] at hr
        · simp [turnResult] at hr
        · simpa [turnResult] using hr.symm
      obtain hdone | ⟨hperform, f, hf, hapci⟩ :=
        applicationReceive_cases fun f hf => (hover.group f (hgroup f hf)).2.2.1
      · exact ⟨fs, 0, List.prefix_refl _,
          h.handled _ _ _ _ (Nat.zero_le _) ⟨.inl ⟨hdone, rfl⟩, hsettled⟩⟩
      · obtain ⟨hframe, hqueued, -, hnet, htpci⟩ := hover.group f (hgroup f hf)
        have hread : Answerable f := .inl ⟨hnet, htpci, hapci⟩
        have hone : owed = 1 := by
          rw [howed, Handling.owed, if_pos hqueued, hframe]
          simp [answerable, hread]
        exact ⟨fs, 1, List.prefix_refl _,
          h.handled _ _ _ _ (Nat.le_of_eq hone.symm) ⟨.inr ⟨hperform, rfl⟩, hsettled⟩⟩
  | panicked why => simp [System.stepSelect] at hstep
  | perform o resume =>
    simp only [System.stepSelect] at hstep
    rcases hreply : appReply e o s with _ | ⟨r, s₁⟩
    · rw [hreply] at hstep
      simp only at hstep
      split_ifs at hstep
      cases hstep
      have hsettled := hturn.dropped hR (paused_of_reply hmeets.1 hreply)
      exact ⟨fs, 0, List.prefix_refl _, h.handled _ _ _ _ (Nat.zero_le _) ⟨rfl, hsettled⟩⟩
    · rw [hreply] at hstep
      cases hstep
      exact h.receive hmeets hturn howed hreply

theorem Sound.stepIndicate {x : Async applicationSig Unit} (h : Sound p R s fs owed log)
    (hcontrol : s.app.control = .indicate x) (hstep : stepIndicate p s x = some s') :
    Sound p R s' fs 0 (log ++ put s s') := by
  have happ := h.app
  rw [hcontrol] at happ
  obtain ⟨⟨rfl, -⟩ | ⟨rfl, rfl⟩, hsettled⟩ := happ
  · cases hstep
    exact h.leave hsettled
  · simp only [System.stepIndicate] at hstep
    split_ifs at hstep
    cases hstep
    refine .silent { h with count := ?_, app := ⟨.inl ⟨rfl, rfl⟩, hsettled⟩ } rfl
    have hcount := h.count
    simp only [List.length_append, List.length_singleton]
    omega

theorem Sound.stepTake (h : Sound p R s fs owed log) (hcontrol : s.app.control = .take)
    (hstep : stepTake p s = some s') : Sound p R s' fs 1 (log ++ put s s') := by
  have happ := h.app
  rw [hcontrol] at happ
  obtain ⟨rfl, hsettled⟩ := happ
  unfold System.stepTake at hstep
  rcases hqueue : s.serviceChannelTx with _ | ⟨⟨n, res⟩, rest⟩
  · rw [hqueue] at hstep
    simp at hstep
  · rw [hqueue] at hstep
    cases hstep
    have hresponse := h.response
    have hcount := h.count
    rw [hqueue] at hresponse hcount
    obtain ⟨hfirst, hrest⟩ := List.forall_mem_cons.mp hresponse
    have hfirst : res = mainResponse := hfirst
    subst hfirst
    have hanswers : groupAnswers log + 1 ≤ (s.answered ++ [n]).length := by
      rw [List.length_append]
      exact Nat.add_le_add_right hsettled.answers 1
    refine .silent { h with
      response := hrest, count := ?_,
      app := ⟨⟨hsettled.recorded, Nat.le_of_succ_le hanswers⟩, hanswers, .idle,
        meets_respond p, rfl⟩ } rfl
    simp only [List.length_cons] at hcount ⊢
    omega

theorem Sound.stepRespond {x : App.Task Unit} (h : Sound p R s fs owed log)
    (hcontrol : s.app.control = .respond x) (hstep : stepRespond p e s x = some s') :
    ∃ owed', Sound p R s' fs owed' (log ++ put s s') := by
  have happ := h.app
  rw [hcontrol] at happ
  obtain ⟨hsettled, hanswers, g, hmeets, rfl⟩ := happ
  cases x with
  | done u =>
    cases hstep
    exact ⟨0, h.leave hsettled⟩
  | panicked why => simp [System.stepRespond] at hstep
  | perform o resume =>
    obtain ⟨⟨r, s₁⟩, hreply, hs'⟩ := Option.map_eq_some_iff.mp hstep
    subst hs'
    obtain ⟨hallows, hresume⟩ := hmeets
    cases o with
    | alloc =>
      have hg : g = .idle := hallows
      subst hg
      simp only [appReply] at hreply
      split_ifs at hreply
      · cases hreply
        exact ⟨1, h.handled _ _ _ _ (Nat.le_refl _) ⟨hsettled, hanswers, _, hresume _ trivial, rfl⟩⟩
      · cases hreply
        exact ⟨1, h.handled _ _ _ _ (Nat.le_refl _) ⟨hsettled, hanswers, _, hresume _ trivial, rfl⟩⟩
    | conSignalReset =>
      cases hreply
      exact ⟨_, h.handled _ _ _ _ (Nat.le_refl _) ⟨hsettled, hanswers, _, hresume _ trivial, rfl⟩⟩
    | frameChannelRxSend f =>
      obtain ⟨rfl, rfl⟩ := hallows
      simp only [appReply] at hreply
      split_ifs at hreply
      cases hreply
      have hrecord' : R (fs.map Prod.snd) (replies (log ++ [.standard groupReply]))
          s.connection := by
        rw [replies_answer]
        exact hsettled.recorded
      have hanswers' : groupAnswers (log ++ [.standard groupReply]) ≤ s.answered.length := by
        rw [groupAnswers_answer]
        exact hanswers
      refine ⟨0, .sending (n := s.sent) { h with
        sent := h.sent_concat _, traffic := h.traffic.push (.inl rfl), count := ?_,
        app := ⟨⟨hrecord', hanswers'⟩, hanswers', _, hresume _ trivial, rfl⟩ }
        rfl List.getLast?_concat⟩
      have hcount := h.count
      simp only [AnswerStage.owed] at hcount ⊢
      omega
    | conSignalWait =>
      simp only [appReply] at hreply
      rcases hsignal : s.conSignal with _ | ⟨n, status⟩
      · rw [hsignal] at hreply
        simp at hreply
      · rw [hsignal] at hreply
        cases hreply
        exact ⟨_, h.handled _ _ _ _ (Nat.le_refl _) ⟨hsettled, hanswers, _, hresume _ trivial, rfl⟩⟩
    | _ => exact absurd hallows id

/-! ### The main task -/

theorem Sound.stepMain (h : Sound p R s fs owed log) (hstep : stepMain s = some s') :
    Sound p R s' fs owed (log ++ put s s') := by
  have hcount := h.count
  unfold System.stepMain at hstep
  rcases hmain : s.main with _ | ⟨n, res⟩
  · rw [hmain] at hstep hcount
    rcases hqueue : s.serviceChannelRx with _ | ⟨⟨n, ⟨asap⟩⟩, rest⟩
    · rw [hqueue] at hstep
      simp at hstep
    · rw [hqueue] at hstep hcount
      cases hstep
      refine .silent { h with main := ?_, count := ?_ } rfl
      · intro n' res hsend
        cases hsend
        rfl
      · simp only [MainTask.owed, List.length_cons] at hcount ⊢
        omega
  · rw [hmain] at hstep hcount
    simp only at hstep
    split_ifs at hstep
    cases hstep
    refine .silent { h with response := ?_, main := nofun, count := ?_ } rfl
    · intro x hx
      rcases List.mem_append.mp hx with hx | hx
      · exact h.response x hx
      · obtain rfl := List.mem_singleton.mp hx
        exact h.main n res hmain
    · simp only [MainTask.owed, List.length_append, List.length_singleton] at hcount ⊢
      omega

/-- A step of any task. -/
theorem Sound.step {act : Action} (hR : Account.Kept p R) (h : Sound p R s fs owed log)
    (hstep : s.step p act = some s') :
    ∃ fs' owed', fs <+: fs' ∧ Sound p R s' fs' owed' (log ++ put s s') := by
  cases act with
  | poll t =>
    simp only [System.step] at hstep
    split_ifs at hstep
    cases hstep
    exact ⟨fs, owed, List.prefix_refl _, .silent { h with } rfl⟩
  | run e =>
    simp only [System.step] at hstep
    cases hrunning : s.running with
    | driver =>
      rw [hrunning] at hstep
      exact ⟨fs, owed, List.prefix_refl _, h.stepDriver hstep⟩
    | main =>
      rw [hrunning] at hstep
      exact ⟨fs, owed, List.prefix_refl _, h.stepMain hstep⟩
    | app =>
      rw [hrunning] at hstep
      simp only [stepApp] at hstep
      cases hcontrol : s.app.control with
      | select x =>
        rw [hcontrol] at hstep
        exact h.stepSelect hR hcontrol hstep
      | indicate x =>
        rw [hcontrol] at hstep
        exact ⟨fs, 0, List.prefix_refl _, h.stepIndicate hcontrol hstep⟩
      | take =>
        rw [hcontrol] at hstep
        exact ⟨fs, 1, List.prefix_refl _, h.stepTake hcontrol hstep⟩
      | respond x =>
        rw [hcontrol] at hstep
        obtain ⟨owed', hsound⟩ := h.stepRespond hcontrol hstep
        exact ⟨fs, owed', List.prefix_refl _, hsound⟩

theorem Sends.sound_of (hR : Account.Kept p R) (hnil : R [] [] .new) (h : Sends p s log) :
    ∃ fs owed, Sound p R s fs owed log := by
  induction h with
  | start => exact ⟨[], 0, sound_initial p hnil⟩
  | step _ hstep ih =>
    obtain ⟨act, hstep⟩ := hstep
    obtain ⟨fs, owed, hsound⟩ := ih
    obtain ⟨fs', owed', -, hsound'⟩ := hsound.step hR hstep
    exact ⟨fs', owed', hsound'⟩

theorem Sends.sound (h : Sends p s log) : ∃ fs owed, Sound p (Attempted p) s fs owed log :=
  h.sound_of (kept_attempted p) (attempted_nil p)

theorem Sends.reachable (h : Sends p s log) : Reachable p s := by
  induction h with
  | start => exact .refl
  | step _ hstep ih => exact ih.tail hstep

theorem Reachable.sends (h : Reachable p s) : ∃ log, Sends p s log := by
  induction h with
  | refl => exact ⟨[], .start⟩
  | tail _ hstep ih =>
    obtain ⟨log, hsends⟩ := ih
    exact ⟨_, hsends.step hstep⟩

theorem Reachable.sound (h : Reachable p s) :
    ∃ fs owed log, Sound p (Attempted p) s fs owed log := by
  obtain ⟨log, hsends⟩ := h.sends
  obtain ⟨fs, owed, hsound⟩ := hsends.sound
  exact ⟨fs, owed, log, hsound⟩

end Steps

end System

end EmbassyKnx
