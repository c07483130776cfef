import EmbassyKnx.Transport.Step

/-!
# Reachable connections

The application drops `receive` whenever something else is ready first, so a
connection is the result of steps that were completed and of steps that were
dropped where they wait. A step waits in the actions that send a frame only:
once to put it into `FRAME_CHANNEL_RX`, once for its confirmation.

* `drops_handleInd`: where a step can be dropped and what it leaves there.
* `History.preserves`: what every attempt at a step preserves holds of every
  reachable connection.
* `Attempt.Happens.leaves`: the connection behind an attempt, by its action.
* `Reachable.openInvariant`: an open connection has a peer and an armed ticker.
-/

namespace EmbassyKnx.App

open Rust Async Connection FrameLayout FrameReader

/-! ## Operations that wait -/

/-- The operation may be pending; a task can be dropped there. -/
def Waits : AppOp → Prop
  | .frameChannelRxSend _ => True
  | .conSignalWait => True
  | .selectFrameOrTick _ => True
  | _ => False

/-- The task can be dropped while it performs `o`, and leaves the station `w'`. -/
abbrev Drops {α : Type} (x : Task α) (w : Station) (o : AppOp) (w' : Station) : Prop :=
  DropsAt app Waits x w o w'

theorem neverWaits_alloc : NeverWaits app Waits alloc :=
  neverWaits_perform id fun _ => neverWaits_pure _

theorem neverWaits_getConnection : NeverWaits app Waits getConnection :=
  neverWaits_perform id fun _ => neverWaits_pure _

theorem neverWaits_modifyConnection (f : Connection → Connection) :
    NeverWaits app Waits (modifyConnection f) :=
  neverWaits_bind neverWaits_getConnection fun _ =>
    neverWaits_perform id fun _ => neverWaits_pure _

theorem neverWaits_setState (state : States) : NeverWaits app Waits (setState state) :=
  neverWaits_modifyConnection _

/-! ## Sending a response -/

/-- A send waits for room in the queue and then, with the frame in the queue, for the
    confirmation. -/
theorem drops_networkSend {frame : Frame} {w w' : Station} {o : AppOp} :
    Drops (networkSend (.dataIndividual frame)) w o w' ↔
      o = .frameChannelRxSend frame ∧ w' = w ∨
        o = .conSignalWait ∧ w' = { w with queued := w.queued ++ [frame] } := by
  show Drops (.perform .conSignalReset fun _ => .perform (.frameChannelRxSend frame) fun _ =>
    .perform .conSignalWait fun _ => .done ()) w o w' ↔ _
  simp only [Drops, dropsAt_perform, app]
  constructor
  · rintro (⟨-, -, h⟩ | ⟨_, w₁, hr, ⟨rfl, rfl, -⟩ | ⟨_, w₂, hr', ⟨rfl, rfl, -⟩ | ⟨_, w₃, -, h, -⟩⟩⟩)
    · exact absurd h id
    · cases hr
      exact .inl ⟨rfl, rfl⟩
    · cases hr
      cases hr'
      exact .inr ⟨rfl, rfl⟩
    · cases h
  · rintro (⟨rfl, rfl⟩ | ⟨rfl, rfl⟩)
    · exact .inr ⟨(), w', rfl, .inl ⟨rfl, rfl, trivial⟩⟩
    · exact .inr ⟨(), w, rfl, .inr ⟨(), _, rfl, .inl ⟨rfl, rfl, trivial⟩⟩⟩

theorem drops_sendResponseFrame {p : Profile} {dst : IndividualAddress} {seq tpci : UInt8}
    {w w' : Station} {o : AppOp} :
    Drops (sendResponseFrame p dst seq tpci) w o w' ↔ w.block = true ∧
      (o = .frameChannelRxSend (.standard (response dst seq tpci)) ∧ w' = w ∨
        o = .conSignalWait ∧
          w' = { w with queued := w.queued ++ [.standard (response dst seq tpci)] }) := by
  unfold sendResponseFrame
  obtain ⟨connection, borrowed, block, stimuli, queued⟩ := w
  rw [Drops, dropsAt_bind_right neverWaits_alloc (exec_alloc _)]
  cases block with
  | true =>
    rw [responseFrame_eq, dropsAt_bind_right (neverWaits_lift _) (exec_lift_ok _ _ _),
      and_iff_right rfl]
    exact (dropsAt_bind_left fun _ => neverWaits_pure _).trans drops_networkSend
  | false =>
    rw [responseFrame_outOfMemory, dropsAt_bind_right (neverWaits_lift _) (exec_lift_ok _ _ _)]
    exact iff_of_false (neverWaits_pure _ _ _ _) fun hd => Bool.false_ne_true hd.1

/-- An action that sends a frame and then does not wait is dropped where it sends. -/
theorem drops_tryThen_sendResponseFrame {p : Profile} {dst : IndividualAddress} {seq tpci : UInt8}
    {k : Task IndResult} (hk : NeverWaits app Waits k) {w w' : Station} {o : AppOp} :
    Drops (tryThen (sendResponseFrame p dst seq tpci) k) w o w' ↔ w.block = true ∧
      (o = .frameChannelRxSend (.standard (response dst seq tpci)) ∧ w' = w ∨
        o = .conSignalWait ∧
          w' = { w with queued := w.queued ++ [.standard (response dst seq tpci)] }) := by
  rw [← drops_sendResponseFrame (p := p), tryThen]
  refine dropsAt_bind_left ?_
  intro r
  cases r with
  | error e => exact neverWaits_pure _
  | ok u => exact hk

/-! ## Dropping a step -/

/-- The response frame an action sends. -/
def Action.response (c : Connection) (f : SizedFrame) : Action → Option StandardFrame
  | .a2 => some (App.response f.srcAddr c.seqNoRecv 0xc2)
  | .a3 => some (App.response f.srcAddr f.tpciSeq 0xc2)
  | .a6 => some (App.response f.srcAddr 0 0x81)
  | .a10 => some (App.response f.srcAddr 0 0x81)
  | _ => none

/-- The connection while an action sends its response. -/
def Action.interim (c : Connection) : Action → Connection
  | .a6 => { c with state := .closed }
  | _ => c

/-- The actions that send nothing do not wait. -/
theorem neverWaits_runAction {p : Profile} {c : Connection} {f : SizedFrame} {a : Action}
    (ha : a.response c f = none) : NeverWaits app Waits (runAction p f.frame a) := by
  cases a with
  | a1 =>
    exact neverWaits_bind (neverWaits_modifyConnection _) fun _ => neverWaits_bind (neverWaits_lift _)
      fun _ => neverWaits_bind (neverWaits_modifyConnection _) fun _ => neverWaits_pure _
  | a2 => cases ha
  | a3 => cases ha
  | a5 =>
    exact neverWaits_bind (neverWaits_modifyConnection _) fun _ =>
      neverWaits_bind (neverWaits_modifyConnection _) fun _ => neverWaits_pure _
  | a6 => cases ha
  | a10 => cases ha
  | ignore => exact neverWaits_pure _

/-- An action that sends a frame is dropped before or after it is in the queue. -/
theorem drops_runAction {p : Profile} {f : SizedFrame} {a : Action} {w w' : Station} {o : AppOp}
    {frame : StandardFrame} (ha : a.response w.connection f = some frame) :
    Drops (runAction p f.frame a) w o w' ↔ w.block = true ∧
      (o = .frameChannelRxSend (.standard frame) ∧
          w' = { w with connection := a.interim w.connection } ∨
        o = .conSignalWait ∧ w' = { w with
          connection := a.interim w.connection, queued := w.queued ++ [.standard frame] }) := by
  cases a with
  | a1 => cases ha
  | a2 =>
    obtain rfl := Option.some.inj ha
    rw [runAction, ackDataA2, f.srcAddr_frame, Drops,
      dropsAt_bind_right (neverWaits_lift _) (exec_lift_ok _ _ _),
      dropsAt_bind_right neverWaits_getConnection (exec_getConnection w)]
    refine drops_tryThen_sendResponseFrame ?_
    exact neverWaits_bind (neverWaits_modifyConnection _) fun _ =>
      neverWaits_bind neverWaits_getConnection fun _ => neverWaits_bind (neverWaits_lift _)
        fun _ => neverWaits_bind (neverWaits_modifyConnection _) fun _ => neverWaits_pure _
  | a3 =>
    obtain rfl := Option.some.inj ha
    rw [runAction, ackA3, f.srcAddr_frame, f.tpciSeq_frame, Drops,
      dropsAt_bind_right (neverWaits_lift _) (exec_lift_ok _ _ _),
      dropsAt_bind_right (neverWaits_lift _) (exec_lift_ok _ _ _)]
    exact drops_tryThen_sendResponseFrame
      (neverWaits_bind (neverWaits_modifyConnection _) fun _ => neverWaits_pure _)
  | a5 => cases ha
  | a6 =>
    obtain rfl := Option.some.inj ha
    rw [runAction, disconnectA6, Drops,
      dropsAt_bind_right (neverWaits_setState _) (exec_setState w _), f.srcAddr_frame,
      dropsAt_bind_right (neverWaits_lift _) (exec_lift_ok _ _ _)]
    exact drops_tryThen_sendResponseFrame
      (neverWaits_bind (neverWaits_modifyConnection _) fun _ => neverWaits_pure _)
  | a10 =>
    obtain rfl := Option.some.inj ha
    rw [runAction, rejectA10, f.srcAddr_frame, Drops,
      dropsAt_bind_right (neverWaits_lift _) (exec_lift_ok _ _ _)]
    exact drops_tryThen_sendResponseFrame (neverWaits_pure _)
  | ignore => cases ha

/-- A step can be dropped where its action sends a frame. -/
theorem drops_handleInd {p : Profile} {s : ConnectionService} {f : SizedFrame} {w w' : Station}
    {o : AppOp} :
    Drops (handleInd p (s.ind f.frame)) w o w' ↔ ∃ a frame,
      stepAction p w.connection s f = .ok a ∧ a.response w.connection f = some frame ∧
      w.block = true ∧
      (o = .frameChannelRxSend (.standard frame) ∧
          w' = { w with connection := a.interim w.connection } ∨
        o = .conSignalWait ∧ w' = { w with
          connection := a.interim w.connection, queued := w.queued ++ [.standard frame] }) := by
  rw [handleInd, Drops, dropsAt_bind_right neverWaits_getConnection (exec_getConnection w),
    eventOf_eq, stepAction]
  rcases eventFor p w.connection s f with why | event
  · refine iff_of_false (fun hd => not_suspends_panicked hd.1) ?_
    rintro ⟨_, _, h, -⟩
    simp at h
  · show DropsAt app Waits (handleEvent p event f.frame) w o w' ↔ _
    rw [handleEvent_eq, dropsAt_bind_right neverWaits_getConnection (exec_getConnection w), ok_bind]
    generalize actionOf (w.connection.state = .closed) event = a
    constructor
    · intro hd
      rcases hresponse : a.response w.connection f with _ | frame
      · exact absurd hd (neverWaits_runAction hresponse _ _ _)
      · exact ⟨a, frame, rfl, hresponse, (drops_runAction hresponse).mp hd⟩
    · rintro ⟨_, frame, ha, hresponse, hd⟩
      cases ha
      exact (drops_runAction hresponse).mpr hd

/-! ## Histories -/

/-- How the future of a step ends. -/
inductive Ending
  | returned (result : IndResult)
  /-- The future is dropped while it waits for the operation. -/
  | dropped (o : AppOp)
  deriving DecidableEq

/-- An attempt at a connection step, with the stations before and after it. -/
structure Attempt where
  before : Station
  service : ConnectionService
  frame : SizedFrame
  ending : Ending
  after : Station

/-- The attempt ends as `handle_ind` can end. -/
def Attempt.Happens (p : Profile) (t : Attempt) : Prop :=
  match t.ending with
  | .returned result =>
    exec app (handleInd p (t.service.ind t.frame.frame)) t.before = .returned result t.after
  | .dropped o => Drops (handleInd p (t.service.ind t.frame.frame)) t.before o t.after

/-- The attempts that lead from one connection to another. Between two attempts only the
    connection stays what it is: the queues and the pool belong to the other tasks too. -/
inductive History (p : Profile) : Connection → List Attempt → Connection → Prop
  | nil (c : Connection) : History p c [] c
  | cons {t : Attempt} {ts : List Attempt} {c : Connection} : t.Happens p →
      History p t.after.connection ts c → History p t.before.connection (t :: ts) c

/-- The connections a device can get to. -/
def Reachable (p : Profile) (c : Connection) : Prop := ∃ ts, History p .new ts c

section Histories

variable {p : Profile} {c c' : Connection} {ts : List Attempt}

/-- What the attempts of a history preserve on a condition holds all along the history. -/
theorem History.along {I : Connection → Prop} {C : Attempt → Prop}
    (hstep : ∀ t : Attempt, t.Happens p → C t → I t.before.connection → I t.after.connection)
    (h : History p c ts c') (hcond : ∀ t ∈ ts, C t) (hc : I c) :
    (∀ t ∈ ts, t.Happens p ∧ I t.before.connection ∧ I t.after.connection) ∧ I c' := by
  induction h with
  | nil c => exact ⟨List.forall_mem_nil _, hc⟩
  | cons ht _ ih =>
    obtain ⟨hhead, htail⟩ := List.forall_mem_cons.mp hcond
    have hafter := hstep _ ht hhead hc
    obtain ⟨hts, hlast⟩ := ih htail hafter
    exact ⟨List.forall_mem_cons.mpr ⟨⟨ht, hc, hafter⟩, hts⟩, hlast⟩

/-- What every attempt preserves holds at the end of a history. -/
theorem History.preserves {I : Connection → Prop}
    (hstep : ∀ t : Attempt, t.Happens p → I t.before.connection → I t.after.connection)
    (h : History p c ts c') (hc : I c) : I c' :=
  (h.along (C := fun _ => True) (fun t ht _ => hstep t ht) (fun _ _ => trivial) hc).2

/-- It holds before every attempt of a history. -/
theorem History.before {I : Connection → Prop}
    (hstep : ∀ t : Attempt, t.Happens p → I t.before.connection → I t.after.connection)
    (h : History p c ts c') (hc : I c) : ∀ t ∈ ts, t.Happens p ∧ I t.before.connection := by
  obtain ⟨hall, -⟩ := h.along (C := fun _ => True) (fun t ht _ => hstep t ht)
    (fun _ _ => trivial) hc
  intro t hmem
  obtain ⟨ht, hbefore, -⟩ := hall t hmem
  exact ⟨ht, hbefore⟩

/-- One more attempt at the end of a history. -/
theorem History.concat {t : Attempt} (h : History p c ts c') (ht : t.Happens p)
    (hbefore : t.before.connection = c') : History p c (ts ++ [t]) t.after.connection := by
  induction h with
  | nil c =>
    subst hbefore
    exact .cons ht (.nil _)
  | cons ht' _ ih => exact .cons ht' (ih hbefore)

/-- An attempt that returns is a step of the connection. -/
theorem Attempt.Happens.returned {t : Attempt} (ht : t.Happens p) {result : IndResult}
    (hending : t.ending = .returned result) :
    ∃ r, connStep p t.before.connection t.service t.frame t.before.block = .ok r ∧
      t.after = t.before.after r ∧ result = r.result := by
  unfold Attempt.Happens at ht
  rw [hending] at ht
  have hrun := exec_handleInd p t.service t.frame t.before
  rw [show exec app _ _ = _ from ht] at hrun
  rcases hstep : connStep p t.before.connection t.service t.frame t.before.block with why | r
  · rw [hstep] at hrun
    obtain ⟨w', hw'⟩ := hrun
    simp at hw'
  · rw [hstep] at hrun
    obtain ⟨hresult, hafter⟩ := Outcome.returned.inj hrun
    exact ⟨r, rfl, hafter, hresult⟩

theorem Attempt.Happens.dropped {t : Attempt} (ht : t.Happens p) {o : AppOp}
    (hending : t.ending = .dropped o) :
    Drops (handleInd p (t.service.ind t.frame.frame)) t.before o t.after := by
  unfold Attempt.Happens at ht
  rwa [hending] at ht

/-- A step that returns is an attempt. -/
theorem Attempt.happens_of_step {t : Attempt} {r : StepResult}
    (hstep : connStep p t.before.connection t.service t.frame t.before.block = .ok r)
    (hending : t.ending = .returned r.result) (hafter : t.after = t.before.after r) :
    t.Happens p := by
  unfold Attempt.Happens
  have hrun := exec_handleInd p t.service t.frame t.before
  rw [hstep] at hrun
  rw [hending, hafter]
  exact hrun

end Histories

/-! ### What an attempt leaves behind -/

/-- The connection after an action that completes. -/
def Action.completed (c : Connection) (f : SizedFrame) : Action → Connection
  | .a1 => opened c f.srcAddr
  | .a2 => { c with connectionTimeout := armed, seqNoRecv := c.seqNoRecv + 1 }
  | .a3 => { c with connectionTimeout := armed }
  | .a5 => { c with state := .closed, connectionTimeout := none }
  | .a6 => { c with state := .closed, connectionTimeout := none }
  | .a10 => c
  | .ignore => c

/-- The connection `c'` is what the action leaves of `c`, completed or stopped where it sends
    its response. -/
def Action.Leaves (c : Connection) (f : SizedFrame) (a : Action) (c' : Connection) : Prop :=
  c' = a.completed c f ∨ (∃ frame, a.response c f = some frame) ∧ c' = a.interim c

theorem act_leaves {p : Profile} {c : Connection} {f : SizedFrame} {block : Bool} {a : Action}
    {r : StepResult} (h : act p c f block a = .ok r) : a.Leaves c f r.connection := by
  cases a with
  | a1 =>
    cases h
    exact .inl rfl
  | a2 =>
    obtain ⟨-, c', ind, hdone, rfl⟩ | ⟨-, rfl⟩ := sending_ok h
    · obtain ⟨seqNoRecv, hadd, hdone⟩ := (bind_eq_ok_iff _).mp hdone
      obtain rfl := u8Add_ok hadd
      cases hdone
      exact .inl rfl
    · exact .inr ⟨⟨_, rfl⟩, rfl⟩
  | a3 =>
    obtain ⟨-, c', ind, hdone, rfl⟩ | ⟨-, rfl⟩ := sending_ok h
    · cases hdone
      exact .inl rfl
    · exact .inr ⟨⟨_, rfl⟩, rfl⟩
  | a5 =>
    cases h
    exact .inl rfl
  | a6 =>
    obtain ⟨-, c', ind, hdone, rfl⟩ | ⟨-, rfl⟩ := sending_ok h
    · cases hdone
      exact .inl rfl
    · exact .inr ⟨⟨_, rfl⟩, rfl⟩
  | a10 =>
    obtain ⟨-, c', ind, hdone, rfl⟩ | ⟨-, rfl⟩ := sending_ok h
    · cases hdone
      exact .inl rfl
    · exact .inr ⟨⟨_, rfl⟩, rfl⟩
  | ignore =>
    cases h
    exact .inl rfl

theorem Attempt.Happens.leaves {p : Profile} {t : Attempt} (ht : t.Happens p) :
    ∃ a, stepAction p t.before.connection t.service t.frame = .ok a ∧
      a.Leaves t.before.connection t.frame t.after.connection := by
  cases hending : t.ending with
  | returned result =>
    obtain ⟨r, hstep, hafter, -⟩ := ht.returned hending
    obtain ⟨a, ha, hact⟩ := connStep_ok hstep
    rw [hafter]
    exact ⟨a, ha, act_leaves hact⟩
  | dropped o =>
    obtain ⟨a, frame, ha, hframe, -, ⟨-, hafter⟩ | ⟨-, hafter⟩⟩ :=
      drops_handleInd.mp (ht.dropped hending)
    · rw [hafter]
      exact ⟨a, ha, .inr ⟨⟨frame, hframe⟩, rfl⟩⟩
    · rw [hafter]
      exact ⟨a, ha, .inr ⟨⟨frame, hframe⟩, rfl⟩⟩

/-- 1.1.1 connects to a device that has just started. -/
def Attempt.connected : Attempt where
  before := ⟨.new, false, true, [], []⟩
  service := .connect
  frame := connectRequest
  ending := .returned (.ok (some (.connect connectRequest.frame)))
  after := ⟨opened .new ⟨0x1101⟩, false, true, [], []⟩

theorem Attempt.connected_happens : Attempt.connected.Happens .dev := by
  have hstep : connStep .dev .new .connect connectRequest true =
      .ok ⟨opened .new ⟨0x1101⟩, [], .ok (some (.connect connectRequest.frame))⟩ := by
    decide
  exact Attempt.happens_of_step hstep rfl rfl

/-! ## The invariant of reachable connections -/

/-- An open connection has a peer and an armed ticker. -/
def OpenInvariant (c : Connection) : Prop :=
  c.state ≠ .closed → c.srcAddr.isSome ∧ c.connectionTimeout = armed

theorem OpenInvariant.of_closed {c : Connection} (h : c.state = .closed) : OpenInvariant c :=
  fun hopen => absurd h hopen

/-- Every action keeps the invariant. -/
theorem act_openInvariant {p : Profile} {c : Connection} {f : SizedFrame} {block : Bool} {a : Action}
    {r : StepResult} (hc : OpenInvariant c) (h : act p c f block a = .ok r) :
    OpenInvariant r.connection := by
  cases a with
  | a1 =>
    cases h
    intro _
    exact ⟨rfl, rfl⟩
  | a2 =>
    obtain ⟨-, c', ind, hdone, rfl⟩ | ⟨-, rfl⟩ := sending_ok h
    · obtain ⟨seqNoRecv, -, hdone⟩ := (bind_eq_ok_iff _).mp hdone
      cases hdone
      intro hopen
      exact ⟨(hc hopen).1, rfl⟩
    · exact hc
  | a3 =>
    obtain ⟨-, c', ind, hdone, rfl⟩ | ⟨-, rfl⟩ := sending_ok h
    · cases hdone
      intro hopen
      exact ⟨(hc hopen).1, rfl⟩
    · exact hc
  | a5 =>
    cases h
    exact .of_closed rfl
  | a6 =>
    obtain ⟨-, c', ind, hdone, rfl⟩ | ⟨-, rfl⟩ := sending_ok h
    · cases hdone
      exact .of_closed rfl
    · exact .of_closed rfl
  | a10 =>
    obtain ⟨-, c', ind, hdone, rfl⟩ | ⟨-, rfl⟩ := sending_ok h
    · cases hdone
      exact hc
    · exact hc
  | ignore =>
    cases h
    exact hc

theorem Action.interim_openInvariant {c : Connection} (hc : OpenInvariant c) (a : Action) :
    OpenInvariant (a.interim c) := by
  cases a with
  | a6 => exact .of_closed rfl
  | a1 => exact hc
  | a2 => exact hc
  | a3 => exact hc
  | a5 => exact hc
  | a10 => exact hc
  | ignore => exact hc

/-- Every attempt keeps the invariant. -/
theorem Attempt.Happens.openInvariant {p : Profile} {t : Attempt} (ht : t.Happens p)
    (hc : OpenInvariant t.before.connection) : OpenInvariant t.after.connection := by
  cases hending : t.ending with
  | returned result =>
    obtain ⟨r, hstep, hafter, -⟩ := ht.returned hending
    obtain ⟨a, -, hact⟩ := connStep_ok hstep
    rw [hafter]
    exact act_openInvariant hc hact
  | dropped o =>
    obtain ⟨a, frame, -, -, -, ⟨-, hafter⟩ | ⟨-, hafter⟩⟩ :=
      drops_handleInd.mp (ht.dropped hending)
    · rw [hafter]
      exact Action.interim_openInvariant hc _
    · rw [hafter]
      exact Action.interim_openInvariant hc _

theorem Reachable.openInvariant {p : Profile} {c : Connection} (h : Reachable p c) :
    OpenInvariant c := by
  obtain ⟨ts, h⟩ := h
  exact h.preserves (fun _ ht => ht.openInvariant) (.of_closed rfl)

end EmbassyKnx.App
