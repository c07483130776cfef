import EmbassyKnx.Transport.Step

/-!
# The `RefCell` around the connection

`receive` holds a `RefMut` of the connection from the evaluation of the
arguments of `select` to the end of the `let` statement. Every connection
service of `receive_ind` and the timeout arm borrow the cell again.

* `receiver_borrow_free_iff`: a run of `receive` is free of the borrow panic iff
  nothing happens in it that needs the connection.
* `receiver_run_of_harmless`: such a run leaves the connection as it is.
-/

namespace EmbassyKnx.App

open Rust Async Connection FrameLayout FrameReader

/-- The frame is for the connection: individually addressed, with the TPCI of a
    connection service. -/
def ConnectionOriented (f : SizedFrame) : Prop :=
  (∃ dst, f.dstAddr = .individual dst) ∧ ∃ s, individualService f.tpci = .connection s

/-- The stimulus does not need the connection: a tick, while the ticker is not armed, or a
    frame of another service. -/
def Harmless (c : Connection) : Stimulus → Prop
  | .frame f => ¬ConnectionOriented f
  | .tick => c.connectionTimeout = none

/-! ## One turn of `receive` -/

/-- A station whose task waits in `receive` for the next thing to happen. -/
def Station.waiting (c : Connection) (block : Bool) (x : Stimulus) (queued : List Frame) :
    Station where
  connection := c
  borrowed := false
  block := block
  stimuli := [x]
  queued := queued

/-- The outcome of a turn for the machine: a stimulus that does not wake the task leaves it
    waiting. -/
def turnOutcome (c : Connection) :
    Outcome Station (Option (FrameResult TransportServiceInd)) →
      Except Panic (Connection × Option (FrameResult TransportServiceInd))
  | .returned r w => .ok (w.connection, r)
  | .panicked why _ => .error why
  | .pending _ => .ok (c, none)

/-- The machine that feeds a task in `receive` one stimulus after the other, each with the
    state of the frame pool. -/
def receiver (p : Profile) :
    Machine Connection (Stimulus × Bool) (Option (FrameResult TransportServiceInd)) Panic where
  step c x := turnOutcome c (exec app (receiveTurn p) (.waiting c x.2 x.1 []))

section Turn

variable {α : Type}

/-- `borrow_mut` on a free cell: the guard is dropped when `body` is done. -/
theorem exec_withBorrow_free (body : Task α) {w : Station} (hw : w.borrowed = false) :
    exec app (withBorrow body) w =
      (exec app body { w with borrowed := true }).andThen fun a w' =>
        .returned a { w' with borrowed := false } := by
  have hborrow : exec app borrowMut w = .returned () { w with borrowed := true } := by
    obtain ⟨connection, borrowed, block, stimuli, queued⟩ := w
    obtain rfl : borrowed = false := hw
    rfl
  rw [withBorrow, exec_bind, hborrow, Outcome.andThen_returned, exec_bind]
  rfl

/-- `borrow_mut` while another guard is alive. -/
theorem exec_withBorrow_taken (body : Task α) {w : Station} (hw : w.borrowed = true) :
    exec app (withBorrow body) w = .panicked .alreadyBorrowed w := by
  have hborrow : exec app borrowMut w = .panicked .alreadyBorrowed w := by
    obtain ⟨connection, borrowed, block, stimuli, queued⟩ := w
    obtain rfl : borrowed = true := hw
    rfl
  rw [withBorrow, exec_bind, hborrow, Outcome.andThen_panicked]

variable (p : Profile) {c : Connection} {block : Bool}

/-- The station of a turn while `select` has been won, its guard alive. -/
def Station.woken (c : Connection) (block : Bool) (stimuli : List Stimulus) : Station where
  connection := c
  borrowed := true
  block := block
  stimuli := stimuli
  queued := []

/-- A turn is the `select`, with the guard alive, and the arm it leads to. -/
theorem step_eq_select (x : Stimulus) :
    (receiver p).step c (x, block) =
      turnOutcome c (((exec app (selectFrameOrTick c.connectionTimeout.isSome)
        (.woken c block [x])).andThen fun event w => exec app (receiveArm p event) w).andThen
          fun r w => .returned (turnResult r) { w with borrowed := false }) := by
  have hguard : ({ Station.waiting c block x [] with borrowed := true } : Station) =
      .woken c block [x] := rfl
  have hconn : exec app getConnection (.woken c block [x]) =
      .returned c (.woken c block [x]) := rfl
  show turnOutcome c (exec app (receiveTurn p) (.waiting c block x [])) = _
  rw [receiveTurn, exec_bind, receiveStatement, exec_withBorrow_free _ rfl, hguard, exec_bind, hconn,
    Outcome.andThen_returned, exec_bind]
  rcases (exec app (selectFrameOrTick c.connectionTimeout.isSome) (.woken c block [x])).andThen
    fun event w => exec app (receiveArm p event) w with ⟨r, w⟩ | ⟨why, w⟩ | w
  · rfl
  · rfl
  · rfl

/-- The arm that `select` leads to decides how a turn ends. -/
theorem step_of_arm {x : Stimulus} {event : Frame ⊕ Unit} {stimuli : List Stimulus}
    (hx : nextStimulus c.connectionTimeout.isSome [x] = some (event, stimuli)) :
    (receiver p).step c (x, block) =
      turnOutcome c ((exec app (receiveArm p event) (.woken c block stimuli)).andThen fun r w =>
        .returned (turnResult r) { w with borrowed := false }) := by
  have hselect : exec app (selectFrameOrTick c.connectionTimeout.isSome) (.woken c block [x]) =
      .returned event (.woken c block stimuli) := by
    show exec app (.perform _ .done) _ = _
    simp only [exec, app, Station.woken, hx]
    rfl
  rw [step_eq_select, hselect, Outcome.andThen_returned]

/-- A tick that reaches the task. -/
theorem step_tick_armed {t : Ticker} (ht : c.connectionTimeout = some t) :
    (receiver p).step c (.tick, block) = .error .alreadyBorrowed := by
  have hnext : nextStimulus c.connectionTimeout.isSome [.tick] = some (.inr (), []) := by
    rw [ht]
    rfl
  rw [step_of_arm p hnext, receiveArm, exec_withBorrow_taken _ rfl]
  rfl

/-- A tick while the ticker is not armed. -/
theorem step_tick_idle (ht : c.connectionTimeout = none) :
    (receiver p).step c (.tick, block) = .ok (c, none) := by
  have hselect : exec app (selectFrameOrTick c.connectionTimeout.isSome)
      (.woken c block [.tick]) = .pending (.woken c block [.tick]) := by
    rw [ht]
    rfl
  rw [step_eq_select, hselect]
  rfl

theorem nextStimulus_frame (timer : Bool) (f : SizedFrame) :
    nextStimulus timer [.frame f] = some (.inl f.frame, []) := rfl

theorem networkInd_of_individual {f : SizedFrame} {dst : IndividualAddress}
    (hdst : f.dstAddr = .individual dst) : networkInd f.frame = .ok (.dataIndividual f.frame) := by
  rw [networkInd, f.dstAddr_frame, hdst]
  rfl

/-- A frame for the connection. -/
theorem step_connectionOriented {f : SizedFrame} (hf : ConnectionOriented f) :
    (receiver p).step c (.frame f, block) = .error .alreadyBorrowed := by
  obtain ⟨⟨dst, hdst⟩, s, hs⟩ := hf
  have harm : exec app (receiveArm p (.inl f.frame)) (.woken c block []) =
      .panicked .alreadyBorrowed (.woken c block []) := by
    rw [receiveArm, exec_bind, networkInd_of_individual hdst, exec_lift_ok,
      Outcome.andThen_returned, receiveInd, exec_bind, f.tpci_frame, exec_lift_ok,
      Outcome.andThen_returned, hs]
    exact exec_withBorrow_taken _ rfl
  rw [step_of_arm p (nextStimulus_frame _ f), harm]
  rfl

theorem networkInd_of_group {f : SizedFrame} {addr : GroupAddress} (hdst : f.dstAddr = .group addr) :
    networkInd f.frame =
      .ok (if addr = ⟨0⟩ then .dataBroadcast f.frame else .dataGroup f.frame) := by
  rw [networkInd, f.dstAddr_frame, hdst]
  show (if addr = ⟨0⟩ then _ else _) = _
  split_ifs <;> rfl

/-- A frame that is not for the connection passes the transport layer by it. -/
theorem exec_receiveArm_other {f : SizedFrame} (hf : ¬ConnectionOriented f) (w : Station) :
    ∃ r, exec app (receiveArm p (.inl f.frame)) w = .returned r w := by
  cases hdst : f.dstAddr with
  | individual dst =>
    rw [receiveArm, exec_bind, networkInd_of_individual hdst, exec_lift_ok,
      Outcome.andThen_returned, receiveInd, exec_bind, f.tpci_frame, exec_lift_ok,
      Outcome.andThen_returned]
    cases hs : individualService f.tpci with
    | dataIndividual => exact ⟨_, rfl⟩
    | connection s => exact absurd ⟨⟨dst, hdst⟩, s, hs⟩ hf
    | invalidTpdu => exact ⟨_, rfl⟩
  | group addr =>
    rw [receiveArm, exec_bind, networkInd_of_group hdst, exec_lift_ok, Outcome.andThen_returned]
    by_cases haddr : addr = ⟨0⟩
    · rw [if_pos haddr, receiveInd, exec_bind, f.tpci_six_frame, exec_lift_ok,
        Outcome.andThen_returned]
      split_ifs
      · exact ⟨_, rfl⟩
      · exact ⟨_, rfl⟩
    · rw [if_neg haddr, receiveInd, exec_bind, f.tpci_six_frame, exec_lift_ok,
        Outcome.andThen_returned]
      split_ifs
      · exact ⟨_, rfl⟩
      · exact ⟨_, rfl⟩
      · exact ⟨_, rfl⟩

/-- What the transport layer makes of a group telegram. -/
def groupResult (f : SizedFrame) : IndResult :=
  if f.tpci >>> 2 = 0 then .ok (some (.dataGroup f.frame))
  else if f.tpci >>> 2 = 1 then .ok (some (.dataTagGroup f.frame))
  else .error (.invalidTpdu (f.tpci >>> 2))

theorem exec_receiveArm_group {f : SizedFrame} {addr : GroupAddress} (hdst : f.dstAddr = .group addr)
    (haddr : addr ≠ ⟨0⟩) (w : Station) :
    exec app (receiveArm p (.inl f.frame)) w = .returned (groupResult f) w := by
  rw [receiveArm, exec_bind, networkInd_of_group hdst, exec_lift_ok, Outcome.andThen_returned,
    if_neg haddr, receiveInd, exec_bind, f.tpci_six_frame, exec_lift_ok, Outcome.andThen_returned,
    groupResult]
  split_ifs <;> rfl

theorem step_other {f : SizedFrame} (hf : ¬ConnectionOriented f) :
    ∃ r, (receiver p).step c (.frame f, block) = .ok (c, r) := by
  obtain ⟨r, harm⟩ := exec_receiveArm_other p hf (.woken c block [])
  refine ⟨turnResult r, ?_⟩
  rw [step_of_arm p (nextStimulus_frame _ f), harm]
  rfl

end Turn

/-! ## Runs of `receive` -/

section Run

variable (p : Profile) (c : Connection)

/-- A harmless stimulus leaves the connection as it is. -/
theorem step_harmless {x : Stimulus} (block : Bool) (hx : Harmless c x) :
    ∃ r, (receiver p).step c (x, block) = .ok (c, r) := by
  cases x with
  | frame f => exact step_other p hx
  | tick => exact ⟨none, step_tick_idle p hx⟩

theorem step_harmful {x : Stimulus} (block : Bool) (hx : ¬Harmless c x) :
    (receiver p).step c (x, block) = .error .alreadyBorrowed := by
  cases x with
  | frame f => exact step_connectionOriented p (not_not.mp hx)
  | tick =>
    obtain ⟨t, ht⟩ := Option.ne_none_iff_exists'.mp hx
    exact step_tick_armed p ht

/-- As long as nothing happens that needs the connection, it stays as it is. -/
theorem receiver_run_of_harmless {xs : List (Stimulus × Bool)} (hxs : ∀ x ∈ xs, Harmless c x.1) :
    ∃ rs, (receiver p).run c xs = .ok (c, rs) := by
  induction xs with
  | nil => exact ⟨[], rfl⟩
  | cons x xs ih =>
    obtain ⟨r, hstep⟩ := step_harmless p c x.2 (hxs x List.mem_cons_self)
    obtain ⟨rs, hrun⟩ := ih fun y hy => hxs y (List.mem_cons_of_mem x hy)
    exact ⟨r :: rs, by rw [Machine.run_cons_ok _ hstep, hrun]; rfl⟩

/-- A run of `receive`, from any connection and over any stimuli, is free of the
    `RefCell` panic iff every stimulus is harmless. -/
theorem receiver_borrow_free_iff (xs : List (Stimulus × Bool)) :
    (receiver p).run c xs ≠ .error .alreadyBorrowed ↔ ∀ x ∈ xs, Harmless c x.1 := by
  constructor
  · intro hfree
    induction xs with
    | nil => simp
    | cons x xs ih =>
      by_cases hx : Harmless c x.1
      · obtain ⟨r, hstep⟩ := step_harmless p c x.2 hx
        rw [Machine.run_cons_ok _ hstep] at hfree
        refine List.forall_mem_cons.mpr ⟨hx, ih fun h => hfree ?_⟩
        rw [h]
        rfl
      · exact absurd (Machine.run_cons_error _ (step_harmful p c x.2 hx) xs) hfree
  · intro hxs
    obtain ⟨rs, hrun⟩ := receiver_run_of_harmless p c hxs
    rw [hrun]
    exact nofun

/-- The first connection request kills the task. -/
theorem receiver_panics_on_connect :
    ¬(receiver .dev).run .new [(.frame connectRequest, true)] ≠ .error .alreadyBorrowed := by
  rw [not_not]
  refine Machine.run_cons_error _ (step_connectionOriented .dev ⟨⟨ownAddress, ?_⟩, .connect, ?_⟩) _
  · decide
  · decide

end Run

end EmbassyKnx.App
