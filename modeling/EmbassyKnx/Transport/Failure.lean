import EmbassyKnx.Transport.Reachable

/-!
# Failed connection steps

`handle_ind` fails when no block is free for its response. All actions but A6 ask for
the block before they change the connection; A6 sets the state to `Closed` first
and stops the ticker last.

* `act_failed`: what a failed action leaves.
* `history_failClean_iff`: failures leave the connection alone, and the ticker runs
  exactly while it is open, unless A6 is cut short.
-/

namespace EmbassyKnx.App

open Rust Async Connection FrameLayout FrameReader

/-! ## The ticker -/

/-- The ticker is armed exactly while the connection is open, and an open connection has a
    peer. -/
structure TimerInvariant (c : Connection) : Prop where
  armed_iff : c.connectionTimeout.isSome ↔ c.state ≠ .closed
  peer : c.state ≠ .closed → c.srcAddr.isSome

theorem TimerInvariant.new : TimerInvariant .new := by
  constructor <;> simp [Connection.new]

/-- What the ticker of an open connection needs beyond `OpenInvariant`: a closed connection
    has none. -/
theorem timerInvariant_iff {c : Connection} (hc : OpenInvariant c) :
    TimerInvariant c ↔ (c.state = .closed → c.connectionTimeout = none) := by
  constructor
  · intro h hclosed
    have hnot : ¬c.connectionTimeout.isSome := by simp [h.armed_iff, hclosed]
    simpa using hnot
  · intro h
    constructor
    · constructor
      · intro hsome hclosed
        simp [h hclosed] at hsome
      · intro hopen
        simp [(hc hopen).2, armed]
    · intro hopen
      exact (hc hopen).1

/-! ## Failures -/

namespace Attempt

variable (t : Attempt)

/-- `handle_ind` returns `Err`. -/
def Failed : Prop := ∃ e, t.ending = .returned (.error e)

/-- The connection is as it was and no response was sent. -/
def Unchanged : Prop :=
  t.after.connection = t.before.connection ∧ t.after.queued = t.before.queued

/-- The future of the attempt is dropped. -/
def Dropped : Prop := ∃ o, t.ending = .dropped o

/-- A T_Connect of the peer of an open connection meets a full pool, or its future is
    dropped. -/
def CutShort : Prop :=
  Reconnects t.before.connection t.service t.frame ∧ (t.before.block = false ∨ t.Dropped)

end Attempt

section Step

variable {p : Profile} {c : Connection} {f : SizedFrame} {block : Bool} {a : Action}

/-- A failed action has found no block and has sent nothing; A6 has closed the connection. -/
theorem act_failed {r : StepResult} (h : act p c f block a = .ok r) {e : FrameError}
    (herror : r.result = .error e) :
    block = false ∧ r.sent = [] ∧ r.connection = a.interim c := by
  cases a with
  | a1 => cases h; simp at herror
  | a5 => cases h; simp at herror
  | ignore => cases h; simp at herror
  | _ =>
    obtain ⟨-, c', ind, -, rfl⟩ | ⟨rfl, rfl⟩ := sending_ok h
    · simp at herror
    · exact ⟨rfl, rfl, rfl⟩

/-- Only A6 changes the connection before it sends. -/
theorem Action.interim_eq (ha : a ≠ .a6) : a.interim c = c := by
  cases a with
  | a6 => exact absurd rfl ha
  | _ => rfl

/-- Where A6 finds a block, every action that completes keeps ticker and state together. -/
theorem act_timerInvariant {s : ConnectionService} (hc : OpenInvariant c) (htimer : TimerInvariant c)
    (hcondition : ActionCondition c s f a) (hblock : a = .a6 → block = true) {r : StepResult}
    (h : act p c f block a = .ok r) : TimerInvariant r.connection := by
  have hclosed := (timerInvariant_iff hc).mp htimer
  rw [timerInvariant_iff (act_openInvariant hc h)]
  cases a with
  | a1 => cases h; simp [opened]
  | a2 =>
    obtain ⟨-, c', ind, hdone, rfl⟩ | ⟨-, rfl⟩ := sending_ok h
    · obtain ⟨seqNoRecv, -, hdone⟩ := (bind_eq_ok_iff _).mp hdone
      cases hdone
      intro hstate
      exact absurd hstate hcondition.1
    · exact hclosed
  | a3 =>
    obtain ⟨-, c', ind, hdone, rfl⟩ | ⟨-, rfl⟩ := sending_ok h
    · cases hdone
      intro hstate
      exact absurd hstate hcondition.1
    · exact hclosed
  | a5 => cases h; simp
  | a6 =>
    obtain ⟨-, c', ind, hdone, rfl⟩ | ⟨hfull, -⟩ := sending_ok h
    · cases hdone
      simp
    · rw [hblock rfl] at hfull
      simp at hfull
  | a10 =>
    obtain ⟨-, c', ind, hdone, rfl⟩ | ⟨-, rfl⟩ := sending_ok h
    · cases hdone
      exact hclosed
    · exact hclosed
  | ignore => cases h; exact hclosed

/-- A6 without its end leaves a closed connection with a running ticker. -/
theorem not_timerInvariant_interim (hc : OpenInvariant c) (hopen : c.state ≠ .closed) :
    ¬TimerInvariant (Action.interim c .a6) := by
  intro h
  have hnone := (timerInvariant_iff (.of_closed rfl)).mp h rfl
  have harmed : c.connectionTimeout = none := hnone
  simp [(hc hopen).2, armed] at harmed

end Step

/-! ## Attempts -/

namespace Attempt

variable {p : Profile} {t : Attempt}

/-- A failed attempt leaves the connection alone, unless it is A6 that has failed. -/
theorem Happens.failed (ht : t.Happens p) (hfailed : t.Failed) :
    t.Unchanged ↔ ¬Reconnects t.before.connection t.service t.frame := by
  obtain ⟨e, hending⟩ := hfailed
  obtain ⟨r, hstep, hafter, hresult⟩ := ht.returned hending
  obtain ⟨a, ha, hact⟩ := connStep_ok hstep
  obtain ⟨-, hsent, hconnection⟩ := act_failed hact hresult.symm
  have hunchanged : t.Unchanged ↔ a.interim t.before.connection = t.before.connection := by
    rw [Unchanged, hafter, Station.after, hsent, hconnection]
    simp
  rw [hunchanged]
  constructor
  · intro heq hconnect
    rw [hconnect.stepAction_eq] at ha
    cases ha
    exact hconnect.1 (congrArg Connection.state heq).symm
  · intro hconnect
    apply Action.interim_eq
    rintro rfl
    exact hconnect (stepAction_condition ha)

/-- Every attempt that is not cut short keeps ticker and state together. -/
theorem Happens.timerInvariant (ht : t.Happens p) (hc : OpenInvariant t.before.connection)
    (htimer : TimerInvariant t.before.connection) (hcut : ¬t.CutShort) :
    TimerInvariant t.after.connection := by
  cases hending : t.ending with
  | returned result =>
    obtain ⟨r, hstep, hafter, -⟩ := ht.returned hending
    obtain ⟨a, ha, hact⟩ := connStep_ok hstep
    have hcondition := stepAction_condition ha
    rw [hafter]
    apply act_timerInvariant hc htimer hcondition ?_ hact
    rintro rfl
    by_contra hblock
    exact hcut ⟨hcondition, .inl (by simpa using hblock)⟩
  | dropped o =>
    obtain ⟨a, frame, ha, -, -, hafter⟩ := drops_handleInd.mp (ht.dropped hending)
    have hinterim : a.interim t.before.connection = t.before.connection := by
      apply Action.interim_eq
      rintro rfl
      exact hcut ⟨stepAction_condition ha, .inr ⟨o, hending⟩⟩
    obtain ⟨-, hafter⟩ | ⟨-, hafter⟩ := hafter
    · rw [hafter, hinterim]
      exact htimer
    · rw [hafter, hinterim]
      exact htimer

/-- An attempt that is cut short leaves the ticker of a closed connection running. -/
theorem Happens.cutShort (ht : t.Happens p) (hc : OpenInvariant t.before.connection)
    (hcut : t.CutShort) : ¬TimerInvariant t.after.connection := by
  obtain ⟨hconnect, hcut⟩ := hcut
  suffices hconnection : t.after.connection = Action.interim t.before.connection .a6 by
    rw [hconnection]
    exact not_timerInvariant_interim hc hconnect.1
  cases hending : t.ending with
  | returned result =>
    obtain ⟨r, hstep, hafter, -⟩ := ht.returned hending
    obtain ⟨a, ha, hact⟩ := connStep_ok hstep
    rw [hconnect.stepAction_eq] at ha
    cases ha
    have hblock : t.before.block = false := by
      rcases hcut with hblock | ⟨o, hdropped⟩
      · exact hblock
      · simp [hending] at hdropped
    rw [hblock] at hact
    cases hact
    rw [hafter]
    rfl
  | dropped o =>
    obtain ⟨a, frame, ha, -, -, hafter⟩ := drops_handleInd.mp (ht.dropped hending)
    rw [hconnect.stepAction_eq] at ha
    cases ha
    obtain ⟨-, hafter⟩ | ⟨-, hafter⟩ := hafter
    · rw [hafter]
    · rw [hafter]

end Attempt

/-! ## Histories -/

/-- Every failed attempt leaves the connection alone, and before and after every attempt the
    ticker is armed exactly while the connection is open. -/
structure FailClean (ts : List Attempt) : Prop where
  unchanged : ∀ t ∈ ts, t.Failed → t.Unchanged
  timer : ∀ t ∈ ts, TimerInvariant t.before.connection ∧ TimerInvariant t.after.connection

theorem History.timerInvariant {p : Profile} {ts : List Attempt} {c c' : Connection}
    (h : History p c ts c') (hc : OpenInvariant c) (htimer : TimerInvariant c)
    (hcut : ∀ t ∈ ts, ¬t.CutShort) :
    ∀ t ∈ ts, TimerInvariant t.before.connection ∧ TimerInvariant t.after.connection := by
  obtain ⟨hall, -⟩ := h.along (I := fun c => OpenInvariant c ∧ TimerInvariant c)
    (fun t ht hnot hc => ⟨ht.openInvariant hc.1, ht.timerInvariant hc.1 hc.2 hnot⟩) hcut
    ⟨hc, htimer⟩
  intro t hmem
  obtain ⟨-, hbefore, hafter⟩ := hall t hmem
  exact ⟨hbefore.2, hafter.2⟩

/-- Since the device has started, failures have left the connection alone and the ticker has
    run with the connection, if and only if no T_Connect of the connected peer has met a full
    pool or been dropped. -/
theorem history_failClean_iff (p : Profile) {ts : List Attempt} {c : Connection}
    (h : History p .new ts c) : FailClean ts ↔ ∀ t ∈ ts, ¬t.CutShort := by
  have hbefore := h.before (fun _ ht => ht.openInvariant) (.of_closed rfl)
  constructor
  · intro hclean t hmem hcut
    obtain ⟨ht, hc⟩ := hbefore t hmem
    exact ht.cutShort hc hcut (hclean.timer t hmem).2
  · intro hcut
    constructor
    · intro t hmem hfailed
      obtain ⟨ht, -⟩ := hbefore t hmem
      apply (ht.failed hfailed).mpr
      intro hconnect
      obtain ⟨e, hending⟩ := hfailed
      obtain ⟨r, hstep, -, hresult⟩ := ht.returned hending
      obtain ⟨a, -, hact⟩ := connStep_ok hstep
      exact hcut t hmem ⟨hconnect, .inl (act_failed hact hresult.symm).1⟩
    · exact h.timerInvariant (.of_closed rfl) .new hcut

/-- A datum of 1.1.1 comes while no block is free for its T_ACK. -/
def Attempt.refused : Attempt where
  before := ⟨opened .new ⟨0x1101⟩, false, false, [], []⟩
  service := .dataConnected
  frame := datumFrame 0
  ending := .returned (.error .outOfMemory)
  after := ⟨opened .new ⟨0x1101⟩, false, false, [], []⟩

theorem Attempt.refused_happens : Attempt.refused.Happens .dev := by
  have hstep : connStep .dev (opened .new ⟨0x1101⟩) .dataConnected (datumFrame 0) false =
      .ok ⟨opened .new ⟨0x1101⟩, [], .error .outOfMemory⟩ := by
    decide
  exact Attempt.happens_of_step hstep rfl rfl

/-- It fails and leaves the connection alone. -/
theorem history_failClean_iff_refused :
    Attempt.refused.Failed ∧ FailClean [.connected, .refused] := by
  refine ⟨⟨.outOfMemory, rfl⟩, (history_failClean_iff .dev
    (.cons Attempt.connected_happens (.cons Attempt.refused_happens (.nil _)))).mpr ?_⟩
  rintro t ht ⟨hconnect, -⟩
  rcases List.mem_cons.mp ht with rfl | ht
  · exact absurd hconnect.1 (by decide)
  · obtain rfl := List.mem_singleton.mp ht
    exact absurd hconnect.2 (by decide)

/-- 1.1.1 connects once more while no block is free. -/
def Attempt.reconnected : Attempt where
  before := ⟨opened .new ⟨0x1101⟩, false, false, [], []⟩
  service := .connect
  frame := connectRequest
  ending := .returned (.error .outOfMemory)
  after := ⟨{ opened .new ⟨0x1101⟩ with state := .closed }, false, false, [], []⟩

theorem Attempt.reconnected_happens : Attempt.reconnected.Happens .dev := by
  have hstep : connStep .dev (opened .new ⟨0x1101⟩) .connect connectRequest false =
      .ok ⟨{ opened .new ⟨0x1101⟩ with state := .closed }, [], .error .outOfMemory⟩ := by
    decide
  exact Attempt.happens_of_step hstep rfl rfl

/-- `handle_ind` has failed, the connection is closed and its ticker runs. -/
theorem reconnected_not_unchanged :
    History .dev .new [.connected, .reconnected] Attempt.reconnected.after.connection ∧
      Attempt.reconnected.Failed ∧ ¬Attempt.reconnected.Unchanged ∧
      Attempt.reconnected.after.connection.state = .closed ∧
      Attempt.reconnected.after.connection.connectionTimeout = armed ∧
      ¬FailClean [.connected, .reconnected] := by
  have hchanged : ¬Attempt.reconnected.Unchanged := by
    intro h
    have hstate := congrArg Connection.state h.1
    simp [Attempt.reconnected, opened] at hstate
  have hfailed : Attempt.reconnected.Failed := ⟨.outOfMemory, rfl⟩
  refine ⟨.cons Attempt.connected_happens (.cons Attempt.reconnected_happens (.nil _)), hfailed,
    hchanged, rfl, rfl, ?_⟩
  intro hclean
  exact hchanged (hclean.unchanged _ (by simp) hfailed)

end EmbassyKnx.App
