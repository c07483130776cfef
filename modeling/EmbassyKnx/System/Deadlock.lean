import EmbassyKnx.System.Reads

/-!
# The service channels

The application task sends indications to the main task, which sends responses back. The
application task does not take a response while it waits to send an indication, so that ten
reads can fill both channels and stop both tasks for good.

* `never_deadlocked`: nine outstanding reads cannot.
* `deadlocked_forever`: what the tasks make of ten.
-/

namespace EmbassyKnx

open Rust Async

namespace Outline

variable {l l' : Outline}

/-- The group reads that have been taken off `FRAME_CHANNEL_TX` and are not answered. -/
def outstanding (l : Outline) : ℕ :=
  (readsOf l.frame.toList).length + l.serviceChannelRx.length + l.main.read.length +
    l.serviceChannelTx.length

/-- A group read is taken off `FRAME_CHANNEL_TX` only if at most eight are outstanding. -/
def Paced (l l' : Outline) : Prop :=
  ∀ x, IsGroupRead x.2 → l.frameChannelTx = x :: l'.frameChannelTx →
    l.outstanding ≤ 2 * serviceChannelSize

/-- At most nine reads are outstanding. -/
structure Flowing (l : Outline) : Prop where
  holding : l.Holding
  bounded : l.outstanding ≤ 2 * serviceChannelSize + 1

/-- The read of a frame that is left is not outstanding any more. -/
theorem outstanding_leave_le (l : Outline) (a : AppPlace) :
    (l.leave a).outstanding ≤ l.outstanding := by
  simp only [outstanding, leave, Option.toList_none, readsOf_nil, List.length_nil]
  omega

theorem Flowing.move (h : Flowing l) (hmove : Move l l') (hpaced : Paced l l') : Flowing l' := by
  refine ⟨h.holding.move hmove, ?_⟩
  have hbounded := h.bounded
  cases hmove with
  | @receive x rest _ hplace hqueue =>
    have hnone := h.holding.other (by simp [hplace, AppPlace.HoldsRead])
    by_cases hread : IsGroupRead x.2
    · have hroom := hpaced x hread hqueue
      simp only [outstanding, hnone, List.length_nil] at hroom
      simp only [outstanding, Option.toList_some, readsOf_read hread, List.length_singleton]
      omega
    · simp only [outstanding, hnone, List.length_nil] at hbounded
      simp only [outstanding, Option.toList_some, readsOf_other hread, List.length_nil]
      omega
  | loop _ _ _ => exact Nat.le_trans (outstanding_leave_le l _) hbounded
  | drop _ _ _ _ => exact Nat.le_trans (outstanding_leave_le l _) hbounded
  | indicated _ _ => exact Nat.le_trans (outstanding_leave_le l _) hbounded
  | responded _ _ _ => exact Nat.le_trans (outstanding_leave_le l _) hbounded
  | indicate ind _ hplace _ =>
    obtain ⟨x, hx, hread⟩ := h.holding.read (by simp [hplace, AppPlace.HoldsRead])
    simp only [outstanding, hx, Option.toList_some, readsOf_read hread, List.length_singleton]
      at hbounded
    simp only [outstanding, Option.toList_none, readsOf_nil, List.length_nil, List.length_append,
      List.length_singleton]
    omega
  | take _ _ hqueue =>
    simp only [outstanding, hqueue, List.length_cons] at hbounded ⊢
    omega
  | accept res _ hmain hqueue =>
    simp only [outstanding, hmain, hqueue, MainTask.read, List.length_cons, List.length_nil]
      at hbounded ⊢
    omega
  | answer _ hmain _ =>
    simp only [outstanding, hmain, MainTask.read, List.length_append, List.length_cons,
      List.length_nil] at hbounded ⊢
    omega
  | _ => exact hbounded

end Outline

namespace System

variable {p : Profile} {e : Env} {s s' : System} {g : DriverStage} {a : AppPlace}

/-- The application task sends an indication into a full channel, and the main task a response. -/
structure Deadlocked (s : System) : Prop where
  indicating : ∃ ind resume, s.app.control = .indicate (.perform (.txSend ind) resume)
  serviceChannelRx : serviceChannelSize ≤ s.serviceChannelRx.length
  sending : ∃ number res, s.main = .send number res
  serviceChannelTx : serviceChannelSize ≤ s.serviceChannelTx.length

/-- The group reads that have been taken off `FRAME_CHANNEL_TX` and are not answered. -/
def outstanding (s : System) : ℕ :=
  (readsOf s.app.frame.toList).length + s.serviceChannelRx.length + s.main.read.length +
    s.serviceChannelTx.length

/-- A group read is taken off `FRAME_CHANNEL_TX` only if at most eight are outstanding. -/
def Paced (s s' : System) : Prop :=
  ∀ x, IsGroupRead x.2 → s.frameChannelTx = x :: s'.frameChannelTx →
    s.outstanding ≤ 2 * serviceChannelSize

theorem flowing_initial (p : Profile) : (initialOutline p).Flowing :=
  ⟨.elsewhere rfl id, Nat.zero_le _⟩

/-- An application task in front of an indication has a read. -/
theorem Sim.indicating (h : Sim s g a) {ind : ApplicationServiceInd}
    {resume : Unit → Async applicationSig Unit}
    (hcontrol : s.app.control = .indicate (.perform (.txSend ind) resume)) : a.HoldsRead := by
  have hkeeps := h.app
  rw [hcontrol] at hkeeps
  rcases a with t | ⟨_ | _, held⟩ | _ | t
  · exact absurd hkeeps id
  · obtain hdone | ⟨why, hpanic⟩ := hkeeps
    · simp at hdone
    · simp at hpanic
  · exact trivial
  · exact absurd hkeeps id
  · exact absurd hkeeps id

/-- In every run in which no read is taken off `FRAME_CHANNEL_TX` while nine are outstanding, the
    application task and the main task never wait for each other. -/
theorem never_deadlocked (p : Profile) (h : RunOf p Paced (initial p) s) : ¬Deadlocked s := by
  obtain ⟨g, a, hsim, hflowing⟩ := h.outline Outline.Paced (fun _ _ hpaced => hpaced)
    (flowing_initial p) Outline.Flowing.move
  rintro ⟨⟨ind, resume, hcontrol⟩, hrx, ⟨number, res, hmain⟩, htx⟩
  obtain ⟨x, hx, hread⟩ := hflowing.holding.read (hsim.indicating hcontrol)
  have hx : s.app.frame = some x := hx
  have hbounded : s.outstanding ≤ 2 * serviceChannelSize + 1 := hflowing.bounded
  simp only [outstanding, hx, Option.toList_some, readsOf_read hread, hmain, MainTask.read,
    List.length_singleton] at hbounded
  omega

/-- Eight reads come in a row; three of them have been answered, and the others are outstanding. -/
def pacing : List Cue :=
  [.hear (readTelegrams 8), .poll .app, .poll .main, .poll .app, .hear ([none] ++ echo 9),
    .poll .app, .hear ([none] ++ echo 9), .poll .app]

/-- No step is taken from where nine are outstanding. -/
def paced : System :=
  playIf .dev (fun s _ => decide (s.outstanding ≤ 2 * serviceChannelSize)) pacing (initial .dev)

theorem runOf_paced : RunOf .dev Paced (initial .dev) paced :=
  runOf_playIf (fun _ _ hok _ _ _ => of_decide_eq_true hok) pacing _

set_option maxRecDepth 100000 in
theorem paced_answers : paced.delivered.length = 8 ∧ paced.answered = [0, 1, 2] ∧
    paced.outstanding = 5 := by
  decide +kernel

theorem never_deadlocked_paced : (paced.delivered.length = 8 ∧ paced.answered = [0, 1, 2] ∧
    paced.outstanding = 5) ∧ ¬Deadlocked paced :=
  ⟨paced_answers, never_deadlocked .dev runOf_paced⟩

/-! ### Ten reads -/

/-- The driver does not touch the other tasks and their channels. -/
theorem stepDriver_frame (h : stepDriver p e s = some s') : s'.app = s.app ∧ s'.main = s.main ∧
    s'.serviceChannelRx = s.serviceChannelRx ∧ s'.serviceChannelTx = s.serviceChannelTx := by
  unfold stepDriver at h
  cases hrest : s.driver.rest with
  | done phase =>
    rw [hrest] at h
    cases h
    exact ⟨rfl, rfl, rfl, rfl⟩
  | panicked why =>
    rw [hrest] at h
    simp at h
  | perform o resume =>
    rw [hrest] at h
    obtain ⟨⟨r, s₁⟩, hreply, hs'⟩ := Option.map_eq_some_iff.mp h
    subst hs'
    obtain ⟨happ, hmain, hrx, htx, -⟩ := driverReply_frame hreply
    exact ⟨happ, hmain, hrx, htx⟩

/-- Only the driver goes on. -/
theorem Deadlocked.step (h : Deadlocked s) (hstep : Step p s s') : Deadlocked s' := by
  obtain ⟨⟨ind, resume, hcontrol⟩, hrx, ⟨number, res, hmain⟩, htx⟩ := h
  obtain ⟨act, hstep⟩ := hstep
  cases act with
  | poll t =>
    simp only [System.step] at hstep
    split_ifs at hstep
    cases hstep
    exact ⟨⟨ind, resume, hcontrol⟩, hrx, ⟨number, res, hmain⟩, htx⟩
  | run e =>
    simp only [System.step] at hstep
    cases hrunning : s.running with
    | driver =>
      rw [hrunning] at hstep
      obtain ⟨happ, hmain', hrx', htx'⟩ := stepDriver_frame hstep
      refine ⟨⟨ind, resume, ?_⟩, ?_, ⟨number, res, ?_⟩, ?_⟩
      · rw [happ, hcontrol]
      · rw [hrx']
        exact hrx
      · rw [hmain', hmain]
      · rw [htx']
        exact htx
    | app =>
      rw [hrunning] at hstep
      simp only [stepApp, hcontrol, stepIndicate, if_neg (Nat.not_lt_of_le hrx)] at hstep
      simp at hstep
    | main =>
      rw [hrunning] at hstep
      simp only [stepMain, hmain, if_neg (Nat.not_lt_of_le htx)] at hstep
      simp at hstep

theorem deadlocked_forever (h : Deadlocked s) (hrun : Relation.ReflTransGen (Step p) s s') :
    Deadlocked s' := by
  induction hrun with
  | refl => exact h
  | tail _ hstep ih => exact ih.step hstep

/-- Eight reads come before the application task runs, and two more before it runs again. -/
def jamming : List Cue :=
  [.hear (readTelegrams 8), .poll .app, .poll .main, .hear (readTelegrams 2), .poll .app,
    .poll .main, .poll .app]

/-- Both tasks send. -/
def sends (s : System) : Bool :=
  match s.app.control, s.main with
  | .indicate (.perform (.txSend _) _), .send _ _ => true
  | _, _ => false

theorem sends_tasks (h : s.sends = true) :
    (∃ ind resume, s.app.control = .indicate (.perform (.txSend ind) resume)) ∧
      ∃ number res, s.main = .send number res := by
  unfold sends at h
  split at h
  · rename_i ind resume number res hcontrol hmain
    exact ⟨⟨ind, resume, hcontrol⟩, number, res, hmain⟩
  · simp at h

set_option maxRecDepth 100000 in
theorem jamming_sends : (play .dev jamming (initial .dev)).sends = true ∧
    serviceChannelSize ≤ (play .dev jamming (initial .dev)).serviceChannelRx.length ∧
    serviceChannelSize ≤ (play .dev jamming (initial .dev)).serviceChannelTx.length := by
  decide +kernel

/-- Ten reads stop the application task and the main task for good. -/
theorem ten_reads_deadlock : ∃ s, Reachable .dev s ∧ Deadlocked s ∧
    ∀ s', Relation.ReflTransGen (Step .dev) s s' → Deadlocked s' := by
  obtain ⟨hsends, hrx, htx⟩ := jamming_sends
  obtain ⟨hindicating, hsending⟩ := sends_tasks hsends
  have hdeadlocked : Deadlocked (play .dev jamming (initial .dev)) :=
    ⟨hindicating, hrx, hsending, htx⟩
  exact ⟨_, reachable_play .refl jamming, hdeadlocked, fun _ hrun =>
    deadlocked_forever hdeadlocked hrun⟩

end System

end EmbassyKnx
