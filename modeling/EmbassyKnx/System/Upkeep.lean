import EmbassyKnx.System.Silence
import EmbassyKnx.System.Traffic
import EmbassyKnx.Transport.Counter

/-!
# The connection where the application task waits

In a turn the application task sets the fields of the connection one after the other. Another
task runs only where it waits, and no task ever finds the connection half-way through a step.

* `Sends.between`: where another task runs, the connection is behind one attempt for each of
  the frames for it.
* `connection_kept`: what is true of it there.
-/

namespace EmbassyKnx

open Rust Async App Connection

/-! ## What attempts keep -/

namespace App

/-- Nothing is sent over the connection: the part of it that belongs to the sender is as it was,
    and it is closed or idle. -/
structure SendsNothing (c : Connection) : Prop where
  state : c.state = .closed ∨ c.state = .openIdle
  seqNoSend : c.seqNoSend = 0
  repCount : c.repCount = 0
  storedFrame : c.storedFrame = none

variable {p : Profile} {c : Connection}

theorem Attempt.Happens.sendsNothing {t : Attempt} (ht : t.Happens p)
    (hc : SendsNothing t.before.connection) : SendsNothing t.after.connection := by
  obtain ⟨hstate, hseq, hrep, hstored⟩ := hc
  obtain ⟨a, -, hafter | ⟨-, hafter⟩⟩ := ht.leaves
  · rw [hafter]
    cases a with
    | a1 => exact ⟨.inr rfl, rfl, hrep, hstored⟩
    | a5 => exact ⟨.inl rfl, hseq, hrep, hstored⟩
    | a6 => exact ⟨.inl rfl, hseq, hrep, hstored⟩
    | _ => exact ⟨hstate, hseq, hrep, hstored⟩
  · rw [hafter]
    cases a with
    | a6 => exact ⟨.inl rfl, hseq, hrep, hstored⟩
    | _ => exact ⟨hstate, hseq, hrep, hstored⟩

theorem Reachable.sendsNothing (h : Reachable p c) : SendsNothing c := by
  obtain ⟨ts, h⟩ := h
  exact h.preserves (fun _ ht => ht.sendsNothing) ⟨.inl rfl, rfl, rfl, rfl⟩

end App

/-! ## Where another task runs -/

namespace System

section

variable {p : Profile} {R : Account} {e : Env} {s s' : System} {fs : List (ℕ × Frame)} {owed : ℕ}
  {log : List Frame}

/-- The driver sends nothing to itself, and answers nothing. -/
theorem driverReply_record {o : DriverOp} {r : driverSig.Ret o}
    (h : driverReply e o s = some (r, s')) : s'.sent = s.sent ∧ s'.answered = s.answered := by
  cases o with
  | alloc =>
    simp only [driverReply] at h
    split_ifs at h
    · cases h
      exact ⟨rfl, rfl⟩
    · cases h
      exact ⟨rfl, rfl⟩
  | read =>
    obtain ⟨r', -, hr⟩ := Option.map_eq_some_iff.mp h
    cases hr
    exact ⟨rfl, rfl⟩
  | selectReadOrRequest =>
    simp only [driverReply] at h
    split at h
    · cases h
      exact ⟨rfl, rfl⟩
    · split_ifs at h
      cases h
      exact ⟨rfl, rfl⟩
  | frameChannelRxReceive =>
    simp only [driverReply] at h
    split at h
    · simp at h
    · cases h
      exact ⟨rfl, rfl⟩
  | frameChannelTxSend f =>
    simp only [driverReply] at h
    split_ifs at h
    cases h
    exact ⟨rfl, rfl⟩
  | _ =>
    cases h
    exact ⟨rfl, rfl⟩

/-- A step leaves the application task, the connection and what has been sent and answered. -/
structure Leaves (s s' : System) : Prop where
  app : s'.app = s.app
  connection : s'.connection = s.connection
  sent : s'.sent = s.sent
  answered : s'.answered = s.answered

theorem leaves_stepDriver (h : stepDriver p e s = some s') : Leaves s s' := by
  unfold stepDriver at h
  rcases hrest : s.driver.rest with phase | why | ⟨o, resume⟩
  · rw [hrest] at h
    cases h
    exact ⟨rfl, rfl, rfl, rfl⟩
  · rw [hrest] at h
    simp at h
  · rw [hrest] at h
    obtain ⟨⟨r, s₁⟩, hreply, hs'⟩ := Option.map_eq_some_iff.mp h
    subst hs'
    obtain ⟨happ, -, -, -, hconnection⟩ := driverReply_frame hreply
    obtain ⟨hsent, hanswered⟩ := driverReply_record hreply
    exact ⟨happ, hconnection, hsent, hanswered⟩

theorem leaves_stepMain (h : stepMain s = some s') : Leaves s s' := by
  unfold stepMain at h
  split at h
  · split at h
    · simp at h
    · cases h
      exact ⟨rfl, rfl, rfl, rfl⟩
  · split_ifs at h
    cases h
    exact ⟨rfl, rfl, rfl, rfl⟩

/-- An operation that waits has no reply while nothing comes in. -/
theorem appReply_of_waits {o : AppOp} (h : s.appWaits o = true) : appReply quiet o s = none := by
  cases o with
  | frameChannelRxSend f => exact if_neg (Nat.not_lt_of_le (of_decide_eq_true h))
  | conSignalWait =>
    have hsignal : s.conSignal = none := Option.isNone_iff_eq_none.mp h
    simp [appReply, hsignal]
  | selectFrameOrTick timer =>
    have hqueue : s.frameChannelTx = [] := List.isEmpty_iff.mp h
    simp [appReply, hqueue, quiet]
  | _ => exact absurd h Bool.false_ne_true

/-- Unless it runs, the application task is in no turn or where a turn waits. -/
def Paused (p : Profile) (R : Account) (s : System) (fs : List (ℕ × Frame)) (owed : ℕ)
    (log : List Frame) : Prop :=
  s.running ≠ .app → ∀ x, s.app.control = .select x → ∃ (g : Handling) (before : List Frame),
    (Meets (receiveContract p) (TurnOver p) g x ∧
      InTurn p R s.connection s.app.frame fs log s.answered.length g before ∧ owed = g.owed) ∧
        g.Paused p

theorem paused_initial (hnil : R [] [] .new) : Paused p R (initial p) [] 0 [] := by
  intro _ x hx
  cases hx
  exact ⟨.start .new, [], ⟨meets_receiveTurn p .new,
    ⟨rfl, rfl, rfl, ⟨[], hnil, rfl⟩, .inl rfl, .inr rfl, Nat.le_refl 0⟩, rfl⟩, .inl ⟨_, rfl⟩⟩

/-- The application task waits. -/
theorem Sound.paused_of_waits (h : Sound p R s fs owed log) (hrunning : s.running = .app)
    (hwaits : s.waits = true) {x : App.Task (Option (FrameResult TransportServiceInd))}
    (hx : s.app.control = .select x) : ∃ (g : Handling) (before : List Frame),
      (Meets (receiveContract p) (TurnOver p) g x ∧
        InTurn p R s.connection s.app.frame fs log s.answered.length g before ∧ owed = g.owed) ∧
          g.Paused p := by
  have happ := h.app
  unfold System.waits at hwaits
  rw [hrunning, hx] at hwaits
  rw [hx] at happ
  obtain ⟨g, before, hmeets, hturn⟩ := happ
  rcases x with r | why | ⟨o, resume⟩
  · exact absurd hwaits Bool.false_ne_true
  · exact absurd hwaits Bool.false_ne_true
  · obtain ⟨hop, -⟩ := (Bool.and_eq_true _ _).mp hwaits
    exact ⟨g, before, ⟨hmeets, hturn⟩, paused_of_reply hmeets.1 (appReply_of_waits hop)⟩

/-- Another task runs. -/
theorem Paused.leaves (h : Paused p R s fs owed log) (hother : s.running ≠ .app)
    (hleaves : Leaves s s') : Paused p R s' fs owed (log ++ put s s') := by
  intro _ x hx
  rw [put, if_pos hleaves.sent, List.append_nil, hleaves.app, hleaves.connection, hleaves.answered]
  exact h hother x (hleaves.app ▸ hx)

theorem Sound.step_paused {act : Action} (hR : Account.Kept p R) (h : Sound p R s fs owed log)
    (hpaused : Paused p R s fs owed log) (hstep : s.step p act = some s') :
    ∃ fs' owed', fs <+: fs' ∧ Sound p R s' fs' owed' (log ++ put s s') ∧
      Paused p R s' fs' owed' (log ++ put s s') := by
  cases act with
  | poll t =>
    simp only [System.step] at hstep
    split_ifs at hstep with hwaits
    cases hstep
    refine ⟨fs, owed, List.prefix_refl _, .silent { h with } rfl, fun _ x hx => ?_⟩
    rw [put, if_pos rfl, List.append_nil]
    by_cases hrunning : s.running = .app
    · exact Sound.paused_of_waits (s := s) h hrunning hwaits hx
    · exact hpaused hrunning x hx
  | run e =>
    have hrun := hstep
    simp only [System.step] at hstep
    cases hrunning : s.running with
    | driver =>
      rw [hrunning] at hstep
      exact ⟨fs, owed, List.prefix_refl _, h.stepDriver hstep,
        hpaused.leaves (by simp [hrunning]) (leaves_stepDriver hstep)⟩
    | main =>
      rw [hrunning] at hstep
      exact ⟨fs, owed, List.prefix_refl _, h.stepMain hstep,
        hpaused.leaves (by simp [hrunning]) (leaves_stepMain hstep)⟩
    | app =>
      -- it goes on until it waits
      rw [hrunning] at hstep
      obtain ⟨fs', owed', hprefix, hsound⟩ := h.step hR hrun
      refine ⟨fs', owed', hprefix, hsound, fun hother => ?_⟩
      exact absurd ((stepApp_frame hstep).2.trans hrunning) hother

/-- Wherever another task runs, the relation holds of the frames that have been taken. -/
theorem Sound.account (hR : Account.Kept p R) (h : Sound p R s fs owed log)
    (hpaused : Paused p R s fs owed log) (hother : s.running ≠ .app) :
    R (fs.map Prod.snd) (replies log) s.connection := by
  have happ := h.app
  cases hcontrol : s.app.control with
  | select x =>
    obtain ⟨g, before, ⟨-, hturn, -⟩, hg⟩ := hpaused hother x hcontrol
    exact (hturn.dropped hR hg).recorded
  | indicate x =>
    rw [hcontrol] at happ
    exact happ.2.recorded
  | take =>
    rw [hcontrol] at happ
    exact happ.2.recorded
  | respond x =>
    rw [hcontrol] at happ
    exact happ.1.recorded

theorem Sends.paused (hR : Account.Kept p R) (hnil : R [] [] .new) (h : Sends p s log) :
    ∃ fs owed, Sound p R s fs owed log ∧ Paused p R s fs owed log := by
  induction h with
  | start => exact ⟨[], 0, sound_initial p hnil, paused_initial hnil⟩
  | step _ hstep ih =>
    obtain ⟨act, hstep⟩ := hstep
    obtain ⟨fs, owed, hsound, hpaused⟩ := ih
    obtain ⟨fs', owed', -, hsound', hpaused'⟩ := hsound.step_paused hR hpaused hstep
    exact ⟨fs', owed', hsound', hpaused'⟩

/-- A run from a state that keeps to the relation. -/
theorem Sound.run (hR : Account.Kept p R) (h : Sound p R s fs owed log)
    (hpaused : Paused p R s fs owed log) (hrun : Relation.ReflTransGen (Step p) s s') :
    ∃ fs' owed' log', fs <+: fs' ∧ Sound p R s' fs' owed' log' ∧ Paused p R s' fs' owed' log' := by
  induction hrun with
  | refl => exact ⟨fs, owed, log, List.prefix_refl _, h, hpaused⟩
  | tail _ hstep ih =>
    obtain ⟨act, hstep⟩ := hstep
    obtain ⟨fs₁, owed₁, log₁, hprefix, hsound, hpaused⟩ := ih
    obtain ⟨fs', owed', hprefix', hsound', hpaused'⟩ := hsound.step_paused hR hpaused hstep
    exact ⟨fs', owed', _, hprefix.trans hprefix', hsound', hpaused'⟩

/-- What attempts at connection steps keep holds of the system wherever another task runs. -/
theorem Sends.between (hR : Account.Kept p R) (hnil : R [] [] .new) (h : Sends p s log)
    (hother : s.running ≠ .app) : R (s.taken.map Prod.snd) (replies log) s.connection := by
  obtain ⟨fs, owed, hsound, hpaused⟩ := h.paused hR hnil
  rw [hsound.taken_eq]
  exact hsound.account hR hpaused hother

/-- The connection is behind one attempt for each of the frames for it, has a peer and an armed
    ticker if it is open, expects no more than the eighth number, and has sent no data; its replies
    are those of the attempts. -/
structure Kept (p : Profile) (s : System) (log : List Frame) : Prop where
  recorded : Attempted p (s.taken.map Prod.snd) (replies log) s.connection
  armed : OpenInvariant s.connection
  seqNoRecv_le : s.connection.seqNoRecv.toNat ≤ 8
  sendsNothing : SendsNothing s.connection

end

end System

end EmbassyKnx
