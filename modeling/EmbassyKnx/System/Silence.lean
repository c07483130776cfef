import EmbassyKnx.Common.Endless
import EmbassyKnx.System.Outline
import EmbassyKnx.System.Script
import EmbassyKnx.System.Starvation

/-!
# What the tasks do when nothing comes in

While the UART is silent and the ticker does not fire, every step of a task uses up some of
the work that is in the channels, in the main task and in the programs of the other tasks. A
turn of a task can make work for another one, but less than it uses up.

* `Sim.silent_run`: a step goes down in the rank of the system.
* `silent_run_idles`: in an endless silent run only finitely many steps are not polls.
-/

namespace EmbassyKnx

open Rust Async

/-- Nothing comes in: no octet, and the ticker does not fire. -/
def Env.Silent (e : Env) : Prop := e.octet = none ∧ e.tick = false

/-! ## Work -/

/-- The frame that a send has still to put into `FRAME_CHANNEL_RX`. -/
def SendStage.work : SendStage → ℕ
  | .queued => 0
  | .confirmed => 0
  | _ => 4

/-- What is left to be done for what the application task holds. -/
def AppPlace.work : AppPlace → ℕ
  | .selecting .awaiting => 1
  | .selecting .reading => 12
  | .selecting (.handling _ g) => 3 + g.work
  | .indicating true _ => 11
  | .indicating false _ => 2
  | .taking => 0
  | .responding g => 2 + g.work

/-- The driver's work in front of a turn: a wait for traffic, or a read of the drain loop. -/
def startWork : Driver.Task Driver.Phase → ℕ
  | .perform .selectReadOrRequest _ => 1
  | _ => 3

/-- The driver's work when its turn is over. -/
def overWork : Driver.Task Driver.Phase → ℕ
  | .done .idle => 2
  | _ => 4

/-- What is left to be done in a turn of the driver, and behind it. -/
def DriverStage.work (rest : Driver.Task Driver.Phase) : DriverStage → ℕ
  | .start => startWork rest
  | .woken => 0
  | .receiving _ => 15
  | .transmitting => 4
  | .over _ => overWork rest

def MainTask.work : MainTask → ℕ
  | .receive => 0
  | .send _ _ => 8

/-- What is left of a part of the loop of `ApplicationLayer::run`. -/
inductive AppControl.Behind : AppControl → AppControl → Prop
  | select {x y : App.Task (Option (FrameResult TransportServiceInd))} :
      Async.Behind x y → Behind (.select x) (.select y)
  | indicate {x y : Async applicationSig Unit} : Async.Behind x y → Behind (.indicate x) (.indicate y)
  | respond {x y : App.Task Unit} : Async.Behind x y → Behind (.respond x) (.respond y)

theorem AppControl.wellFounded_behind : WellFounded AppControl.Behind := by
  refine ⟨fun control => ?_⟩
  cases control with
  | select x =>
    induction x using Async.wellFounded_behind.induction with
    | _ x ih =>
      refine ⟨_, fun y hy => ?_⟩
      cases hy with
      | select h => exact ih _ h
  | indicate x =>
    induction x using Async.wellFounded_behind.induction with
    | _ x ih =>
      refine ⟨_, fun y hy => ?_⟩
      cases hy with
      | indicate h => exact ih _ h
  | take =>
    refine ⟨_, fun y hy => ?_⟩
    cases hy
  | respond x =>
    induction x using Async.wellFounded_behind.induction with
    | _ x ih =>
      refine ⟨_, fun y hy => ?_⟩
      cases hy with
      | respond h => exact ih _ h

namespace System

/-- The work in the frame channels and in the driver. -/
def frameWork (s : System) (g : DriverStage) : ℕ :=
  11 * s.frameChannelTx.length + 4 * s.frameChannelRx.length + g.work s.driver.rest

/-- The work in the service channels and in the main task. -/
def serviceWork (s : System) : ℕ :=
  9 * s.serviceChannelRx.length + 7 * s.serviceChannelTx.length + s.main.work

/-- All work. -/
def work (s : System) (g : DriverStage) (a : AppPlace) : ℕ :=
  s.frameWork g + s.serviceWork + a.work

/-- The work first, then what is left of the driver's turn, then what is left of the
    application task's. -/
abbrev Rank : Type := ℕ × Driver.Task Driver.Phase × AppControl

def Lower : Rank → Rank → Prop :=
  Prod.Lex (· < ·) (Prod.Lex Async.Behind AppControl.Behind)

theorem wellFounded_lower : WellFounded Lower :=
  Nat.lt_wfRel.wf.prod_lex (Async.wellFounded_behind.prod_lex AppControl.wellFounded_behind)

def rank (s : System) (g : DriverStage) (a : AppPlace) : Rank :=
  (s.work g a, s.driver.rest, s.app.control)

section Lower

variable {s s' : System} {g g' : DriverStage} {a a' : AppPlace}

theorem lower_of_work (h : s'.work g' a' < s.work g a) : Lower (s'.rank g' a') (s.rank g a) :=
  .left _ _ h

theorem lower_of_driver (h : s'.work g' a' ≤ s.work g a)
    (hrest : Async.Behind s'.driver.rest s.driver.rest) :
    Lower (s'.rank g' a') (s.rank g a) := by
  rcases Nat.lt_or_eq_of_le h with hlt | heq
  · exact lower_of_work hlt
  · unfold rank
    rw [heq]
    exact .right _ (.left _ _ hrest)

theorem lower_of_app (h : s'.work g' a' ≤ s.work g a) (hdriver : s'.driver = s.driver)
    (hcontrol : AppControl.Behind s'.app.control s.app.control) :
    Lower (s'.rank g' a') (s.rank g a) := by
  rcases Nat.lt_or_eq_of_le h with hlt | heq
  · exact lower_of_work hlt
  · unfold rank
    rw [heq, hdriver]
    exact .right _ (.right _ hcontrol)

end Lower

/-! ## Steps in silence -/

/-- At the start of a turn the driver's program is that of the turn. -/
def Fresh (p : Profile) (g : DriverStage) (rest : Driver.Task Driver.Phase) : Prop :=
  g = .start → ∃ phase, rest = Driver.runIteration p phase

section Steps

variable {p : Profile} {e : Env} {s s' : System} {g : DriverStage} {a : AppPlace}

/-- The step uses something up. -/
def Descends (p : Profile) (s : System) (g : DriverStage) (a : AppPlace) (s' : System) : Prop :=
  ∃ g' a', Sim s' g' a' ∧ Fresh p g' s'.driver.rest ∧ Lower (s'.rank g' a') (s.rank g a)

theorem Fresh.of_ne {rest : Driver.Task Driver.Phase} (h : g ≠ .start) : Fresh p g rest :=
  fun hstart => absurd hstart h

/-- In a turn the driver does not come back to its start. -/
theorem next_ne_start {o : DriverOp} (hallows : g.Allows o) (r : driverSig.Ret o) :
    g.next o r ≠ .start := by
  cases g with
  | start =>
    cases o with
    | readWithTimeout => simp [DriverStage.next]
    | selectReadOrRequest => cases r <;> simp [DriverStage.next]
    | _ => simp [DriverStage.Allows, DriverStage.Busy] at hallows
  | woken =>
    cases o with
    | frameChannelRxReceive => simp [DriverStage.next]
    | _ => simp [DriverStage.Allows, DriverStage.Busy] at hallows
  | receiving block => cases o <;> simp [DriverStage.next, DriverStage.Allows] at hallows ⊢
  | transmitting => cases o <;> simp [DriverStage.next, DriverStage.Allows] at hallows ⊢
  | _ => cases o <;> simp [DriverStage.Allows, DriverStage.Busy] at hallows

theorem overWork_le (rest : Driver.Task Driver.Phase) : overWork rest ≤ 4 := by
  unfold overWork
  split
  · decide
  · exact Nat.le_refl 4

/-- A turn that is over is followed by one with less work. -/
theorem startWork_lt (p : Profile) (phase : Driver.Phase) :
    startWork (Driver.runIteration p phase) < overWork (.done phase) := by
  cases phase with
  | idle => exact Nat.lt_succ_self 1
  | draining => exact Nat.lt_succ_self 3

theorem startWork_le (p : Profile) (phase : Driver.Phase) :
    startWork (Driver.runIteration p phase) ≤ 3 :=
  Nat.le_of_lt_succ (Nat.lt_of_lt_of_le (startWork_lt p phase) (overWork_le _))

/-- An operation of the driver makes no work where nothing comes in. -/
theorem driverReply_frameWork {o : DriverOp} {r : driverSig.Ret o} {s₁ : System}
    {resume : driverSig.Ret o → Driver.Task Driver.Phase} (he : e.Silent)
    (hrest : s.driver.rest = .perform o resume) (hfresh : Fresh p g s.driver.rest)
    (hallows : g.Allows o) (hreply : driverReply e o s = some (r, s₁)) :
    frameWork { s₁ with driver.rest := resume r } (g.next o r) ≤ s.frameWork g := by
  unfold frameWork
  rw [hrest]
  cases o with
  | alloc =>
    subst hallows
    simp only [driverReply] at hreply
    split_ifs at hreply
    · cases hreply
      exact Nat.le_refl _
    · cases hreply
      exact Nat.le_refl _
  | read =>
    obtain ⟨r', -, hr⟩ := Option.map_eq_some_iff.mp hreply
    cases hr
    cases g with
    | receiving block => exact Nat.le_refl _
    | transmitting => exact Nat.le_refl _
    | _ => exact absurd hallows id
  | readWithTimeout =>
    cases hreply
    cases g with
    | receiving block => exact Nat.le_refl _
    | transmitting => exact Nat.le_refl _
    | start =>
      -- a read of the drain loop, which finds the line silent
      obtain ⟨phase, hphase⟩ := hfresh rfl
      rw [hrest] at hphase
      cases phase with
      | idle => cases hphase
      | draining =>
        cases hphase
        rw [he.1]
        exact Nat.add_le_add_left (Nat.le_succ 2) _
    | _ => simp [DriverStage.Allows, DriverStage.Busy] at hallows
  | write octet =>
    cases hreply
    cases g with
    | receiving block => exact Nat.le_refl _
    | transmitting => exact Nat.le_refl _
    | _ => exact absurd hallows id
  | selectReadOrRequest =>
    have hg : g = .start := hallows
    subst hg
    simp only [driverReply, he.1] at hreply
    split_ifs at hreply
    cases hreply
    exact Nat.add_le_add_left (Nat.zero_le _) _
  | frameChannelRxReceive =>
    have hg : g = .woken := hallows
    subst hg
    simp only [driverReply] at hreply
    rcases hqueue : s.frameChannelRx with _ | ⟨⟨n, f⟩, rest⟩
    · rw [hqueue] at hreply
      simp at hreply
    · rw [hqueue] at hreply
      cases hreply
      simp only [DriverStage.next, DriverStage.work, List.length_cons]
      omega
  | frameChannelTxSend f =>
    have hg : g = .receiving true := hallows
    subst hg
    simp only [driverReply] at hreply
    split_ifs at hreply
    cases hreply
    have hover := overWork_le (resume ())
    simp only [DriverStage.next, DriverStage.work, List.length_append, List.length_singleton]
    omega
  | conSignal status =>
    have hg : g = .transmitting := hallows
    subst hg
    cases hreply
    exact Nat.add_le_add_left (overWork_le _) _

theorem Sim.silent_driver (h : Sim s g a) (hfresh : Fresh p g s.driver.rest) (he : e.Silent)
    (hrunning : s.running = .driver) (hstep : System.stepDriver p e s = some s') :
    Descends p s g a s' := by
  have hfollows := h.driver
  unfold System.stepDriver at hstep
  rcases hrest : s.driver.rest with phase | why | ⟨o, resume⟩
  · rw [hrest] at hstep hfollows
    cases hstep
    refine ⟨.start, a, ?_, fun _ => ⟨phase, rfl⟩, lower_of_work ?_⟩
    · exact ⟨Driver.follows_runIteration p phase, rfl, h.app, h.appHeld, h.stored⟩
    · have hturn : startWork (Driver.runIteration p phase) < g.work (.done phase) := by
        cases g with
        | receiving block =>
          exact Nat.lt_of_le_of_lt (startWork_le p phase) (by decide : 3 < 15)
        | start => exact absurd hfollows id
        | woken => exact absurd hfollows id
        | transmitting => exact absurd hfollows id
        | _ => exact startWork_lt p phase
      simp only [work, frameWork, serviceWork, hrest]
      exact Nat.add_lt_add_right (Nat.add_lt_add_right (Nat.add_lt_add_left hturn _) _) _
  · rw [hrest] at hstep
    simp at hstep
  · rw [hrest] at hstep hfollows
    obtain ⟨⟨r, s₁⟩, hreply, hs'⟩ := Option.map_eq_some_iff.mp hstep
    obtain ⟨hallows, hresume⟩ := hfollows
    have hframe := driverReply_frameWork he hrest hfresh hallows hreply
    obtain ⟨-, hheld⟩ := driverReply_move (a := a) hrunning h.driverHeld hallows hreply
    obtain ⟨happ, hmain, hserviceRx, hserviceTx, hconnection⟩ := driverReply_frame hreply
    subst hs'
    refine ⟨_, a, ⟨hresume r trivial, hheld, ?_, ?_, ?_⟩, .of_ne (next_ne_start hallows r),
      lower_of_driver ?_ ?_⟩
    · show Keeps s₁.app.control a
      rw [happ]
      exact h.app
    · show s₁.app.held = a.held
      rw [happ]
      exact h.appHeld
    · show s₁.connection.storedFrame = none
      rw [hconnection]
      exact h.stored
    · simp only [work, serviceWork, hmain, hserviceRx, hserviceTx]
      exact Nat.add_le_add_right (Nat.add_le_add_right hframe _) _
    · show Async.Behind (resume r) s.driver.rest
      rw [hrest]
      exact .resume r

theorem silent_main (h : Sim s g a) (hfresh : Fresh p g s.driver.rest)
    (hstep : stepMain s = some s') : Descends p s g a s' := by
  unfold System.stepMain at hstep
  rcases hmain : s.main with _ | ⟨n, res⟩
  · rw [hmain] at hstep
    rcases hqueue : s.serviceChannelRx with _ | ⟨⟨n, ⟨asap⟩⟩, rest⟩
    · rw [hqueue] at hstep
      simp at hstep
    · rw [hqueue] at hstep
      cases hstep
      refine ⟨g, a, { h with }, hfresh, lower_of_work ?_⟩
      simp only [work, frameWork, serviceWork, hmain, hqueue, MainTask.work, List.length_cons]
      omega
  · rw [hmain] at hstep
    simp only at hstep
    split_ifs at hstep
    cases hstep
    refine ⟨g, a, { h with }, hfresh, lower_of_work ?_⟩
    simp only [work, frameWork, serviceWork, hmain, MainTask.work, List.length_append,
      List.length_singleton]
    omega

/-! ### The application task -/

/-- An operation of the transport layer leaves the driver, the main task and their channels,
    and the application task goes on. -/
theorem appReply_frame {o : AppOp} {r : appSig.Ret o} (h : appReply e o s = some (r, s')) :
    s'.driver = s.driver ∧ s'.main = s.main ∧ s'.serviceChannelRx = s.serviceChannelRx ∧
      s'.serviceChannelTx = s.serviceChannelTx ∧ s'.running = s.running := by
  cases o with
  | alloc =>
    simp only [appReply] at h
    split_ifs at h
    · cases h
      exact ⟨rfl, rfl, rfl, rfl, rfl⟩
    · cases h
      exact ⟨rfl, rfl, rfl, rfl, rfl⟩
  | frameChannelRxSend f =>
    simp only [appReply] at h
    split_ifs at h
    cases h
    exact ⟨rfl, rfl, rfl, rfl, rfl⟩
  | conSignalWait =>
    simp only [appReply] at h
    split at h
    · simp at h
    · cases h
      exact ⟨rfl, rfl, rfl, rfl, rfl⟩
  | selectFrameOrTick timer =>
    simp only [appReply] at h
    split at h
    · cases h
      exact ⟨rfl, rfl, rfl, rfl, rfl⟩
    · split_ifs at h
      cases h
      exact ⟨rfl, rfl, rfl, rfl, rfl⟩
  | _ =>
    cases h
    exact ⟨rfl, rfl, rfl, rfl, rfl⟩

/-- The work of the frame channels and of a place. -/
abbrev placeWork (s : System) (a : AppPlace) : ℕ :=
  11 * s.frameChannelTx.length + 4 * s.frameChannelRx.length + a.work

/-- What a send has still to do goes into `FRAME_CHANNEL_RX`. -/
theorem appReply_sendWork {o : AppOp} {r : appSig.Ret o} {b : Bool} {t t' : SendStage}
    (hallows : (AppStage.handling b t).Allows o)
    (hnext : (AppStage.handling b t).next o r = .handling b t')
    (hreply : appReply e o s = some (r, s')) :
    s'.frameChannelTx = s.frameChannelTx ∧
      4 * s'.frameChannelRx.length + t'.work ≤ 4 * s.frameChannelRx.length + t.work := by
  cases o with
  | alloc =>
    obtain ⟨b', hb⟩ := hallows
    cases hb
    cases hnext
    simp only [appReply] at hreply
    split_ifs at hreply
    · cases hreply
      exact ⟨rfl, Nat.le_refl _⟩
    · cases hreply
      exact ⟨rfl, Nat.le_refl _⟩
  | conSignalReset =>
    obtain ⟨b', hb⟩ := hallows
    cases hb
    cases hnext
    cases hreply
    exact ⟨rfl, Nat.le_refl _⟩
  | frameChannelRxSend f =>
    obtain ⟨b', hb⟩ := hallows
    cases hb
    cases hnext
    simp only [appReply] at hreply
    split_ifs at hreply
    cases hreply
    refine ⟨rfl, ?_⟩
    simp only [SendStage.work, List.length_append, List.length_singleton]
    omega
  | conSignalWait =>
    obtain ⟨b', hb⟩ := hallows
    cases hb
    cases hnext
    simp only [appReply] at hreply
    split at hreply
    · simp at hreply
    · cases hreply
      exact ⟨rfl, Nat.le_refl _⟩
  | selectFrameOrTick timer => exact absurd hallows (by simp [AppStage.Allows])
  | _ =>
    cases hnext
    cases hreply
    exact ⟨rfl, Nat.le_refl _⟩

theorem work_selecting_pos (t : AppStage) : 0 < (AppPlace.selecting t).work := by
  cases t with
  | awaiting => decide
  | reading => decide
  | handling b u => exact Nat.lt_of_lt_of_le (by decide) (Nat.le_add_right 3 _)

/-- A part of the application task's loop is left, and there is less to be done behind it. -/
theorem Sim.silent_leave (h : Sim s g a) (hfresh : Fresh p g s.driver.rest) (control : AppControl)
    (a' : AppPlace) (hkeeps : Keeps control a') (hheld : a'.held = 0) (hwork : a'.work < a.work) :
    Descends p s g a (s.leave control) :=
  ⟨g, a', { h with app := hkeeps, appHeld := hheld.symm }, hfresh,
    lower_of_work (Nat.add_lt_add_left hwork _)⟩

/-- The application task starts over. -/
theorem Sim.silent_over (h : Sim s g a) (hfresh : Fresh p g s.driver.rest) (hwork : 1 < a.work) :
    Descends p s g a (s.leave (.select (App.receiveTurn p))) :=
  h.silent_leave hfresh _ (.selecting .awaiting) (App.follows_receiveTurn p) rfl hwork

/-- An operation of `transport.receive()` outside a send makes no work where the ticker does not
    fire. -/
theorem appReply_placeWork {o : AppOp} {r : appSig.Ret o} {t : AppStage}
    (hstage : t = .awaiting ∨ t = .reading) (he : e.Silent) (hallows : t.Allows o)
    (hreply : appReply e o s = some (r, s')) :
    s'.placeWork (.selecting (t.next o r)) ≤ s.placeWork (.selecting t) := by
  have hnot (b : Bool) (u : SendStage) : t ≠ .handling b u := by
    rintro rfl
    simp at hstage
  cases o with
  | alloc => exact absurd hallows (by rintro ⟨b, hb⟩; exact hnot _ _ hb)
  | conSignalReset => exact absurd hallows (by rintro ⟨b, hb⟩; exact hnot _ _ hb)
  | frameChannelRxSend f => exact absurd hallows (by rintro ⟨b, hb⟩; exact hnot _ _ hb)
  | conSignalWait => exact absurd hallows (by rintro ⟨b, hb⟩; exact hnot _ _ hb)
  | selectFrameOrTick timer =>
    have ht : t = .awaiting := hallows
    subst ht
    simp only [appReply] at hreply
    rcases hqueue : s.frameChannelTx with _ | ⟨⟨n, f⟩, rest⟩
    · rw [hqueue] at hreply
      simp [he.2] at hreply
    · rw [hqueue] at hreply
      cases hreply
      simp only [placeWork, AppStage.next, hqueue, List.length_cons]
      split_ifs
      · simp only [AppPlace.work]
        omega
      · simp only [AppPlace.work, SendStage.work]
        omega
  | _ =>
    cases hreply
    rcases hstage with rfl | rfl
    · exact Nat.le_refl _
    · exact Nat.le_refl _

theorem Sim.silent_receive {t : AppStage} {o : AppOp} {r : appSig.Ret o}
    {resume : appSig.Ret o → App.Task (Option (FrameResult TransportServiceInd))}
    (h : Sim s g (.selecting t)) (hfresh : Fresh p g s.driver.rest) (he : e.Silent)
    (hrunning : s.running = .app) (hcontrol : s.app.control = .select (.perform o resume))
    (hfollows : Follows transportProtocol App.TurnEnds t (.perform o resume))
    (hreply : appReply e o s = some (r, s')) :
    Descends p s g (.selecting t) { s' with app.control := .select (resume r) } := by
  obtain ⟨hallows, hresume⟩ := hfollows
  obtain ⟨hdriver, hmain, hserviceRx, hserviceTx, -⟩ := appReply_frame hreply
  -- the stage behind the operation, and the work in it and in the frame channels
  obtain ⟨t', hfollows, hheld, hstored, hwork⟩ : ∃ t' : AppStage,
      Follows transportProtocol App.TurnEnds t' (resume r) ∧ s'.app.held = t'.held ∧
        s'.connection.storedFrame = none ∧
          s'.placeWork (.selecting t') ≤ s.placeWork (.selecting t) := by
    by_cases hstage : t = .awaiting ∨ t = .reading
    · obtain ⟨-, hheld, hanswers, -, hstored⟩ :=
        appReply_move_receive (g := g) hstage hrunning h.appHeld h.stored hallows hreply
      exact ⟨_, hresume r hanswers, hheld, hstored, appReply_placeWork hstage he hallows hreply⟩
    · cases t with
      | awaiting => simp at hstage
      | reading => simp at hstage
      | handling b t =>
        obtain ⟨t', hnext, -, hheld, hanswers, -, hstored⟩ :=
          appReply_move (g := g) (.receive b) hrunning h.appHeld h.stored hallows hreply
        have hfollows := hresume r hanswers
        rw [show transportProtocol.next (.handling b t) o r = .handling b t' from hnext]
          at hfollows
        obtain ⟨htx, hwork⟩ := appReply_sendWork hallows hnext hreply
        refine ⟨_, hfollows, hheld, hstored, ?_⟩
        simp only [placeWork, AppPlace.work, htx]
        omega
  refine ⟨g, .selecting t', ⟨?_, ?_, hfollows, hheld, hstored⟩, ?_, lower_of_app ?_ hdriver ?_⟩
  · show Follows _ _ g s'.driver.rest
    rw [hdriver]
    exact h.driver
  · show s'.driver.held = g.held
    rw [hdriver]
    exact h.driverHeld
  · show Fresh p g s'.driver.rest
    rw [hdriver]
    exact hfresh
  · simp only [work, frameWork, serviceWork, hmain, hserviceRx, hserviceTx, hdriver]
    simp only [placeWork] at hwork
    omega
  · rw [hcontrol]
    exact .select (.resume r)

theorem Sim.silent_select {x : App.Task (Option (FrameResult TransportServiceInd))}
    (h : Sim s g a) (hfresh : Fresh p g s.driver.rest) (he : e.Silent)
    (hrunning : s.running = .app) (hcontrol : s.app.control = .select x)
    (hstep : System.stepSelect p e s x = some s') : Descends p s g a s' := by
  have hkeeps := h.app
  rw [hcontrol] at hkeeps
  obtain ⟨t, rfl, hfollows⟩ := keeps_select hkeeps
  rcases x with (_ | frame) | why | ⟨o, resume⟩
  · -- the loop of `transport.receive()` goes on
    cases hstep
    refine h.silent_over hfresh ?_
    obtain ⟨r, hr, ⟨rfl, f, rfl, -⟩ | ⟨b, ⟨u, rfl, hu⟩, -⟩⟩ := hfollows
    · simp [App.turnResult] at hr
    · simp only [AppPlace.work]
      omega
  · cases hstep
    obtain ⟨r, hr, ⟨rfl, f, rfl, hapci⟩ | ⟨b, ⟨u, rfl, hu⟩, hnot⟩⟩ := hfollows
    · simp only [App.turnResult, Option.some.injEq] at hr
      subst hr
      refine ⟨g, .indicating true 1, { h with app := ?_ }, hfresh,
        lower_of_work (Nat.lt_succ_self _)⟩
      exact applicationReceive_ok hapci
    · refine ⟨g, .indicating false (b.toNat + u.held),
        { h with app := ?_ }, hfresh,
        lower_of_work (Nat.add_lt_add_left ?_ _)⟩
      · refine keeps_applicationReceive frame _ ?_
        rintro ⟨f, rfl, hapci⟩
        refine hnot ⟨f, ?_, hapci⟩
        rcases r with e | _ | ind
        · simp [App.turnResult] at hr
        · simp [App.turnResult] at hr
        · simpa [App.turnResult] using hr.symm
      · simp only [AppPlace.work]
        omega
  · simp [System.stepSelect] at hstep
  · simp only [System.stepSelect] at hstep
    rcases hreply : appReply e o s with _ | ⟨r, s₁⟩
    · rw [hreply] at hstep
      simp only at hstep
      split_ifs at hstep
      cases hstep
      exact h.silent_leave hfresh .take .taking trivial rfl (work_selecting_pos t)
    · rw [hreply] at hstep
      cases hstep
      exact h.silent_receive hfresh he hrunning hcontrol hfollows hreply

theorem Sim.silent_indicate {x : Async applicationSig Unit} (h : Sim s g a)
    (hfresh : Fresh p g s.driver.rest) (hcontrol : s.app.control = .indicate x)
    (hstep : System.stepIndicate p s x = some s') : Descends p s g a s' := by
  have hkeeps := h.app
  rw [hcontrol] at hkeeps
  rcases a with t | ⟨_ | _, held⟩ | _ | t
  · exact absurd hkeeps id
  · obtain rfl | ⟨why, rfl⟩ := hkeeps
    · cases hstep
      exact h.silent_over hfresh (Nat.lt_succ_self 1)
    · simp [System.stepIndicate] at hstep
  · have hx : x = .perform (.txSend (.groupValueRead 0)) .done := hkeeps
    subst hx
    simp only [System.stepIndicate] at hstep
    split_ifs at hstep
    cases hstep
    refine ⟨g, .indicating false held, { h with app := .inl rfl },
      hfresh, lower_of_app ?_ rfl ?_⟩
    · simp only [work, frameWork, serviceWork, AppPlace.work, List.length_append,
        List.length_singleton]
      omega
    · rw [hcontrol]
      exact .indicate
        (@Async.Behind.resume applicationSig Unit (ApplicationOp.txSend (.groupValueRead 0)) .done ())
  · exact absurd hkeeps id
  · exact absurd hkeeps id

theorem Sim.silent_take (h : Sim s g a) (hfresh : Fresh p g s.driver.rest)
    (hcontrol : s.app.control = .take) (hstep : System.stepTake p s = some s') :
    Descends p s g a s' := by
  obtain rfl := h.taking hcontrol
  unfold System.stepTake at hstep
  rcases hqueue : s.serviceChannelTx with _ | ⟨⟨n, res⟩, rest⟩
  · rw [hqueue] at hstep
    simp at hstep
  · rw [hqueue] at hstep
    cases hstep
    refine ⟨g, .responding .idle,
      { h with app := App.follows_respond p res }, hfresh,
      lower_of_work ?_⟩
    simp only [work, frameWork, serviceWork, hqueue, AppPlace.work, SendStage.work,
      List.length_cons]
    omega

theorem Sim.silent_respond {x : App.Task Unit} (h : Sim s g a) (hfresh : Fresh p g s.driver.rest)
    (hrunning : s.running = .app) (hcontrol : s.app.control = .respond x)
    (hstep : System.stepRespond p e s x = some s') : Descends p s g a s' := by
  have hkeeps := h.app
  rw [hcontrol] at hkeeps
  obtain ⟨t, rfl, hfollows⟩ := keeps_respond hkeeps
  rcases x with _ | why | ⟨o, resume⟩
  · cases hstep
    exact h.silent_over hfresh (Nat.lt_of_lt_of_le (Nat.lt_succ_self 1) (Nat.le_add_right 2 _))
  · simp [System.stepRespond] at hstep
  · obtain ⟨⟨r, s₁⟩, hreply, hs'⟩ := Option.map_eq_some_iff.mp hstep
    subst hs'
    obtain ⟨hallows, hresume⟩ := hfollows
    obtain ⟨hdriver, hmain, hserviceRx, hserviceTx, -⟩ := appReply_frame hreply
    have hheld : s.app.held = false.toNat + t.held := by
      rw [h.appHeld]
      exact (Nat.zero_add _).symm
    obtain ⟨t', hnext, -, hheld', hanswers, -, hstored⟩ :=
      appReply_move (g := g) .respond hrunning hheld h.stored hallows hreply
    have hfollows := hresume r hanswers
    rw [show transportProtocol.next (.handling false t) o r = .handling false t' from hnext]
      at hfollows
    obtain ⟨htx, hwork⟩ := appReply_sendWork hallows hnext hreply
    refine ⟨g, .responding t', ⟨?_, ?_, hfollows, ?_, hstored⟩, ?_, lower_of_app ?_ hdriver ?_⟩
    · show Follows _ _ g s₁.driver.rest
      rw [hdriver]
      exact h.driver
    · show s₁.driver.held = g.held
      rw [hdriver]
      exact h.driverHeld
    · show s₁.app.held = t'.held
      rw [hheld']
      exact Nat.zero_add _
    · show Fresh p g s₁.driver.rest
      rw [hdriver]
      exact hfresh
    · simp only [work, frameWork, serviceWork, hmain, hserviceRx, hserviceTx, hdriver, htx,
        AppPlace.work]
      omega
    · rw [hcontrol]
      exact .respond (.resume r)

/-- Every step of a task uses something up where nothing comes in. -/
theorem Sim.silent_run (h : Sim s g a) (hfresh : Fresh p g s.driver.rest) (he : e.Silent)
    (hstep : s.step p (.run e) = some s') : Descends p s g a s' := by
  simp only [System.step] at hstep
  cases hrunning : s.running with
  | driver =>
    rw [hrunning] at hstep
    exact h.silent_driver hfresh he hrunning hstep
  | main =>
    rw [hrunning] at hstep
    exact silent_main h hfresh hstep
  | app =>
    rw [hrunning] at hstep
    simp only [stepApp] at hstep
    cases hcontrol : s.app.control with
    | select x =>
      rw [hcontrol] at hstep
      exact h.silent_select hfresh he hrunning hcontrol hstep
    | indicate x =>
      rw [hcontrol] at hstep
      exact h.silent_indicate hfresh hcontrol hstep
    | take =>
      rw [hcontrol] at hstep
      exact h.silent_take hfresh hcontrol hstep
    | respond x =>
      rw [hcontrol] at hstep
      exact h.silent_respond hfresh hrunning hcontrol hstep

/-! ### The driver between two turns -/

theorem stepApp_frame (hstep : stepApp p e s = some s') :
    s'.driver = s.driver ∧ s'.running = s.running := by
  unfold stepApp at hstep
  cases hcontrol : s.app.control with
  | select x =>
    rw [hcontrol] at hstep
    rcases x with (_ | frame) | why | ⟨o, resume⟩
    · cases hstep
      exact ⟨rfl, rfl⟩
    · cases hstep
      exact ⟨rfl, rfl⟩
    · simp [stepSelect] at hstep
    · simp only [stepSelect] at hstep
      rcases hreply : appReply e o s with _ | ⟨r, s₁⟩
      · rw [hreply] at hstep
        simp only at hstep
        split_ifs at hstep
        cases hstep
        exact ⟨rfl, rfl⟩
      · rw [hreply] at hstep
        cases hstep
        obtain ⟨hdriver, -, -, -, hrunning⟩ := appReply_frame hreply
        exact ⟨hdriver, hrunning⟩
  | indicate x =>
    rw [hcontrol] at hstep
    rcases x with _ | why | ⟨⟨ind⟩, resume⟩
    · cases hstep
      exact ⟨rfl, rfl⟩
    · simp [stepIndicate] at hstep
    · simp only [stepIndicate] at hstep
      split_ifs at hstep
      cases hstep
      exact ⟨rfl, rfl⟩
  | take =>
    rw [hcontrol] at hstep
    simp only [stepTake] at hstep
    split at hstep
    · simp at hstep
    · cases hstep
      exact ⟨rfl, rfl⟩
  | respond x =>
    rw [hcontrol] at hstep
    rcases x with _ | why | ⟨o, resume⟩
    · cases hstep
      exact ⟨rfl, rfl⟩
    · simp [stepRespond] at hstep
    · obtain ⟨⟨r, s₁⟩, hreply, hs'⟩ := Option.map_eq_some_iff.mp hstep
      subst hs'
      obtain ⟨hdriver, -, -, -, hrunning⟩ := appReply_frame hreply
      exact ⟨hdriver, hrunning⟩

theorem stepMain_driver (hstep : stepMain s = some s') : s'.driver = s.driver := by
  unfold stepMain at hstep
  split at hstep
  · split at hstep
    · simp at hstep
    · cases hstep
      rfl
  · split_ifs at hstep
    cases hstep
    rfl

/-- The driver is at a stage, and at the start of a turn if the stage is that. -/
def DriverFresh (p : Profile) (s : System) : Prop :=
  ∃ g, Follows driverProtocol (fun g _ => g.Finished) g s.driver.rest ∧ s.driver.held = g.held ∧
    Fresh p g s.driver.rest

theorem DriverFresh.step {act : Action} (h : DriverFresh p s) (hstep : s.step p act = some s') :
    DriverFresh p s' := by
  have hother (hdriver : s'.driver = s.driver) : DriverFresh p s' := by
    unfold DriverFresh
    rw [hdriver]
    exact h
  cases act with
  | poll t =>
    simp only [System.step] at hstep
    split_ifs at hstep
    cases hstep
    exact hother rfl
  | run e =>
    simp only [System.step] at hstep
    cases hrunning : s.running with
    | app =>
      rw [hrunning] at hstep
      exact hother (stepApp_frame hstep).1
    | main =>
      rw [hrunning] at hstep
      exact hother (stepMain_driver hstep)
    | driver =>
      rw [hrunning] at hstep
      obtain ⟨g, hfollows, hheld, -⟩ := h
      simp only [stepDriver] at hstep
      rcases hrest : s.driver.rest with phase | why | ⟨o, resume⟩
      · rw [hrest] at hstep
        cases hstep
        exact ⟨.start, Driver.follows_runIteration p phase, rfl, fun _ => ⟨phase, rfl⟩⟩
      · rw [hrest] at hstep
        simp at hstep
      · rw [hrest] at hstep hfollows
        obtain ⟨⟨r, s₁⟩, hreply, hs'⟩ := Option.map_eq_some_iff.mp hstep
        subst hs'
        obtain ⟨-, hheld'⟩ :=
          driverReply_move (a := .taking) hrunning hheld hfollows.1 hreply
        exact ⟨_, hfollows.2 r trivial, hheld', .of_ne (next_ne_start hfollows.1 r)⟩

theorem Reachable.driverFresh (h : Reachable p s) : DriverFresh p s := by
  induction h with
  | refl => exact ⟨.start, Driver.follows_runIteration p .idle, rfl, fun _ => ⟨.idle, rfl⟩⟩
  | tail _ hstep ih =>
    obtain ⟨act, hstep⟩ := hstep
    exact ih.step hstep

/-- What an invariant of the outline says of a state, at a fresh stage of the driver. -/
theorem Reachable.sim (h : Reachable p s) : ∃ g a, Sim s g a ∧ Fresh p g s.driver.rest := by
  obtain ⟨g₀, a, hsim, -⟩ := h.outline (I := fun _ => True) trivial fun _ _ => trivial
  obtain ⟨g, hfollows, hheld, hfresh⟩ := h.driverFresh
  exact ⟨g, a, ⟨hfollows, hheld, hsim.app, hsim.appHeld, hsim.stored⟩, hfresh⟩

/-! ## Endless runs -/

/-- The rank of a state at the stages of its tasks. -/
def Ranked (p : Profile) (s : System) (x : Rank) : Prop :=
  ∃ g a, Sim s g a ∧ Fresh p g s.driver.rest ∧ x = s.rank g a

/-- A poll, or a step in which nothing comes in. -/
def Action.Silent : Action → Prop
  | .run e => e.Silent
  | .poll _ => True

def Action.IsPoll : Action → Prop
  | .run _ => False
  | .poll _ => True

/-- The tasks' runs that do not end. -/
abbrev Endless (p : Profile) : Type := EndlessRun (System.step p)

theorem Ranked.poll {x : Rank} {t : TaskId} (h : Ranked p s x) (hstep : s.step p (.poll t) = some s') :
    Ranked p s' x := by
  obtain ⟨g, a, hsim, hfresh, rfl⟩ := h
  simp only [System.step] at hstep
  split_ifs at hstep
  cases hstep
  exact ⟨g, a, { hsim with }, hfresh, rfl⟩

/-- In an endless run from any state that the system can come to, in which nothing comes in, only
    finitely many steps are not polls: the tasks do not keep each other busy. -/
theorem silent_run_idles (p : Profile) (r : Endless p) (h : Reachable p (r.state 0))
    (hsilent : ∀ n, (r.action n).Silent) : ∃ k, ∀ n ≥ k, (r.action n).IsPoll := by
  refine r.eventually_idle (Ranked p) wellFounded_lower ?_ ?_ ?_
  · intro n x hpoll hx
    have hnext := r.next n
    cases hact : r.action n with
    | run e =>
      rw [hact] at hpoll
      exact absurd hpoll id
    | poll t =>
      rw [hact] at hnext
      exact hx.poll hnext
  · rintro n x hbusy ⟨g, a, hsim, hfresh, rfl⟩
    have hnext := r.next n
    have hquiet := hsilent n
    cases hact : r.action n with
    | run e =>
      rw [hact] at hnext hquiet
      obtain ⟨g', a', hsim', hfresh', hlower⟩ := hsim.silent_run hfresh hquiet hnext
      exact ⟨_, ⟨g', a', hsim', hfresh', rfl⟩, hlower⟩
    | poll t =>
      rw [hact] at hbusy
      exact absurd trivial hbusy
  · obtain ⟨g, a, hsim, hfresh⟩ := h.sim
    exact ⟨_, g, a, hsim, hfresh, rfl⟩

/-! ### A read that is still to be answered -/

/-- The tasks in turn. -/
def turnOf (n : ℕ) : TaskId := if n % 3 = 0 then .driver else if n % 3 = 1 then .app else .main

theorem turnOf_recurs (t : TaskId) (n : ℕ) : ∃ m ≥ n, turnOf m = t := by
  cases t with
  | driver => exact ⟨3 * n, by omega, if_pos (by omega)⟩
  | app => exact ⟨3 * n + 1, by omega, by rw [turnOf, if_neg (by omega), if_pos (by omega)]⟩
  | main => exact ⟨3 * n + 2, by omega, by rw [turnOf, if_neg (by omega), if_neg (by omega)]⟩

/-- Where all tasks wait they can be polled in turn. -/
def polling (s : System) (h : ∀ t, waits { s with running := t } = true) : Endless p where
  state n := { s with running := turnOf n }
  action n := .poll (turnOf (n + 1))
  next n := if_pos (h (turnOf n))

/-- A task is polled and goes on for `n` steps. -/
def runFor (t : TaskId) (n : ℕ) : List Action := .poll t :: List.replicate n (.run quiet)

/-- The application task indicates a read, the main task responds, and the driver gives up the
    response, whose echo does not come. -/
def answeringSilently : List Action :=
  runFor .app 9 ++ runFor .main 2 ++ runFor .app 5 ++ runFor .driver 23 ++ runFor .app 4 ++
    [.poll .driver]

/-- A read is in `FRAME_CHANNEL_TX`. -/
def pendingRead : System := play .dev [.hear readTelegram] (initial .dev)

theorem reachable_pendingRead : Reachable .dev pendingRead := reachable_play .refl _

set_option maxRecDepth 100000 in
theorem answeringSilently_isSome :
    (answeringSilently.foldlM (step .dev) pendingRead).isSome = true := by
  decide +kernel

/-- All tasks wait. -/
def rested : System := (answeringSilently.foldlM (step .dev) pendingRead).get answeringSilently_isSome

set_option maxRecDepth 100000 in
theorem rested_waits (t : TaskId) : waits { rested with running := t } = true := by
  cases t with
  | driver => decide +kernel
  | app => decide +kernel
  | main => decide +kernel

set_option maxRecDepth 100000 in
theorem rested_answered : pendingRead.frameChannelTx.length = 1 ∧ rested.running = .driver ∧
    rested.answered = [0] := by
  decide +kernel

theorem silent_answeringSilently : ∀ act ∈ answeringSilently, act.Silent := by
  have hrunFor (t : TaskId) (n : ℕ) : ∀ act ∈ runFor t n, act.Silent := by
    intro act hact
    rcases List.mem_cons.mp hact with rfl | hact
    · exact trivial
    · rw [List.eq_of_mem_replicate hact]
      exact ⟨rfl, rfl⟩
  unfold answeringSilently
  simp only [List.forall_mem_append]
  exact ⟨⟨⟨⟨⟨hrunFor _ _, hrunFor _ _⟩, hrunFor _ _⟩, hrunFor _ _⟩, hrunFor _ _⟩, by
    simp [Action.Silent]⟩

/-- A run from the read that is still to be answered. -/
theorem exists_pendingRun : ∃ r : Endless .dev, r.state 0 = pendingRead ∧
    (∀ n, (r.action n).Silent) ∧ ∃ k, (r.state k).answered = [0] ∧
      ∀ n, r.state (n + k) = { rested with running := turnOf n } ∧
        r.action (n + k) = .poll (turnOf (n + 1)) := by
  have hstart : answeringSilently.foldlM (step .dev) pendingRead =
      some ((polling (p := .dev) rested rested_waits).state 0) := by
    have hrunning : rested.running = turnOf 0 := rested_answered.2.1
    show _ = some { rested with running := turnOf 0 }
    rw [← hrunning]
    exact (Option.some_get answeringSilently_isSome).symm
  obtain ⟨r, hr, hactions, hlater⟩ := (polling rested rested_waits).exists_behind _ hstart
  refine ⟨r, hr, fun n => ?_, answeringSilently.length, ?_, hlater⟩
  · rcases hactions n with hmem | ⟨m, hm⟩
    · exact silent_answeringSilently _ hmem
    · rw [hm]
      exact trivial
  · have hstate := (hlater 0).1
    rw [Nat.zero_add] at hstate
    rw [hstate]
    exact rested_answered.2.2

theorem silent_run_idles_pendingRead : pendingRead.frameChannelTx.length = 1 ∧
    ∃ r : Endless .dev, r.state 0 = pendingRead ∧ (∃ n, (r.state n).answered = [0]) ∧
      ∃ k, ∀ n ≥ k, (r.action n).IsPoll := by
  obtain ⟨r, hr, hsilent, k, hanswered, -⟩ := exists_pendingRun
  have hreachable : Reachable .dev (r.state 0) := hr ▸ reachable_pendingRead
  exact ⟨rested_answered.1, r, hr, ⟨k, hanswered⟩, silent_run_idles .dev r hreachable hsilent⟩

end Steps

end System

end EmbassyKnx
