import EmbassyKnx.System.Script

/-!
# Blocks of the frame pool

The pool has as many blocks as each frame channel has slots. A frame is in a block, so
that a task that holds a frame finds a slot for it.

* `frameChannels_have_room`: neither frame channel is full when a frame is sent to it.
-/

namespace EmbassyKnx

open Rust Async

namespace Outline

variable {l l' : Outline}

/-- Every block is free, or in a channel, or held by a task. -/
def Balanced (l : Outline) : Prop :=
  l.free + l.frameChannelTx.length + l.frameChannelRx.length + l.driver.held + l.app.held =
    channelSize

/-- A send adds to what its place holds. -/
theorem held_sender {k : SendStage → AppPlace} (hk : Sender k) (g : SendStage) :
    (k g).held = (k .idle).held + g.held := by
  cases hk with
  | receive frame => rfl
  | respond => exact (Nat.zero_add _).symm

/-- A move takes no block away and makes none. -/
theorem Balanced.move (h : Balanced l) (hmove : Move l l') : Balanced l' := by
  unfold Balanced at h ⊢
  cases hmove with
  | stay => exact h
  | poll t _ => exact h
  | listen _ hstart hg =>
    rw [hstart] at h
    rcases hg with rfl | rfl
    · exact h
    · exact h
  | wake _ hstart _ =>
    rw [hstart] at h
    exact h
  | allocate _ hstage hfree =>
    rw [hstage] at h
    simp only [DriverStage.held, Bool.toNat_true, Bool.toNat_false] at h ⊢
    omega
  | fetch _ hstage hqueue =>
    rw [hstage, hqueue] at h
    simp only [DriverStage.held, List.length_cons] at h ⊢
    omega
  | deliver f _ hstage _ =>
    rw [hstage] at h
    simp only [DriverStage.held, Bool.toNat_true, Bool.toNat_false, List.length_append,
      List.length_singleton] at h ⊢
    omega
  | signal status _ hstage =>
    rw [hstage] at h
    exact h
  | turn _ _ =>
    simp only [DriverStage.held] at h ⊢
    omega
  | receive _ hplace hqueue =>
    rw [hplace, hqueue] at h
    simp only [AppPlace.held, AppStage.held, List.length_cons] at h ⊢
    split_ifs
    · simp only
      omega
    · simp only [SendStage.held, Bool.toNat_true]
      omega
  | tick _ hplace =>
    rw [hplace] at h
    exact h
  | loop _ _ _ =>
    simp only [leave, AppPlace.held, AppStage.held] at h ⊢
    omega
  | drop _ _ _ _ =>
    simp only [leave, AppPlace.held] at h ⊢
    omega
  | received _ hplace _ =>
    rw [hplace] at h
    exact h
  | receivedRead _ hplace =>
    rw [hplace] at h
    exact h
  | build _ hk hplace hfree =>
    rw [hplace] at h
    rw [held_sender hk .built]
    simp only [SendStage.held]
    omega
  | reset _ hk hplace =>
    rw [hplace, held_sender hk .built] at h
    rw [held_sender hk .ready]
    exact h
  | enqueue f _ hk hplace _ =>
    rw [hplace, held_sender hk .ready] at h
    rw [held_sender hk .queued]
    simp only [SendStage.held, List.length_append, List.length_singleton] at h ⊢
    omega
  | confirm _ hk hplace _ =>
    rw [hplace, held_sender hk .queued] at h
    rw [held_sender hk .confirmed]
    exact h
  | indicate ind _ hplace _ =>
    rw [hplace] at h
    exact h
  | indicated _ _ =>
    simp only [leave, AppPlace.held, AppStage.held] at h ⊢
    omega
  | take _ hplace _ =>
    rw [hplace] at h
    exact h
  | responded _ _ _ =>
    simp only [leave, AppPlace.held, AppStage.held] at h ⊢
    omega
  | accept res _ _ _ => exact h
  | answer _ _ _ => exact h

end Outline

namespace System

theorem balanced_initial (p : Profile) : (initialOutline p).Balanced := rfl

/-- The frames that are alive. -/
def liveFrames (s : System) : ℕ :=
  s.frameChannelTx.length + s.frameChannelRx.length + s.driver.held + s.app.held +
    s.connection.storedFrame.toList.length

/-- The driver is at an operation. -/
def DriverAt (s : System) (o : DriverOp) : Prop := ∃ resume, s.driver.rest = .perform o resume

/-- The application task is at an operation of the transport layer. -/
def AppAt (s : System) (o : AppOp) : Prop :=
  (∃ resume, s.app.control = .select (.perform o resume)) ∨
    ∃ resume, s.app.control = .respond (.perform o resume)

section

variable {p : Profile} {s : System} {g : DriverStage} {a : AppPlace}

theorem Sim.driverAt (h : Sim s g a) {o : DriverOp} (ho : s.DriverAt o) : g.Allows o := by
  obtain ⟨resume, hrest⟩ := ho
  have hfollows := h.driver
  rw [hrest] at hfollows
  exact hfollows.1

theorem Sim.appAt (h : Sim s g a) {o : AppOp} (ho : s.AppAt o) :
    (∃ t : AppStage, a = .selecting t ∧ t.Allows o) ∨
      ∃ t, a = .responding t ∧ (AppStage.handling false t).Allows o := by
  have hkeeps := h.app
  obtain ⟨resume, hcontrol⟩ | ⟨resume, hcontrol⟩ := ho
  · rw [hcontrol] at hkeeps
    obtain ⟨t, ha, hfollows⟩ := keeps_select hkeeps
    exact .inl ⟨t, ha, hfollows.1⟩
  · rw [hcontrol] at hkeeps
    obtain ⟨t, ha, hfollows⟩ := keeps_respond hkeeps
    exact .inr ⟨t, ha, hfollows.1⟩

/-- At the operations of a send, the place is that of the send. -/
theorem Sim.sender (h : Sim s g a) {o : AppOp} (ho : s.AppAt o) {t : SendStage}
    (hallows : ∀ u : AppStage, u.Allows o → ∃ b, u = .handling b t) : ∃ k, Sender k ∧ a = k t := by
  obtain ⟨u, rfl, hu⟩ | ⟨u, rfl, hu⟩ := h.appAt ho
  · obtain ⟨b, rfl⟩ := hallows u hu
    exact ⟨_, .receive b, rfl⟩
  · obtain ⟨b, hb⟩ := hallows _ hu
    cases hb
    exact ⟨_, .respond, rfl⟩

/-- All blocks are free or in use. -/
theorem Sim.balanced (h : Sim s g a) (hbalanced : (s.outline g a).Balanced) :
    s.free + s.liveFrames = channelSize := by
  have hsum : s.free + s.frameChannelTx.length + s.frameChannelRx.length + g.held + a.held =
    channelSize := hbalanced
  rw [liveFrames, h.driverHeld, h.appHeld, h.stored]
  simp only [Option.toList_none, List.length_nil]
  omega

end

/-- In all that the system can come to there are no more frames than slots. A frame that is sent
    to a frame channel finds a slot, and the task that sends it does not wait. -/
theorem frameChannels_have_room (p : Profile) {s : System} (h : Reachable p s) :
    s.liveFrames ≤ channelSize ∧
      (∀ f, s.DriverAt (.frameChannelTxSend f) →
        s.frameChannelTx.length < channelSize ∧ (s.running = .driver → s.waits = false)) ∧
      ∀ f, s.AppAt (.frameChannelRxSend f) →
        s.frameChannelRx.length < channelSize ∧ (s.running = .app → s.waits = false) := by
  obtain ⟨g, a, hsim, hbalanced⟩ := h.outline (balanced_initial p) Outline.Balanced.move
  have hsum := hsim.balanced hbalanced
  refine ⟨by omega, fun f hf => ?_, fun f hf => ?_⟩
  · have hg : g = .receiving true := hsim.driverAt hf
    have hheld : s.driver.held = 1 := by rw [hsim.driverHeld, hg]; rfl
    have hroom : s.frameChannelTx.length < channelSize := by
      rw [liveFrames] at hsum
      omega
    refine ⟨hroom, fun hrunning => ?_⟩
    obtain ⟨resume, hrest⟩ := hf
    simp only [waits, hrunning, hrest, driverWaits, decide_eq_false_iff_not]
    omega
  · obtain ⟨k, hk, rfl⟩ := hsim.sender (t := .ready) hf fun u hu => hu
    have hheld : 0 < s.app.held := by
      rw [hsim.appHeld, Outline.held_sender hk]
      exact Nat.succ_pos _
    have hroom : s.frameChannelRx.length < channelSize := by
      rw [liveFrames] at hsum
      omega
    refine ⟨hroom, fun hrunning => ?_⟩
    have hwaits : s.appWaits (.frameChannelRxSend f) = false := by
      simp only [appWaits, decide_eq_false_iff_not]
      omega
    obtain ⟨resume, hcontrol⟩ | ⟨resume, hcontrol⟩ := hf
    · simp only [waits, hrunning, hcontrol, hwaits, Bool.false_and]
    · simp only [waits, hrunning, hcontrol, hwaits]

/-! ### Sends that find a slot -/

/-- Seven frames are queued when the driver hands over the eighth. -/
def delivering : System :=
  (play .dev [.hear (readTelegrams 7 ++ readTelegram.dropLast)] (initial .dev)).advance .dev

/-- The application task sends the response to a read. -/
def responding : System :=
  settle .dev 4 (attempt .dev (.poll .app)
    (play .dev [.hear readTelegram, .poll .app, .poll .main] (initial .dev)))

theorem reachable_delivering : Reachable .dev delivering :=
  reachable_advance (reachable_play .refl [.hear (readTelegrams 7 ++ readTelegram.dropLast)])

theorem reachable_responding : Reachable .dev responding :=
  (reachable_attempt (reachable_play .refl _) _).trans (leads_settle 4 _)

/-- The driver is at `FRAME_CHANNEL_TX.send`. -/
def delivers (s : System) : Bool :=
  match s.driver.rest with
  | .perform (.frameChannelTxSend _) _ => true
  | _ => false

/-- A response is at `FRAME_CHANNEL_RX.send`. -/
def responds (s : System) : Bool :=
  match s.app.control with
  | .respond (.perform (.frameChannelRxSend _) _) => true
  | _ => false

theorem delivers_driverAt {s : System} (h : s.delivers = true) :
    ∃ f, s.DriverAt (.frameChannelTxSend f) := by
  unfold delivers at h
  split at h
  · rename_i f resume hrest
    exact ⟨f, resume, hrest⟩
  · simp at h

theorem responds_appAt {s : System} (h : s.responds = true) :
    ∃ f, s.AppAt (.frameChannelRxSend f) := by
  unfold responds at h
  split at h
  · rename_i f resume hcontrol
    exact ⟨f, .inr ⟨resume, hcontrol⟩⟩
  · simp at h

set_option maxRecDepth 100000 in
theorem delivering_delivers : delivering.running = .driver ∧ delivering.delivers = true ∧
    delivering.frameChannelTx.length = 7 ∧ delivering.liveFrames = 8 := by
  decide +kernel

set_option maxRecDepth 100000 in
theorem responding_responds : responding.running = .app ∧ responding.responds = true := by
  decide +kernel

theorem frameChannels_have_room_delivering :
    (delivering.frameChannelTx.length = 7 ∧ delivering.liveFrames = 8 ∧
      ∃ f, delivering.DriverAt (.frameChannelTxSend f) ∧ delivering.waits = false) ∧
    ∃ f, responding.AppAt (.frameChannelRxSend f) ∧
      responding.frameChannelRx.length < channelSize ∧ responding.waits = false := by
  obtain ⟨hdriver, hdelivers, hqueue, hlive⟩ := delivering_delivers
  obtain ⟨happ, hresponds⟩ := responding_responds
  obtain ⟨f, hf⟩ := delivers_driverAt hdelivers
  obtain ⟨f', hf'⟩ := responds_appAt hresponds
  obtain ⟨-, hsend, -⟩ := frameChannels_have_room .dev reachable_delivering
  obtain ⟨-, -, hsend'⟩ := frameChannels_have_room .dev reachable_responding
  exact ⟨⟨hqueue, hlive, f, hf, (hsend f hf).2 hdriver⟩, f', hf', (hsend' f' hf').1,
    (hsend' f' hf').2 happ⟩

end System

end EmbassyKnx
