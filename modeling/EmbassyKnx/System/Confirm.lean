import EmbassyKnx.System.Starvation

/-!
# The confirmation of a send

`DataLinkLayer::send` resets `CON_SIGNAL`, puts its frame into `FRAME_CHANNEL_RX` and waits for
the signal, which does not say what frame it is for. A send that is dropped while it waits
leaves its frame behind, and the next send returns with the confirmation of that frame.

* `send_confirmed_by_own`: without such a drop every send is confirmed by its own frame.
* `send_confirmed_by_dropped`: with one it may not be.
-/

namespace EmbassyKnx

open Rust Async

/-- A send waits for its confirmation. -/
def AppPlace.Queued : AppPlace → Prop
  | .selecting (.handling _ .queued) => True
  | .responding .queued => True
  | _ => False

namespace Outline

variable {l l' : Outline}

theorem queued_sender {k : SendStage → AppPlace} (hk : Sender k) (g : SendStage) :
    (k g).Queued ↔ g = .queued := by
  cases hk with
  | receive frame => cases g <;> simp [AppPlace.Queued]
  | respond => cases g <;> simp [AppPlace.Queued]

theorem not_queued_of_ended {g : SendStage} (hg : g.Ended) :
    (∀ b, ¬(AppPlace.selecting (.handling b g)).Queued) ∧ ¬(AppPlace.responding g).Queued := by
  cases g with
  | queued => exact absurd hg id
  | _ => exact ⟨fun b => id, id⟩

/-! ## Whose frame is where -/

/-- The application task waits for the confirmation of a frame just where its place says so,
    and the driver transmits one just in its stage for that. -/
structure Staged (l : Outline) : Prop where
  sending : l.sending.isSome = true ↔ l.app.Queued
  transmitting : l.transmitting.isSome = true ↔ l.driver = .transmitting

/-- The driver's stage changes outside a transmission. -/
theorem Staged.driver (h : Staged l) (happ : l'.app = l.app) (hsending : l'.sending = l.sending)
    (htransmitting : l'.transmitting = l.transmitting) (hstage : l.driver ≠ .transmitting)
    (hstage' : l'.driver ≠ .transmitting) : Staged l' := by
  refine ⟨?_, ?_⟩
  · rw [happ, hsending]
    exact h.sending
  · rw [htransmitting, h.transmitting]
    exact ⟨fun hdriver => absurd hdriver hstage, fun hdriver => absurd hdriver hstage'⟩

/-- The application task goes on outside of the wait for a confirmation. -/
theorem Staged.app (h : Staged l) (hplace : ¬l.app.Queued) (hplace' : ¬l'.app.Queued)
    (hsending : l'.sending = l.sending) (htransmitting : l'.transmitting = l.transmitting)
    (hdriver : l'.driver = l.driver) : Staged l' := by
  refine ⟨?_, ?_⟩
  · rw [hsending, h.sending]
    exact ⟨fun hqueued => absurd hqueued hplace, fun hqueued => absurd hqueued hplace'⟩
  · rw [htransmitting, hdriver]
    exact h.transmitting

/-- A send goes on outside of that wait. -/
theorem Staged.send (h : Staged l) {k : SendStage → AppPlace} (hk : Sender k) {t u : SendStage}
    (hplace : l.app = k t) (hplace' : l'.app = k u) (ht : t ≠ .queued) (hu : u ≠ .queued)
    (hsending : l'.sending = l.sending) (htransmitting : l'.transmitting = l.transmitting)
    (hdriver : l'.driver = l.driver) : Staged l' := by
  refine h.app ?_ ?_ hsending htransmitting hdriver
  · rw [hplace, queued_sender hk]
    exact ht
  · rw [hplace', queued_sender hk]
    exact hu

theorem Staged.leave (h : Staged l) {a : AppPlace} (ha : ¬a.Queued) : Staged (l.leave a) :=
  ⟨⟨fun hsome => by simp [Outline.leave] at hsome, fun hqueued => absurd hqueued ha⟩,
    h.transmitting⟩

theorem Staged.move (h : Staged l) (hmove : Move l l') : Staged l' := by
  cases hmove with
  | stay => exact h
  | poll t _ => exact ⟨h.sending, h.transmitting⟩
  | accept res _ _ _ => exact ⟨h.sending, h.transmitting⟩
  | answer _ _ _ => exact ⟨h.sending, h.transmitting⟩
  | listen _ hstart hg =>
    refine h.driver rfl rfl rfl (by simp [hstart]) ?_
    rcases hg with rfl | rfl
    · simp
    · simp
  | wake _ hstart _ => exact h.driver rfl rfl rfl (by simp [hstart]) (by simp)
  | allocate _ hstage _ => exact h.driver rfl rfl rfl (by simp [hstage]) (by simp)
  | deliver f _ hstage _ => exact h.driver rfl rfl rfl (by simp [hstage]) (by simp)
  | fetch _ _ _ => exact ⟨h.sending, by simp⟩
  | signal status _ _ => exact ⟨h.sending, by simp⟩
  | turn _ _ => exact ⟨h.sending, by simp⟩
  | receive _ hplace _ =>
    refine h.app (by simp [hplace, AppPlace.Queued]) ?_ rfl rfl rfl
    show ¬(AppPlace.selecting (if _ then _ else _)).Queued
    split_ifs
    · exact id
    · exact id
  | tick _ hplace => exact h.app (by simp [hplace, AppPlace.Queued]) id rfl rfl rfl
  | received _ hplace hended =>
    refine h.app ?_ id rfl rfl rfl
    rw [hplace]
    exact (not_queued_of_ended hended).1 _
  | receivedRead _ hplace => exact h.app (by simp [hplace, AppPlace.Queued]) id rfl rfl rfl
  | indicate ind _ hplace _ => exact h.app (by simp [hplace, AppPlace.Queued]) id rfl rfl rfl
  | take _ hplace _ => exact h.app (by simp [hplace, AppPlace.Queued]) id rfl rfl rfl
  | loop _ _ _ => exact h.leave id
  | drop _ _ _ _ => exact h.leave id
  | indicated _ _ => exact h.leave id
  | responded _ _ _ => exact h.leave id
  | build _ hk hplace _ => exact h.send hk hplace rfl (by simp) (by simp) rfl rfl rfl
  | reset _ hk hplace => exact h.send hk hplace rfl (by simp) (by simp) rfl rfl rfl
  | enqueue f _ hk _ _ => exact ⟨by simp [queued_sender hk], h.transmitting⟩
  | confirm _ hk _ _ => exact ⟨by simp [queued_sender hk], h.transmitting⟩

theorem Staged.not_sending (h : Staged l) (hplace : ¬l.app.Queued) : l.sending = none := by
  rw [← h.sending] at hplace
  simpa using hplace

theorem Staged.not_transmitting (h : Staged l) (hstage : l.driver ≠ .transmitting) :
    l.transmitting = none := by
  have hnone : ¬l.transmitting.isSome = true := fun hsome => hstage (h.transmitting.mp hsome)
  simpa using hnone

theorem Staged.not_sending_sender (h : Staged l) {k : SendStage → AppPlace} (hk : Sender k)
    {g : SendStage} (hplace : l.app = k g) (hg : g ≠ .queued) : l.sending = none := by
  refine h.not_sending ?_
  rw [hplace, queued_sender hk]
  exact hg

theorem Staged.not_sending_loop (h : Staged l) {b : Bool} {g : SendStage}
    (hplace : l.app = .selecting (.handling b g)) (hended : g.Ended) : l.sending = none :=
  h.not_sending (hplace ▸ (not_queued_of_ended hended).1 b)

theorem Staged.not_sending_responded (h : Staged l) {g : SendStage}
    (hplace : l.app = .responding g) (hended : g.Ended) : l.sending = none :=
  h.not_sending (hplace ▸ (not_queued_of_ended hended).2)

/-! ## A dropped send leaves its frame -/

/-- The frame whose confirmation is waited for is queued or transmitted, or there is a signal. -/
structure Traced (l : Outline) : Prop where
  staged : l.Staged
  sending : ∀ n, l.sending = some n →
    l.conSignal ≠ none ∨ l.transmitting = some n ∨ n ∈ l.frameChannelRx.map Prod.fst

/-- Where nothing is sent there is nothing to trace. -/
theorem Traced.of_none (hstaged : Staged l) (hnone : l.sending = none) : Traced l :=
  ⟨hstaged, fun n hn => by simp [hnone] at hn⟩

theorem Traced.move (h : Traced l) (hmove : Move l l') : Traced l' := by
  have hstaged := h.staged.move hmove
  cases hmove with
  | fetch _ hstage hqueue =>
    refine ⟨hstaged, fun n hn => ?_⟩
    rcases h.sending n hn with hsignal | htransmitting | hmem
    · exact .inl hsignal
    · rw [h.staged.not_transmitting (by simp [hstage])] at htransmitting
      simp at htransmitting
    · rw [hqueue, List.map_cons, List.mem_cons] at hmem
      rcases hmem with rfl | hmem
      · exact .inr (.inl rfl)
      · exact .inr (.inr hmem)
  | signal status _ _ => exact ⟨hstaged, fun n hn => .inl (by simp)⟩
  | turn _ hfinished =>
    refine ⟨hstaged, fun n hn => ?_⟩
    have hnone := h.staged.not_transmitting hfinished.ne_transmitting
    rcases h.sending n hn with hsignal | htransmitting | hmem
    · exact .inl hsignal
    · rw [hnone] at htransmitting
      simp at htransmitting
    · exact .inr (.inr hmem)
  | enqueue f _ _ _ _ =>
    refine ⟨hstaged, fun n hn => .inr (.inr ?_)⟩
    simp only [Option.some.injEq] at hn
    simp [hn]
  | loop _ _ _ => exact .of_none hstaged rfl
  | drop _ _ _ _ => exact .of_none hstaged rfl
  | indicated _ _ => exact .of_none hstaged rfl
  | responded _ _ _ => exact .of_none hstaged rfl
  | confirm _ _ _ _ => exact .of_none hstaged rfl
  | reset _ hk hplace =>
    exact .of_none hstaged (h.staged.not_sending_sender hk hplace (by simp))
  | _ => exact ⟨hstaged, h.sending⟩

/-! ## Without drops nothing else is on its way -/

/-- Where the frame `n` can be if there is no other one: in the queue, with the driver, or
    signalled. -/
inductive InFlight (n : ℕ) : List (ℕ × Frame) → Option ℕ → Option (Option ℕ × ConStatus) → Prop
  | queued (f : Frame) : InFlight n [(n, f)] none none
  | transmitted : InFlight n [] (some n) none
  | signalled (status : ConStatus) : InFlight n [] none (some (some n, status))

section

variable {n m : ℕ} {f : Frame} {rx : List (ℕ × Frame)} {transmitting : Option ℕ}
  {conSignal : Option (Option ℕ × ConStatus)} {c : Option ℕ × ConStatus}

theorem InFlight.of_cons (h : InFlight n ((m, f) :: rx) transmitting conSignal) :
    m = n ∧ rx = [] ∧ conSignal = none := by
  cases h
  exact ⟨rfl, rfl, rfl⟩

theorem InFlight.of_transmitting (h : InFlight n rx (some m) conSignal) : m = n ∧ rx = [] := by
  cases h
  exact ⟨rfl, rfl⟩

theorem InFlight.of_signal (h : InFlight n rx transmitting (some c)) :
    c.1 = some n ∧ rx = [] ∧ transmitting = none := by
  cases h
  exact ⟨rfl, rfl, rfl⟩

end

/-- Only the frame whose confirmation is waited for is on its way. -/
structure Matched (l : Outline) : Prop where
  staged : l.Staged
  waiting : ∀ n, l.sending = some n → InFlight n l.frameChannelRx l.transmitting l.conSignal
  idle : l.sending = none → l.frameChannelRx = [] ∧ l.transmitting = none ∧ l.conSignal = none

/-- `transport.receive()` is not dropped while a send of it waits. -/
def KeepsSends (l l' : Outline) : Prop :=
  (∃ t, l.app = .selecting t) → l'.app = .taking → l.sending = none

/-- Where nothing is sent, nothing is on its way. -/
theorem Matched.of_idle (hstaged : Staged l) (hsending : l.sending = none)
    (hidle : l.frameChannelRx = [] ∧ l.transmitting = none ∧ l.conSignal = none) : Matched l :=
  ⟨hstaged, fun n hn => by simp [hsending] at hn, fun _ => hidle⟩

theorem Matched.move (h : Matched l) (hmove : Move l l') (hkeeps : KeepsSends l l') :
    Matched l' := by
  have hstaged := h.staged.move hmove
  cases hmove with
  | fetch _ _ hqueue =>
    refine ⟨hstaged, fun n hn => ?_, fun hnone => ?_⟩
    · have hflight := h.waiting n hn
      rw [hqueue] at hflight
      obtain ⟨rfl, rfl, hsignal⟩ := hflight.of_cons
      rw [show l.conSignal = none from hsignal]
      exact .transmitted
    · have hempty := (h.idle hnone).1
      rw [hqueue] at hempty
      simp at hempty
  | signal status _ hstage =>
    obtain ⟨m, hm⟩ := Option.isSome_iff_exists.mp (h.staged.transmitting.mpr hstage)
    refine ⟨hstaged, fun n hn => ?_, fun hnone => ?_⟩
    · have hflight := h.waiting n hn
      rw [hm] at hflight
      obtain ⟨rfl, hempty⟩ := hflight.of_transmitting
      rw [show l.frameChannelRx = [] from hempty, hm]
      exact .signalled status
    · have htransmitting := (h.idle hnone).2.1
      rw [hm] at htransmitting
      simp at htransmitting
  | turn _ hfinished =>
    have hnone := h.staged.not_transmitting hfinished.ne_transmitting
    refine ⟨hstaged, fun n hn => ?_, fun hn => ⟨(h.idle hn).1, rfl, (h.idle hn).2.2⟩⟩
    have hflight := h.waiting n hn
    rwa [hnone] at hflight
  | loop _ hplace hended =>
    exact .of_idle hstaged rfl (h.idle (h.staged.not_sending_loop hplace hended))
  | responded _ hplace hended =>
    exact .of_idle hstaged rfl (h.idle (h.staged.not_sending_responded hplace hended))
  | indicated _ hplace =>
    have hnone := h.staged.not_sending (by simp [hplace, AppPlace.Queued])
    exact .of_idle hstaged rfl (h.idle hnone)
  | drop _ hplace _ _ => exact .of_idle hstaged rfl (h.idle (hkeeps ⟨_, hplace⟩ rfl))
  | reset _ hk hplace =>
    have hnone := h.staged.not_sending_sender hk hplace (by simp)
    exact .of_idle hstaged hnone ⟨(h.idle hnone).1, (h.idle hnone).2.1, rfl⟩
  | enqueue f _ hk hplace _ =>
    obtain ⟨hempty, htransmitting, hsignal⟩ :=
      h.idle (h.staged.not_sending_sender hk hplace (by simp))
    refine ⟨hstaged, fun n hn => ?_, fun hnone => by simp at hnone⟩
    simp only [Option.some.injEq] at hn
    subst hn
    rw [show l.transmitting = none from htransmitting, show l.conSignal = none from hsignal, hempty]
    exact .queued f
  | confirm _ hk hplace hsignal =>
    obtain ⟨n, hn⟩ := Option.isSome_iff_exists.mp
      (h.staged.sending.mpr (hplace ▸ (queued_sender hk .queued).mpr rfl))
    have hflight := h.waiting n hn
    rw [hsignal] at hflight
    obtain ⟨-, hempty, htransmitting⟩ := hflight.of_signal
    exact .of_idle hstaged rfl ⟨hempty, htransmitting, rfl⟩
  | _ => exact ⟨hstaged, h.waiting, h.idle⟩

end Outline

namespace System

variable {p : Profile} {s s' : System} {g : DriverStage} {a : AppPlace}

/-- The confirmation that a send is about to return with is that of its own frame, and where a
    send starts no earlier frame is queued or transmitted. -/
structure ConfirmsOwn (s : System) : Prop where
  returns : s.AppAt .conSignalWait → ∀ signalled status, s.conSignal = some (signalled, status) →
    ∃ n, s.app.sending = some n ∧ signalled = some n
  starts : s.AppAt .conSignalReset → s.frameChannelRx = [] ∧ s.driver.sending = none

/-- `transport.receive()` is not dropped while a send of it waits for its confirmation. -/
def KeepsSends (s s' : System) : Prop := Drops s s' → s.app.sending = none

theorem staged_initial (p : Profile) : (initialOutline p).Staged :=
  ⟨by simp [initialOutline, outline, initial, AppPlace.Queued],
    by simp [initialOutline, outline, initial]⟩

theorem matched_initial (p : Profile) : (initialOutline p).Matched :=
  .of_idle (staged_initial p) rfl ⟨rfl, rfl, rfl⟩

theorem traced_initial (p : Profile) : (initialOutline p).Traced := .of_none (staged_initial p) rfl

theorem keepsSends_outline {g' : DriverStage} {a' : AppPlace} (h : Sim s g a) (h' : Sim s' g' a')
    (hkeeps : KeepsSends s s') : (s.outline g a).KeepsSends (s'.outline g' a') := by
  rintro ⟨t, ha⟩ ha'
  exact hkeeps ⟨h.control_select ha, h'.control_take ha'⟩

theorem Sim.confirmsOwn (h : Sim s g a) (hmatched : (s.outline g a).Matched) : ConfirmsOwn s := by
  refine ⟨fun hwait signalled status hsignal => ?_, fun hreset => ?_⟩
  · obtain ⟨k, hk, rfl⟩ := h.sender (t := .queued) hwait fun u hu => hu
    obtain ⟨n, hn⟩ := Option.isSome_iff_exists.mp
      (hmatched.staged.sending.mpr ((Outline.queued_sender hk .queued).mpr rfl))
    have hflight : Outline.InFlight n s.frameChannelRx s.driver.sending s.conSignal :=
      hmatched.waiting n hn
    rw [hsignal] at hflight
    exact ⟨n, hn, hflight.of_signal.1⟩
  · obtain ⟨k, hk, rfl⟩ := h.sender (t := .built) hreset fun u hu => hu
    have hnone := hmatched.staged.not_sending_sender hk rfl (by simp)
    exact ⟨(hmatched.idle hnone).1, (hmatched.idle hnone).2.1⟩

/-- A send that is dropped while it waits leaves its frame, and returns a block. -/
theorem Sim.drop_leaves (h : Sim s g a) (htraced : (s.outline g a).Traced)
    (hticked : (s.outline g a).Ticked) (hstep : Step p s s') (hkeeps : ¬KeepsSends s s') :
    s'.running = .app ∧ s'.app.control = .take ∧ s'.serviceChannelTx ≠ [] ∧ 0 < s'.free ∧
      (s'.frameChannelRx ≠ [] ∨ s'.driver.sending ≠ none) := by
  unfold KeepsSends at hkeeps
  push Not at hkeeps
  obtain ⟨hdrops, hsending⟩ := hkeeps
  obtain ⟨n, hn⟩ := Option.ne_none_iff_exists'.mp hsending
  obtain ⟨⟨t, rfl, hpends⟩, hqueue, hrunning, houtline⟩ := h.of_drops hstep hdrops
  have hqueue' : s'.serviceChannelTx = s.serviceChannelTx :=
    congrArg Outline.serviceChannelTx houtline
  have hfree' : s'.free = s.free + t.held := congrArg Outline.free houtline
  have hrx' : s'.frameChannelRx = s.frameChannelRx := congrArg Outline.frameChannelRx houtline
  have hdriver' : s'.driver.sending = s.driver.sending := congrArg Outline.transmitting houtline
  -- the send is one of a handler, which has a frame
  have hqueued : (AppPlace.selecting t).Queued :=
    htraced.staged.sending.mp (Option.isSome_iff_exists.mpr ⟨n, hn⟩)
  obtain ⟨b, rfl⟩ : ∃ b, t = .handling b .queued := by
    cases t with
    | handling b u =>
      cases u with
      | queued => exact ⟨b, rfl⟩
      | _ => exact absurd hqueued id
    | _ => exact absurd hqueued id
  cases b with
  | false => exact absurd (hticked .queued rfl) (by simp)
  | true =>
    have hheld : s'.free = s.free + 1 := hfree'
    refine ⟨hrunning, hdrops.2, hqueue' ▸ hqueue, by omega, ?_⟩
    rw [hrx', hdriver']
    rcases htraced.sending n hn with hsignal | htransmitting | hmem
    · exact absurd hpends hsignal
    · have htransmitting : s.driver.sending = some n := htransmitting
      exact .inr (by simp [htransmitting])
    · refine .inl fun hempty => ?_
      have hmem : n ∈ s.frameChannelRx.map Prod.fst := hmem
      simp [hempty] at hmem

/-- The response that is taken then starts a send while the frame is on its way. -/
theorem take_starts_send (hrunning : s.running = .app) (hcontrol : s.app.control = .take)
    (hqueue : s.serviceChannelTx ≠ []) (hfree : 0 < s.free)
    (hearlier : s.frameChannelRx ≠ [] ∨ s.driver.sending ≠ none) :
    ∃ s', Relation.ReflTransGen (Step p) s s' ∧ ¬ConfirmsOwn s' := by
  rcases hcons : s.serviceChannelTx with _ | ⟨⟨n, res⟩, rest⟩
  · exact absurd hcons hqueue
  have htake := step_take (p := p) hrunning hcontrol hcons
  obtain ⟨-, frame, hrun⟩ := step_building (p := p) (s := { s with
    serviceChannelTx := rest, answered := s.answered ++ [n]
    app := { s.app with control := .respond (App.respond p res) } }) hrunning rfl
  simp only [if_pos hfree] at hrun
  refine ⟨_, (Relation.ReflTransGen.single htake).tail ⟨.run quiet, hrun quiet⟩,
    fun hconfirms => ?_⟩
  obtain ⟨hrx, hsending⟩ := hconfirms.starts (.inr ⟨_, rfl⟩)
  exact hearlier.elim (fun hne => hne hrx) fun hne => hne hsending

/-- In every run in which no send is dropped while it waits, every send returns with the
    confirmation of its own frame, and starts when no earlier frame is on its way. Such a drop
    leads to a send that starts while the frame of the dropped one is. -/
theorem send_confirmed_by_own (p : Profile) :
    (∀ s, RunOf p KeepsSends (initial p) s → ConfirmsOwn s) ∧
      ∀ s s', Reachable p s → Step p s s' → ¬KeepsSends s s' →
        ∃ s'', Relation.ReflTransGen (Step p) s' s'' ∧ ¬ConfirmsOwn s'' := by
  refine ⟨fun s hrun => ?_, fun s s' hreachable hstep hkeeps => ?_⟩
  · obtain ⟨g, a, hsim, hmatched⟩ := hrun.outline Outline.KeepsSends keepsSends_outline
      (matched_initial p) Outline.Matched.move
    exact hsim.confirmsOwn hmatched
  · obtain ⟨g, a, hsim, htraced, hticked⟩ := hreachable.outline
      (I := fun l => l.Traced ∧ l.Ticked) ⟨traced_initial p, ticked_initial p⟩
      fun h hmove => ⟨h.1.move hmove, h.2.move hmove⟩
    obtain ⟨hrunning, htake, hqueue, hfree, hearlier⟩ :=
      hsim.drop_leaves htraced hticked hstep hkeeps
    exact take_starts_send hrunning htake hqueue hfree hearlier

/-! ### A rejection and a response -/

/-- The response to a read is there while the rejection of a connect waits. -/
def rejecting : System :=
  (play .dev (connected ++ rejection [none]) (initial .dev)).attempt .dev (.poll .app)

theorem reachable_rejecting : Reachable .dev rejecting :=
  reachable_attempt (reachable_play .refl (connected ++ rejection [none])) _

/-- The rejection is dropped, and the driver sends it while the response is queued. -/
def crossing : List Cue :=
  connected ++ rejection [none] ++ [.poll .app, .hear ([none, none] ++ echo 8 ++ noise)]

/-- The response waits for its confirmation. -/
def awaitsCon (s : System) : Bool :=
  match s.app.control with
  | .respond (.perform .conSignalWait _) => true
  | _ => false

theorem awaitsCon_appAt (h : s.awaitsCon = true) : s.AppAt .conSignalWait := by
  unfold awaitsCon at h
  split at h
  · rename_i resume hcontrol
    exact .inr ⟨resume, hcontrol⟩
  · simp at h

set_option maxRecDepth 100000 in
theorem crossing_awaitsCon : (play .dev crossing (initial .dev)).awaitsCon = true ∧
    (play .dev crossing (initial .dev)).conSignal = some (some 0, .ok) ∧
    (play .dev crossing (initial .dev)).app.sending = some 1 := by
  decide +kernel

/-- A response is about to return with the confirmation of the rejection before it. -/
theorem send_confirmed_by_dropped : ∃ s, Reachable .dev s ∧ s.AppAt .conSignalWait ∧
    s.conSignal = some (some 0, .ok) ∧ s.app.sending = some 1 ∧ ¬ConfirmsOwn s := by
  obtain ⟨hawaits, hsignal, hsending⟩ := crossing_awaitsCon
  refine ⟨_, reachable_play .refl crossing, awaitsCon_appAt hawaits, hsignal, hsending,
    fun hconfirms => ?_⟩
  obtain ⟨n, hn, hsignalled⟩ := hconfirms.returns (awaitsCon_appAt hawaits) _ _ hsignal
  rw [hsending] at hn
  cases hn
  simp at hsignalled

set_option maxRecDepth 100000 in
theorem rejecting_drops : (rejecting.step .dev (.run quiet)).isSome = true ∧
    rejecting.selects = true ∧ rejecting.app.sending = some 0 ∧
    (rejecting.advance .dev).takes = true := by
  decide +kernel

theorem rejecting_keepsSends : ¬KeepsSends rejecting (rejecting.advance .dev) := by
  obtain ⟨-, hselects, hsending, htakes⟩ := rejecting_drops
  intro hkeeps
  have hnone := hkeeps ⟨selects_control hselects, takes_control htakes⟩
  simp [hsending] at hnone

/-- A read is answered, and the driver has transmitted the response. -/
def answering : List Cue :=
  [.hear readTelegram, .poll .app, .poll .main, .poll .app, .hear ([none] ++ echo 9)]

/-- No step drops a send. -/
def confirmed : System :=
  playIf .dev (fun s s' => !(s.selects && s'.takes) || s.app.sending.isNone) answering (initial .dev)

theorem runOf_confirmed : RunOf .dev KeepsSends (initial .dev) confirmed := by
  refine runOf_playIf (fun s s' hok hdrops => ?_) answering _
  obtain ⟨⟨receive, hselect⟩, htake⟩ := hdrops
  simpa [selects, takes, hselect, htake] using hok

set_option maxRecDepth 100000 in
theorem confirmed_awaitsCon : confirmed.awaitsCon = true ∧
    confirmed.conSignal = some (some 0, .ok) ∧ confirmed.app.sending = some 0 := by
  decide +kernel

theorem send_confirmed_by_own_rejecting : (confirmed.AppAt .conSignalWait ∧
    confirmed.conSignal = some (some 0, .ok) ∧ confirmed.app.sending = some 0 ∧
    ConfirmsOwn confirmed) ∧
    ∃ s, Relation.ReflTransGen (Step .dev) (rejecting.advance .dev) s ∧ ¬ConfirmsOwn s := by
  obtain ⟨hawaits, hsignal, hsending⟩ := confirmed_awaitsCon
  exact ⟨⟨awaitsCon_appAt hawaits, hsignal, hsending, (send_confirmed_by_own .dev).1 _ runOf_confirmed⟩,
    (send_confirmed_by_own .dev).2 rejecting _ reachable_rejecting
      (step_advance rejecting_drops.1) rejecting_keepsSends⟩

end System

end EmbassyKnx
