import EmbassyKnx.Transport.Reachable

/-!
# Dropped connection steps

`ApplicationLayer::run` (`src/application_layer.rs`, lines 87–104) drops the
future of `receive` when a service response is ready first. A step that sends a
frame then ends where it waits: for room in `FRAME_CHANNEL_RX`, before the frame
is queued, or for the driver's confirmation, after it is queued. What A2 and A6
do behind the send is lost with the future.

* `Attempt.fullEffect_iff`: an attempt whose response is queued takes full
  effect, unless it is dropped at the confirmation of A2 or A6.
* `history_fullEffect_iff`: the same for every attempt since the device started.
-/

namespace EmbassyKnx.App

open Rust Async Connection FrameLayout FrameReader

/-! ## Full effect -/

namespace Attempt

variable (p : Profile) (t : Attempt)

/-- What an attempt delivers to `ApplicationLayer::receive`. -/
def delivered : List TransportServiceInd :=
  match t.ending with
  | .returned result => App.delivered result
  | .dropped _ => []

/-- The attempt is dropped while A2 or A6 waits for the confirmation of its frame. -/
def DroppedUnconfirmed : Prop :=
  t.ending = .dropped .conSignalWait ∧
    (InSequence t.before.connection t.service t.frame ∨
      Reconnects t.before.connection t.service t.frame)

/-- An attempt that has queued its response has taken full effect. -/
structure FullEffect : Prop where
  /-- The connection and the upper layer are as after the completed step. -/
  step : t.after.queued ≠ t.before.queued →
    ∃ r, connStep p t.before.connection t.service t.frame t.before.block = .ok r ∧
      t.after.connection = r.connection ∧ t.delivered = App.delivered r.result
  /-- A datum whose T_ACK is queued is counted and delivered. -/
  datum : InSequence t.before.connection t.service t.frame →
    t.after.queued = t.before.queued ++
      [.standard (response t.frame.srcAddr t.before.connection.seqNoRecv 0xc2)] →
    t.after.connection.seqNoRecv = t.before.connection.seqNoRecv + 1 ∧
      t.delivered = [.dataConnected t.frame.frame]
  /-- When the T_Disconnect of A6 is queued the connection is down. -/
  disconnect : Reconnects t.before.connection t.service t.frame →
    t.after.queued = t.before.queued ++ [.standard (response t.frame.srcAddr 0 0x81)] →
    t.after.connection.state = .closed ∧ t.after.connection.connectionTimeout = none ∧
      t.delivered = [.disconnect t.frame.frame]

end Attempt

section FullEffect

variable {p : Profile} {t : Attempt}

/-- An attempt that returns takes full effect. -/
theorem Attempt.Happens.fullEffect_returned (ht : t.Happens p) {result : IndResult}
    (hending : t.ending = .returned result) : t.FullEffect p := by
  obtain ⟨r, hstep, hafter, rfl⟩ := ht.returned hending
  have hdelivered : t.delivered = App.delivered r.result := by rw [Attempt.delivered, hending]
  have hqueued : t.after.queued = t.before.queued ++ r.sent := by rw [hafter]; rfl
  have hconnection : t.after.connection = r.connection := by rw [hafter]; rfl
  obtain ⟨a, ha, hact⟩ := connStep_ok hstep
  constructor
  · intro _
    exact ⟨r, hstep, hconnection, hdelivered⟩
  · intro hdatum hsent
    rw [hdatum.stepAction_eq] at ha
    cases ha
    rw [hqueued, List.append_cancel_left_eq] at hsent
    obtain ⟨-, c', ind, hdone, rfl⟩ | ⟨-, rfl⟩ := sending_ok hact
    · obtain ⟨seqNoRecv, hadd, hdone⟩ := (bind_eq_ok_iff _).mp hdone
      cases hdone
      rw [hconnection, hdelivered]
      exact ⟨u8Add_ok hadd, rfl⟩
    · simp at hsent
  · intro hconnect hsent
    rw [hconnect.stepAction_eq] at ha
    cases ha
    rw [hqueued, List.append_cancel_left_eq] at hsent
    obtain ⟨-, c', ind, hdone, rfl⟩ | ⟨-, rfl⟩ := sending_ok hact
    · cases hdone
      rw [hconnection, hdelivered]
      exact ⟨rfl, rfl, rfl⟩
    · simp at hsent

/-- An attempt that is dropped before its frame is queued has nothing to answer for. -/
theorem Attempt.fullEffect_of_not_queued (h : t.after.queued = t.before.queued) :
    t.FullEffect p where
  step hsent := absurd h hsent
  datum _ hsent := by
    rw [h, List.self_eq_append_right] at hsent
    simp at hsent
  disconnect _ hsent := by
    rw [h, List.self_eq_append_right] at hsent
    simp at hsent

/-- A3 and A10 are complete when their frame is queued: behind the send, A3 arms a ticker that
    is armed already and A10 does nothing. -/
theorem Attempt.Happens.fullEffect_unconfirmed (ht : t.Happens p)
    (hc : OpenInvariant t.before.connection) (hending : t.ending = .dropped .conSignalWait)
    (hdatum : ¬InSequence t.before.connection t.service t.frame)
    (hconnect : ¬Reconnects t.before.connection t.service t.frame) : t.FullEffect p := by
  obtain ⟨a, frame, ha, hresponse, hblock, ⟨ho, -⟩ | ⟨-, hafter⟩⟩ :=
    drops_handleInd.mp (ht.dropped hending)
  · simp at ho
  have hdelivered : t.delivered = [] := by rw [Attempt.delivered, hending]
  have hstep : connStep p t.before.connection t.service t.frame t.before.block =
      act p t.before.connection t.frame true a := by
    rw [connStep, ha, hblock]
    rfl
  refine ⟨?_, fun h => absurd h hdatum, fun h => absurd h hconnect⟩
  intro _
  rw [hstep, hdelivered, hafter]
  have hcondition := stepAction_condition ha
  cases a with
  | a1 => cases hresponse
  | a2 => exact absurd hcondition hdatum
  | a3 =>
    have harmed : { t.before.connection with connectionTimeout := armed } = t.before.connection := by
      rw [← (hc hcondition.1).2]
    exact ⟨_, rfl, harmed.symm, rfl⟩
  | a5 => cases hresponse
  | a6 => exact absurd hcondition hconnect
  | a10 => exact ⟨_, rfl, rfl, rfl⟩
  | ignore => cases hresponse

/-- A2 and A6 are not: the datum is not delivered, and neither is the disconnection. -/
theorem Attempt.Happens.not_fullEffect (ht : t.Happens p) (hd : t.DroppedUnconfirmed) :
    ¬t.FullEffect p := by
  intro h
  obtain ⟨hending, hframe⟩ := hd
  have hdelivered : t.delivered = [] := by rw [Attempt.delivered, hending]
  obtain ⟨a, frame, ha, hresponse, -, ⟨ho, -⟩ | ⟨-, hafter⟩⟩ :=
    drops_handleInd.mp (ht.dropped hending)
  · simp at ho
  have hqueued : t.after.queued = t.before.queued ++ [.standard frame] := by rw [hafter]
  rcases hframe with hdatum | hconnect
  · rw [hdatum.stepAction_eq] at ha
    cases ha
    cases hresponse
    have hlost := (h.datum hdatum hqueued).2
    rw [hdelivered] at hlost
    simp at hlost
  · rw [hconnect.stepAction_eq] at ha
    cases ha
    cases hresponse
    have hlost := (h.disconnect hconnect hqueued).2.2
    rw [hdelivered] at hlost
    simp at hlost

/-- An attempt whose response is queued takes full effect, unless it is dropped at the
    confirmation of A2 or A6. -/
theorem Attempt.Happens.fullEffect_iff (ht : t.Happens p) (hc : OpenInvariant t.before.connection) :
    t.FullEffect p ↔ ¬t.DroppedUnconfirmed := by
  constructor
  · intro h hd
    exact ht.not_fullEffect hd h
  · intro hd
    cases hending : t.ending with
    | returned result => exact ht.fullEffect_returned hending
    | dropped o =>
      obtain ⟨a, frame, -, -, -, ⟨-, hafter⟩ | ⟨rfl, -⟩⟩ := drops_handleInd.mp (ht.dropped hending)
      · exact Attempt.fullEffect_of_not_queued (by rw [hafter])
      · apply ht.fullEffect_unconfirmed hc hending
        · intro hdatum
          exact hd ⟨hending, .inl hdatum⟩
        · intro hconnect
          exact hd ⟨hending, .inr hconnect⟩

end FullEffect

/-! ## Histories -/

/-- Since the device has started, every step whose response is queued has taken full effect,
    if and only if none was dropped at the confirmation of A2 or A6. -/
theorem history_fullEffect_iff (p : Profile) {ts : List Attempt} {c : Connection}
    (h : History p .new ts c) :
    (∀ t ∈ ts, t.FullEffect p) ↔ ∀ t ∈ ts, ¬t.DroppedUnconfirmed := by
  have hbefore := h.before (fun _ ht => ht.openInvariant) (.of_closed rfl)
  refine forall₂_congr ?_
  intro t hmem
  exact (hbefore t hmem).1.fullEffect_iff (hbefore t hmem).2

/-- The first datum arrives, its T_ACK is queued, and `receive` is dropped before the driver
    has confirmed it. -/
def Attempt.unconfirmed : Attempt where
  before := ⟨opened .new ⟨0x1101⟩, false, true, [], []⟩
  service := .dataConnected
  frame := datumFrame 0
  ending := .dropped .conSignalWait
  after := ⟨opened .new ⟨0x1101⟩, false, true, [], [.standard (response ⟨0x1101⟩ 0 0xc2)]⟩

theorem Attempt.unconfirmed_happens : Attempt.unconfirmed.Happens .dev := by
  have haction : stepAction .dev (opened .new ⟨0x1101⟩) .dataConnected (datumFrame 0) = .ok .a2 := by
    decide
  exact drops_handleInd.mpr ⟨.a2, response ⟨0x1101⟩ 0 0xc2, haction, rfl, rfl, .inr ⟨rfl, rfl⟩⟩

/-- The connection has the T_ACK of datum 0 queued, still waits for datum 0 and has delivered
    nothing. -/
theorem unconfirmed_half_applied :
    History .dev .new [.connected, .unconfirmed] (opened .new ⟨0x1101⟩) ∧
      Attempt.unconfirmed.after.queued = [.standard (response ⟨0x1101⟩ 0 0xc2)] ∧
      Attempt.unconfirmed.after.connection.seqNoRecv = 0 ∧ Attempt.unconfirmed.delivered = [] ∧
      ¬Attempt.unconfirmed.FullEffect .dev := by
  refine ⟨.cons Attempt.connected_happens (.cons Attempt.unconfirmed_happens (.nil _)), rfl, rfl,
    rfl, ?_⟩
  have hdatum : InSequence (opened .new ⟨0x1101⟩) .dataConnected (datumFrame 0) :=
    ⟨by decide, by decide, rfl, by decide⟩
  exact Attempt.unconfirmed_happens.not_fullEffect ⟨rfl, .inl hdatum⟩

/-- The history that ends with it. -/
theorem history_fullEffect_iff_unconfirmed :
    (∀ t ∈ [Attempt.connected, Attempt.unconfirmed], t.FullEffect .dev) ↔
      ∀ t ∈ [Attempt.connected, Attempt.unconfirmed], ¬t.DroppedUnconfirmed :=
  history_fullEffect_iff .dev
    (.cons Attempt.connected_happens (.cons Attempt.unconfirmed_happens (.nil _)))

end EmbassyKnx.App
