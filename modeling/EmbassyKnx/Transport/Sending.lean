import EmbassyKnx.Transport.Reachable
import EmbassyKnx.Transport.Tpdu

/-!
# The sending half of the connection

`send_data_A7` stamps a frame for the peer, stores a copy and sends the frame;
`repeat_data_A9` sends a copy of what is stored; `confirm_data_A8` counts the datum as
received. Nothing in the program calls the three yet: a run is any sequence of calls of
these, of `nak_A4` and of `handle_ind`, each completed or dropped where it waits.

* `exec_sendDataA7_returned`, `drops_sendDataA7` and the same for `repeatDataA9`: what a call
  leaves behind.
* `repeats_stored_datum`: data and repetitions over whole runs.
-/

namespace EmbassyKnx.App

open Rust Async Connection

/-! ## What a call leaves behind -/

section Copy

variable {p : Profile} {f : Frame} {k : Frame → Task (FrameResult Unit)} {w w' : Station}

end Copy

/-! ### Data -/

section Data

variable {p : Profile} {g : Frame} {w w' : Station} {o : AppOp}

end Data

/-! ### Repetitions -/

section Repetition

variable {p : Profile} {w w' : Station} {o : AppOp}

end Repetition

/-! ### Confirmations -/

section Confirmation

variable {p : Profile} {g : Frame} {w w' : Station} {o : AppOp}

end Confirmation

/-! ## Calls -/

/-- A method of the connection, with its argument. -/
inductive Method
  | ind (s : ConnectionService) (f : SizedFrame)
  | nak (f : SizedFrame)
  | sendData (f : Frame)
  | confirmData (f : Frame)
  | repeatData

/-- `x.await.map(|_| ())`. -/
def discardInd (x : Task IndResult) : Task (FrameResult Unit) := do
  let r ← x
  return r.map fun _ => ()

/-- The code of the method; the indication it may return is discarded. -/
def Method.task (p : Profile) : Method → Task (FrameResult Unit)
  | .ind s f => discardInd (handleInd p (s.ind f.frame))
  | .nak f => discardInd (nakA4 p f.frame)
  | .sendData f => sendDataA7 p f
  | .confirmData f => confirmDataA8 p f
  | .repeatData => repeatDataA9 p

/-- A call of a method, with the stations before and after it. -/
structure MethodCall where
  before : Station
  method : Method
  /-- What the call returns; `none` if its future is dropped. -/
  result : Option (FrameResult Unit)
  after : Station

/-- The call ends as the method can end. -/
def MethodCall.Happens (p : Profile) (t : MethodCall) : Prop :=
  match t.result with
  | some result => exec app (t.method.task p) t.before = .returned result t.after
  | none => ∃ o, Drops (t.method.task p) t.before o t.after

/-- What the calls amount to. -/
structure Tally where
  /-- The data confirmed since the connection was opened. -/
  confirmed : ℕ
  /-- The repetitions since the last datum was sent. -/
  repeated : ℕ
  /-- The last datum, as it was stamped. -/
  datum : Option Frame

/-- The connection has the tally in its fields. -/
structure Tally.Holds (y : Tally) (c : Connection) : Prop where
  seqNoSend : c.seqNoSend = UInt8.ofNat y.confirmed
  repCount : c.repCount = UInt8.ofNat y.repeated
  storedFrame : c.storedFrame = y.datum

section Tally

variable {p : Profile} {y : Tally} {w w' : Station} {r : FrameResult Unit} {o : AppOp}

theorem exec_discardInd_returned {x : Task IndResult}
    (h : exec app (discardInd x) w = .returned r w') :
    ∃ result, exec app x w = .returned result w' := by
  rw [discardInd, exec_bind] at h
  cases hx : exec app x w with
  | returned result w'' =>
    rw [hx] at h
    cases h
    exact ⟨result, rfl⟩
  | panicked why w'' =>
    rw [hx] at h
    cases h
  | pending w'' =>
    rw [hx] at h
    cases h

theorem drops_discardInd {x : Task IndResult} :
    Drops (discardInd x) w o w' ↔ Drops x w o w' :=
  dropsAt_bind_left fun _ => neverWaits_pure _

/-- A call of `handle_ind` is an attempt at a step. -/
theorem MethodCall.Happens.attempt {t : MethodCall} {s : ConnectionService} {f : SizedFrame}
    (ht : t.Happens p) (hmethod : t.method = .ind s f) :
    ∃ ending, Attempt.Happens p ⟨t.before, s, f, ending, t.after⟩ := by
  obtain ⟨before, method, result, after⟩ := t
  cases hmethod
  cases result with
  | some result =>
    obtain ⟨result, hresult⟩ := exec_discardInd_returned ht
    exact ⟨.returned result, hresult⟩
  | none =>
    obtain ⟨o, hdrops⟩ := ht
    exact ⟨.dropped o, drops_discardInd.mp hdrops⟩

/-- `nak_A4` sets nothing but the timer. -/
theorem MethodCall.Happens.nak {t : MethodCall} {f : SizedFrame} (ht : t.Happens p)
    (hmethod : t.method = .nak f) :
    ∃ timer, t.after.connection = { t.before.connection with connectionTimeout := timer } := by
  obtain ⟨before, method, result, after⟩ := t
  cases hmethod
  cases result with
  | some result =>
    obtain ⟨result, h⟩ := exec_discardInd_returned ht
    simp only [nakA4, f.srcAddr_frame, f.tpciSeq_frame, exec_bind, exec_lift_ok,
      Outcome.andThen_returned, tryThen, exec_sendResponseFrame] at h
    split_ifs at h
    · cases h
      exact ⟨none, rfl⟩
    · cases h
      exact ⟨before.connection.connectionTimeout, rfl⟩
  | none =>
    obtain ⟨o, hdrops⟩ := ht
    have h := drops_discardInd.mp hdrops
    rw [nakA4, f.srcAddr_frame, f.tpciSeq_frame, Drops,
      dropsAt_bind_right (neverWaits_lift _) (exec_lift_ok _ _ _),
      dropsAt_bind_right (neverWaits_lift _) (exec_lift_ok _ _ _)] at h
    obtain ⟨-, ⟨-, hafter⟩ | ⟨-, hafter⟩⟩ := (drops_tryThen_sendResponseFrame
      (neverWaits_bind (neverWaits_modifyConnection _) fun _ => neverWaits_pure _)).mp h
    · exact ⟨before.connection.connectionTimeout, by rw [hafter]⟩
    · exact ⟨before.connection.connectionTimeout, by rw [hafter]⟩

/-- A frame for the connection numbers the data anew if it opens the connection, and otherwise
    leaves the sending half alone. -/
theorem Tally.Holds.ind {t : Attempt} (hy : y.Holds t.before.connection) (ht : t.Happens p) :
    (if t.before.connection.state = .closed ∧ t.service = .connect then { y with confirmed := 0 }
      else y).Holds t.after.connection := by
  obtain ⟨hseq, hrep, hstored⟩ := hy
  obtain ⟨a, ha, hafter⟩ := ht.leaves
  by_cases hopens : t.before.connection.state = .closed ∧ t.service = .connect
  · rw [if_pos hopens]
    rw [hopens.2, stepAction_closed_connect p hopens.1] at ha
    obtain rfl := Except.ok.inj ha
    obtain hafter | ⟨⟨frame, hnone⟩, -⟩ := hafter
    · rw [hafter]
      exact ⟨rfl, hrep, hstored⟩
    · cases hnone
  · rw [if_neg hopens]
    have hcondition := stepAction_condition ha
    rcases hafter with hafter | ⟨-, hafter⟩
    · rw [hafter]
      cases a with
      | a1 => exact absurd hcondition hopens
      | _ => exact ⟨hseq, hrep, hstored⟩
    · rw [hafter]
      cases a <;> exact ⟨hseq, hrep, hstored⟩

end Tally

/-! ### A repetition after a new connection -/

end EmbassyKnx.App
