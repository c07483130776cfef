import EmbassyKnx.Transport.Reachable

/-!
# Isolation of an open connection

The connection as a machine that reads indications. To an open connection with
peer `a` a frame from another source is an input the machine hides: it changes
nothing and shows `a` nothing.

* `step_foreign`: what a frame from a third party does to an open connection.
* `handleInd_foreign`: the same of `handle_ind`.
* `reaches_isolated`: two runs that differ by frames from third parties are the same
  to the connection, to the upper layer and to the peer.
-/

namespace EmbassyKnx.App

open Rust Async Connection FrameLayout FrameReader

/-! ## Third parties -/

/-- The connection is open with peer `a`. -/
def OpenWith (a : IndividualAddress) (c : Connection) : Prop :=
  c.state ≠ .closed ∧ c.srcAddr = some a

/-- The indication comes from a third party. -/
def Foreign (a : IndividualAddress) (i : Indication) : Prop := i.frame.srcAddr ≠ a

instance (a : IndividualAddress) : DecidablePred (Foreign a) := fun _ =>
  inferInstanceAs (Decidable (_ ≠ _))

/-- What the peer and the upper layer see of a step. -/
inductive Observation
  | sent (f : Frame)
  | delivered (ind : TransportServiceInd)
  deriving DecidableEq

/-- What is visible of a step: the frames sent to `a` and the indication delivered. -/
def visible (a : IndividualAddress) (o : Output) : List Observation :=
  (o.sent.filter (SentTo a)).map .sent ++ (delivered o.result).map .delivered

/-- The action a frame from a third party leads to. -/
theorem connStep_foreign (p : Profile) {a : IndividualAddress} {c : Connection} {i : Indication}
    (hc : OpenWith a c) (hi : Foreign a i) :
    connStep p c i.service i.frame i.block =
      act p c i.frame i.block (if i.service = .connect then .a10 else .ignore) := by
  obtain ⟨hstate, hsrc⟩ := hc
  have hpeer : c.srcAddr ≠ some i.frame.srcAddr := by
    rw [hsrc]
    intro h
    exact hi (Option.some.inj h).symm
  rw [connStep, stepAction_foreign p hstate hpeer, ok_bind]

/-- What a frame from a third party does to an open connection: nothing, and at most a
    T_Disconnect is sent to the third party, in answer to a T_Connect. -/
theorem step_foreign (p : Profile) {a : IndividualAddress} {c : Connection} {i : Indication}
    (hc : OpenWith a c) (hi : Foreign a i) :
    ∃ o, (connectionMachine p).step c i = .ok (c, o) ∧ delivered o.result = [] ∧
      (o.sent = [] ∨ i.service = .connect ∧
        o.sent = [.standard (response i.frame.srcAddr 0 0x81)]) := by
  have hstep := connStep_foreign p hc hi
  by_cases hconnect : i.service = .connect
  · rw [if_pos hconnect] at hstep
    cases hb : i.block with
    | true =>
      refine ⟨⟨[.standard (response i.frame.srcAddr 0 0x81)], .ok none⟩, step_eq_ok_iff.mpr ?_, rfl,
        .inr ⟨hconnect, rfl⟩⟩
      rw [hstep, hb]
      rfl
    | false =>
      refine ⟨⟨[], .error .outOfMemory⟩, step_eq_ok_iff.mpr ?_, rfl, .inl rfl⟩
      rw [hstep, hb]
      rfl
  · rw [if_neg hconnect] at hstep
    exact ⟨⟨[], .ok none⟩, step_eq_ok_iff.mpr hstep, rfl, .inl rfl⟩

/-- `handle_ind` returns to an open connection from a frame of a third party, leaves it alone and
    delivers nothing. -/
theorem handleInd_foreign (p : Profile) {a : IndividualAddress} {w : Station} {i : Indication}
    (hw : OpenWith a w.connection) (hblock : w.block = i.block) (hi : Foreign a i) :
    ∃ result sent, exec app (handleInd p (i.service.ind i.frame.frame)) w =
        .returned result { w with queued := w.queued ++ sent } ∧ delivered result = [] ∧
      (sent = [] ∨ i.service = .connect ∧
        sent = [.standard (response i.frame.srcAddr 0 0x81)]) := by
  obtain ⟨o, hstep, hdelivered, hsent⟩ := step_foreign p hw hi
  have hstep := step_eq_ok_iff.mp hstep
  rw [← hblock] at hstep
  exact ⟨o.result, o.sent, (connStep_eq_ok_iff p _ _ w _).mp hstep, hdelivered, hsent⟩

/-- To an open connection, frames of third parties are hidden. -/
theorem hides_foreign (p : Profile) (a : IndividualAddress) :
    (connectionMachine p).Hides (OpenWith a) (Foreign a) (visible a) := by
  intro c i hc hi
  obtain ⟨o, hstep, hdelivered, hsent⟩ := step_foreign p hc hi
  refine ⟨o, hstep, ?_⟩
  rcases hsent with hsent | ⟨-, hsent⟩
  · rw [visible, hsent, hdelivered]
    rfl
  · have hto : SentTo a (.standard (response i.frame.srcAddr 0 0x81)) = false := by
      rw [SentTo, response_dstAddr]
      exact decide_eq_false hi
    rw [visible, hsent, hdelivered, List.filter_cons_of_neg (by rw [hto]; exact Bool.false_ne_true)]
    rfl

/-- The connection to `a` is isolated from third parties: runs that differ by frames of
    theirs, while the connection stays open, lead to the same connection, the same indications
    and the same frames to `a`; and none of these frames delivers anything or causes more than
    a T_Disconnect to its own source, in answer to a T_Connect. -/
def Isolated (p : Profile) (a : IndividualAddress) (c : Connection) : Prop :=
  (∀ xs ys, (connectionMachine p).StaysIn (OpenWith a) c xs →
      ((xs.filter fun i => ¬Foreign a i) = ys.filter fun i => ¬Foreign a i) →
      (connectionMachine p).StaysIn (OpenWith a) c ys ∧
        Machine.observe (visible a) ((connectionMachine p).run c xs) =
          Machine.observe (visible a) ((connectionMachine p).run c ys)) ∧
    ∀ c' i, OpenWith a c' → Foreign a i → ∃ o, (connectionMachine p).step c' i = .ok (c', o) ∧
      delivered o.result = [] ∧ (o.sent = [] ∨ i.service = .connect ∧
        o.sent = [.standard (response i.frame.srcAddr 0 0x81)])

/-- Every reachable open connection has a peer and is isolated from everybody else. -/
theorem reaches_isolated (p : Profile) {c : Connection} (hreach : Reachable p c)
    (hopen : c.state ≠ .closed) : ∃ a, OpenWith a c ∧ Isolated p a c := by
  obtain ⟨a, ha⟩ := Option.isSome_iff_exists.mp (hreach.openInvariant hopen).1
  refine ⟨a, ⟨hopen, ha⟩, ?_, ?_⟩
  · intro xs ys hxs heq
    exact Machine.observe_run_congr (hides_foreign p a) hxs heq
  · intro c' i hc' hi
    exact step_foreign p hc' hi

/-- The connection that 1.1.1 has opened. -/
theorem reaches_isolated_connectRequest :
    ∃ a, OpenWith a (opened .new ⟨0x1101⟩) ∧ Isolated .dev a (opened .new ⟨0x1101⟩) := by
  have hreach : Reachable .dev (opened .new ⟨0x1101⟩) :=
    ⟨[.connected], .cons Attempt.connected_happens (.nil _)⟩
  exact reaches_isolated .dev hreach (by decide)

end EmbassyKnx.App
