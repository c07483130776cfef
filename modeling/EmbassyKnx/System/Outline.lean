import EmbassyKnx.System.Protocols

/-!
# An outline of the system

An abstract model of the system: the tasks are the stages of their protocols, and what
they move are frames, blocks, indications and responses. `Move` says all that a step can
do, so that an invariant over all interleavings is a case analysis of `Move`.

* `Sim.step`: a step of the tasks' code is a move.
* `RunOf.outline`: what the moves of a kind keep holds in the runs of that kind.
-/

namespace EmbassyKnx

open Rust Async

/-- Where the application task is in its loop. -/
inductive AppPlace
  /-- In `select`. -/
  | selecting (g : AppStage)
  /-- In `self.receive(frame)`, with an indication still to be sent or not. -/
  | indicating (pending : Bool) (held : ℕ)
  | taking
  | responding (g : SendStage)
  deriving DecidableEq

/-- The blocks that the application task holds. -/
def AppPlace.held : AppPlace → ℕ
  | .selecting g => g.held
  | .indicating _ held => held
  | .taking => 0
  | .responding g => g.held

/-- The two places where a send goes on. -/
inductive Sender : (SendStage → AppPlace) → Prop
  | receive (frame : Bool) : Sender fun g => .selecting (.handling frame g)
  | respond : Sender .responding

/-- The system with its tasks reduced to stages. -/
structure Outline where
  running : TaskId
  driver : DriverStage
  transmitting : Option ℕ
  app : AppPlace
  frame : Option (ℕ × Frame)
  sending : Option ℕ
  main : MainTask
  free : ℕ
  frameChannelTx : List (ℕ × Frame)
  frameChannelRx : List (ℕ × Frame)
  conSignal : Option (Option ℕ × ConStatus)
  serviceChannelRx : List (ℕ × ApplicationServiceInd)
  serviceChannelTx : List (ℕ × ApplicationServiceRes)
  delivered : List (ℕ × Frame)
  sent : ℕ
  answered : List ℕ

namespace Outline

/-- The application task leaves a part of its loop, whose frames are dropped. -/
def leave (l : Outline) (app : AppPlace) : Outline :=
  { l with app := app, frame := none, sending := none, free := l.free + l.app.held }

/-- The future of `transport.receive()` is pending at this stage. -/
def Pends (l : Outline) : AppStage → Prop
  | .awaiting => l.frameChannelTx = []
  | .reading => False
  | .handling _ .ready => channelSize ≤ l.frameChannelRx.length
  | .handling _ .queued => l.conSignal = none
  | .handling _ _ => False

/-- The application task, if it is running, can be left where it is. -/
def Waits (l : Outline) : Prop :=
  l.running = .app →
    match l.app with
    | .selecting g => l.Pends g ∧ l.serviceChannelTx = []
    | .indicating pending _ => pending = true
    | .taking => l.serviceChannelTx = []
    | .responding g => l.Pends (.handling false g)

/-- What a step can do. -/
inductive Move : Outline → Outline → Prop
  | stay {l : Outline} : Move l l
  | poll {l : Outline} (t : TaskId) : l.Waits → Move l { l with running := t }
  -- the driver
  | listen {l : Outline} {g : DriverStage} : l.running = .driver → l.driver = .start →
      g = .receiving false ∨ g = .over false → Move l { l with driver := g }
  | wake {l : Outline} : l.running = .driver → l.driver = .start → l.frameChannelRx ≠ [] →
      Move l { l with driver := .woken }
  | allocate {l : Outline} : l.running = .driver → l.driver = .receiving false → 0 < l.free →
      Move l { l with driver := .receiving true, free := l.free - 1 }
  | fetch {l : Outline} {n : ℕ} {f : Frame} {rest : List (ℕ × Frame)} : l.running = .driver →
      l.driver = .woken → l.frameChannelRx = (n, f) :: rest →
      Move l { l with frameChannelRx := rest, driver := .transmitting, transmitting := some n }
  | deliver {l : Outline} (f : Frame) : l.running = .driver → l.driver = .receiving true →
      l.frameChannelTx.length < channelSize →
      Move l { l with
        frameChannelTx := l.frameChannelTx ++ [(l.delivered.length, f)]
        delivered := l.delivered ++ [(l.delivered.length, f)], driver := .over false }
  | signal {l : Outline} (status : ConStatus) : l.running = .driver → l.driver = .transmitting →
      Move l { l with
        conSignal := some (l.transmitting, status), transmitting := none, driver := .over true }
  | turn {l : Outline} : l.running = .driver → l.driver.Finished →
      Move l { l with driver := .start, transmitting := none, free := l.free + l.driver.held }
  -- the application task in `transport.receive()`
  | receive {l : Outline} {x : ℕ × Frame} {rest : List (ℕ × Frame)} : l.running = .app →
      l.app = .selecting .awaiting → l.frameChannelTx = x :: rest →
      Move l { l with
        frameChannelTx := rest, frame := some x
        app := .selecting (if IsGroupRead x.2 then .reading else .handling true .idle) }
  | tick {l : Outline} : l.running = .app → l.app = .selecting .awaiting →
      Move l { l with app := .selecting (.handling false .confirmed) }
  | loop {l : Outline} {b : Bool} {g : SendStage} : l.running = .app →
      l.app = .selecting (.handling b g) → g.Ended → Move l (l.leave (.selecting .awaiting))
  | drop {l : Outline} {g : AppStage} : l.running = .app → l.app = .selecting g → l.Pends g →
      l.serviceChannelTx ≠ [] → Move l (l.leave .taking)
  | received {l : Outline} {b : Bool} {g : SendStage} : l.running = .app →
      l.app = .selecting (.handling b g) → g.Ended →
      Move l { l with app := .indicating false (b.toNat + g.held) }
  | receivedRead {l : Outline} : l.running = .app → l.app = .selecting .reading →
      Move l { l with app := .indicating true 1 }
  -- in a send
  | build {l : Outline} {k : SendStage → AppPlace} : l.running = .app → Sender k →
      l.app = k .idle → 0 < l.free → Move l { l with app := k .built, free := l.free - 1 }
  | reset {l : Outline} {k : SendStage → AppPlace} : l.running = .app → Sender k →
      l.app = k .built → Move l { l with app := k .ready, conSignal := none }
  | enqueue {l : Outline} {k : SendStage → AppPlace} (f : Frame) : l.running = .app → Sender k →
      l.app = k .ready → l.frameChannelRx.length < channelSize →
      Move l { l with
        frameChannelRx := l.frameChannelRx ++ [(l.sent, f)], sent := l.sent + 1
        sending := some l.sent, app := k .queued }
  | confirm {l : Outline} {k : SendStage → AppPlace} {c : Option ℕ × ConStatus} :
      l.running = .app → Sender k → l.app = k .queued → l.conSignal = some c →
      Move l { l with conSignal := none, sending := none, app := k .confirmed }
  -- in the rest of its loop
  | indicate {l : Outline} {held : ℕ} (ind : ApplicationServiceInd) : l.running = .app →
      l.app = .indicating true held → l.serviceChannelRx.length < serviceChannelSize →
      Move l { l with
        serviceChannelRx := l.serviceChannelRx ++ [((l.frame.map Prod.fst).getD 0, ind)]
        frame := none, app := .indicating false held }
  | indicated {l : Outline} {held : ℕ} : l.running = .app → l.app = .indicating false held →
      Move l (l.leave (.selecting .awaiting))
  | take {l : Outline} {n : ℕ} {res : ApplicationServiceRes}
      {rest : List (ℕ × ApplicationServiceRes)} : l.running = .app → l.app = .taking →
      l.serviceChannelTx = (n, res) :: rest →
      Move l { l with
        serviceChannelTx := rest, answered := l.answered ++ [n], app := .responding .idle }
  | responded {l : Outline} {g : SendStage} : l.running = .app → l.app = .responding g → g.Ended →
      Move l (l.leave (.selecting .awaiting))
  -- the main task
  | accept {l : Outline} {n : ℕ} {ind : ApplicationServiceInd} (res : ApplicationServiceRes)
      {rest : List (ℕ × ApplicationServiceInd)} : l.running = .main → l.main = .receive →
      l.serviceChannelRx = (n, ind) :: rest →
      Move l { l with serviceChannelRx := rest, main := .send n res }
  | answer {l : Outline} {n : ℕ} {res : ApplicationServiceRes} : l.running = .main →
      l.main = .send n res → l.serviceChannelTx.length < serviceChannelSize →
      Move l { l with
        serviceChannelTx := l.serviceChannelTx ++ [(n, res)], main := .receive }

end Outline

/-! ## The code refines the outline -/

namespace System

/-- The outline of a system whose tasks are at these stages. -/
def outline (s : System) (driver : DriverStage) (app : AppPlace) : Outline where
  running := s.running
  driver := driver
  transmitting := s.driver.sending
  app := app
  frame := s.app.frame
  sending := s.app.sending
  main := s.main
  free := s.free
  frameChannelTx := s.frameChannelTx
  frameChannelRx := s.frameChannelRx
  conSignal := s.conSignal
  serviceChannelRx := s.serviceChannelRx
  serviceChannelTx := s.serviceChannelTx
  delivered := s.delivered
  sent := s.sent
  answered := s.answered

/-- The rest of the application task's program keeps to its protocol from this place on. -/
def Keeps : AppControl → AppPlace → Prop
  | .select receive, .selecting g => Follows transportProtocol App.TurnEnds g receive
  | .indicate receive, .indicating true _ =>
    receive = .perform (.txSend (.groupValueRead 0)) .done
  | .indicate receive, .indicating false _ => receive = .done () ∨ ∃ why, receive = .panicked why
  | .take, .taking => True
  | .respond send, .responding g =>
    Follows transportProtocol App.AnswerEnds (.handling false g) send
  | _, _ => False

/-- The tasks of the system are at these stages. -/
structure Sim (s : System) (g : DriverStage) (a : AppPlace) : Prop where
  driver : Follows driverProtocol (fun g _ => g.Finished) g s.driver.rest
  driverHeld : s.driver.held = g.held
  app : Keeps s.app.control a
  appHeld : s.app.held = a.held
  stored : s.connection.storedFrame = none

section Operations

variable {p : Profile} {e : Env} {s s' : System} {g : DriverStage} {a : AppPlace}

/-- An operation of the driver leaves the other tasks, their channels and the connection. -/
theorem driverReply_frame {o : DriverOp} {r : driverSig.Ret o}
    (h : driverReply e o s = some (r, s')) : s'.app = s.app ∧ s'.main = s.main ∧
      s'.serviceChannelRx = s.serviceChannelRx ∧ s'.serviceChannelTx = s.serviceChannelTx ∧
        s'.connection = s.connection := by
  cases o with
  | alloc =>
    simp only [driverReply] at h
    split_ifs at h
    · cases h
      exact ⟨rfl, rfl, rfl, rfl, rfl⟩
    · cases h
      exact ⟨rfl, rfl, rfl, rfl, rfl⟩
  | read =>
    obtain ⟨r', -, hr⟩ := Option.map_eq_some_iff.mp h
    cases hr
    exact ⟨rfl, rfl, rfl, rfl, rfl⟩
  | readWithTimeout =>
    cases h
    exact ⟨rfl, rfl, rfl, rfl, rfl⟩
  | write octet =>
    cases h
    exact ⟨rfl, rfl, rfl, rfl, rfl⟩
  | selectReadOrRequest =>
    simp only [driverReply] at h
    cases hoctet : e.octet with
    | some octet =>
      rw [hoctet] at h
      cases h
      exact ⟨rfl, rfl, rfl, rfl, rfl⟩
    | none =>
      rw [hoctet] at h
      simp only at h
      split_ifs at h
      cases h
      exact ⟨rfl, rfl, rfl, rfl, rfl⟩
  | frameChannelRxReceive =>
    simp only [driverReply] at h
    rcases hqueue : s.frameChannelRx with _ | ⟨⟨n, f⟩, rest⟩
    · rw [hqueue] at h
      simp at h
    · rw [hqueue] at h
      cases h
      exact ⟨rfl, rfl, rfl, rfl, rfl⟩
  | frameChannelTxSend f =>
    simp only [driverReply] at h
    split_ifs at h
    cases h
    exact ⟨rfl, rfl, rfl, rfl, rfl⟩
  | conSignal status =>
    cases h
    exact ⟨rfl, rfl, rfl, rfl, rfl⟩

/-- An operation of the driver is a move. -/
theorem driverReply_move {o : DriverOp} {r : driverSig.Ret o} (hrunning : s.running = .driver)
    (hheld : s.driver.held = g.held) (hallows : g.Allows o)
    (hreply : driverReply e o s = some (r, s')) :
    Outline.Move (s.outline g a) (s'.outline (g.next o r) a) ∧
      s'.driver.held = (g.next o r).held := by
  have hbusy (h : g.Busy) : ∀ r, g.next .readWithTimeout r = g := by
    intro r
    cases g with
    | start => exact absurd h id
    | _ => rfl
  cases o with
  | alloc =>
    subst hallows
    simp only [driverReply] at hreply
    split_ifs at hreply with hfree
    · cases hreply
      exact ⟨.allocate hrunning rfl hfree, congrArg (· + 1) hheld⟩
    · cases hreply
      exact ⟨.stay, hheld⟩
  | read =>
    obtain ⟨r', -, hr⟩ := Option.map_eq_some_iff.mp hreply
    cases hr
    have hnext : g.next .read r = g := by cases g <;> rfl
    rw [hnext]
    exact ⟨.stay, hheld⟩
  | readWithTimeout =>
    cases hreply
    rcases hallows with hg | hg
    · rw [hbusy hg]
      exact ⟨.stay, hheld⟩
    · subst hg
      exact ⟨.listen hrunning rfl (.inr rfl), hheld⟩
  | write octet =>
    cases hreply
    have hnext : g.next (.write octet) e.written = g := by cases g <;> rfl
    rw [hnext]
    exact ⟨.stay, hheld⟩
  | selectReadOrRequest =>
    have hg : g = .start := hallows
    subst hg
    simp only [driverReply] at hreply
    cases hoctet : e.octet with
    | some octet =>
      rw [hoctet] at hreply
      cases hreply
      exact ⟨.listen hrunning rfl (.inl rfl), hheld⟩
    | none =>
      rw [hoctet] at hreply
      simp only at hreply
      split_ifs at hreply with hempty
      cases hreply
      have hqueue : s.frameChannelRx ≠ [] := by simpa using hempty
      exact ⟨.wake hrunning rfl hqueue, hheld⟩
  | frameChannelRxReceive =>
    have hg : g = .woken := hallows
    subst hg
    simp only [driverReply] at hreply
    rcases hqueue : s.frameChannelRx with _ | ⟨⟨n, f⟩, rest⟩
    · rw [hqueue] at hreply
      simp at hreply
    · rw [hqueue] at hreply
      cases hreply
      exact ⟨.fetch hrunning rfl hqueue, congrArg (· + 1) hheld⟩
  | frameChannelTxSend f =>
    have hg : g = .receiving true := hallows
    subst hg
    simp only [driverReply] at hreply
    split_ifs at hreply with hroom
    cases hreply
    exact ⟨.deliver f hrunning rfl hroom, congrArg (· - 1) hheld⟩
  | conSignal status =>
    have hg : g = .transmitting := hallows
    subst hg
    cases hreply
    exact ⟨.signal status hrunning rfl, hheld⟩

/-- An operation inside a send is a move. -/
theorem appReply_move {o : AppOp} {r : appSig.Ret o} {k : SendStage → AppPlace} {b : Bool}
    {t : SendStage} (hk : Sender k) (hrunning : s.running = .app)
    (hheld : s.app.held = b.toNat + t.held) (hstored : s.connection.storedFrame = none)
    (hallows : (AppStage.handling b t).Allows o) (hreply : appReply e o s = some (r, s')) :
    ∃ t', (AppStage.handling b t).next o r = .handling b t' ∧
      Outline.Move (s.outline g (k t)) (s'.outline g (k t')) ∧ s'.app.held = b.toNat + t'.held ∧
      AppStage.Answers o r ∧ s'.driver = s.driver ∧ s'.connection.storedFrame = none := by
  cases o with
  | alloc =>
    obtain ⟨b', ht⟩ := hallows
    cases ht
    simp only [appReply] at hreply
    split_ifs at hreply with hfree
    · cases hreply
      exact ⟨.built, rfl, .build hrunning hk rfl hfree, congrArg (· + 1) hheld, trivial, rfl,
        hstored⟩
    · cases hreply
      exact ⟨.idle, rfl, .stay, hheld, trivial, rfl, hstored⟩
  | borrowMut =>
    cases hreply
    exact ⟨t, rfl, .stay, hheld, trivial, rfl, hstored⟩
  | releaseMut =>
    cases hreply
    exact ⟨t, rfl, .stay, hheld, trivial, rfl, hstored⟩
  | getConnection =>
    cases hreply
    exact ⟨t, rfl, .stay, hheld, hstored, rfl, hstored⟩
  | setConnection c =>
    cases hreply
    exact ⟨t, rfl, .stay, hheld, trivial, rfl, hallows⟩
  | conSignalReset =>
    obtain ⟨b', ht⟩ := hallows
    cases ht
    cases hreply
    exact ⟨.ready, rfl, .reset hrunning hk rfl, hheld, trivial, rfl, hstored⟩
  | frameChannelRxSend f =>
    obtain ⟨b', ht⟩ := hallows
    cases ht
    simp only [appReply] at hreply
    split_ifs at hreply with hroom
    cases hreply
    exact ⟨.queued, rfl, .enqueue f hrunning hk rfl hroom, congrArg (· - 1) hheld, trivial, rfl,
      hstored⟩
  | conSignalWait =>
    obtain ⟨b', ht⟩ := hallows
    cases ht
    simp only [appReply] at hreply
    rcases hsignal : s.conSignal with _ | c
    · rw [hsignal] at hreply
      simp at hreply
    · rw [hsignal] at hreply
      cases hreply
      exact ⟨.confirmed, rfl, .confirm hrunning hk rfl hsignal, hheld, trivial, rfl, hstored⟩
  | selectFrameOrTick timer => exact absurd hallows (by simp [AppStage.Allows])

/-- An operation of `transport.receive()` outside a send is a move. -/
theorem appReply_move_receive {o : AppOp} {r : appSig.Ret o} {h : AppStage}
    (hstage : h = .awaiting ∨ h = .reading) (hrunning : s.running = .app)
    (hheld : s.app.held = h.held) (hstored : s.connection.storedFrame = none)
    (hallows : h.Allows o) (hreply : appReply e o s = some (r, s')) :
    Outline.Move (s.outline g (.selecting h)) (s'.outline g (.selecting (h.next o r))) ∧
      s'.app.held = (h.next o r).held ∧
      AppStage.Answers o r ∧ s'.driver = s.driver ∧ s'.connection.storedFrame = none := by
  have hsame (o : AppOp) (ho : ∀ t, o ≠ .selectFrameOrTick t) (r : appSig.Ret o) :
      h.next o r = h := by
    rcases hstage with rfl | rfl
    · cases o with
      | selectFrameOrTick t => exact absurd rfl (ho t)
      | _ => rfl
    · cases o with
      | selectFrameOrTick t => exact absurd rfl (ho t)
      | _ => rfl
  have hnot (b : Bool) (t : SendStage) : h ≠ .handling b t := by
    rintro rfl
    simp at hstage
  cases o with
  | alloc => exact absurd hallows (by rintro ⟨b, hb⟩; exact hnot _ _ hb)
  | borrowMut =>
    cases hreply
    rw [hsame _ (by simp)]
    exact ⟨.stay, hheld, trivial, rfl, hstored⟩
  | releaseMut =>
    cases hreply
    rw [hsame _ (by simp)]
    exact ⟨.stay, hheld, trivial, rfl, hstored⟩
  | getConnection =>
    cases hreply
    rw [hsame _ (by simp)]
    exact ⟨.stay, hheld, hstored, rfl, hstored⟩
  | setConnection c =>
    cases hreply
    rw [hsame _ (by simp)]
    exact ⟨.stay, hheld, trivial, rfl, hallows⟩
  | conSignalReset => exact absurd hallows (by rintro ⟨b, hb⟩; exact hnot _ _ hb)
  | frameChannelRxSend f => exact absurd hallows (by rintro ⟨b, hb⟩; exact hnot _ _ hb)
  | conSignalWait => exact absurd hallows (by rintro ⟨b, hb⟩; exact hnot _ _ hb)
  | selectFrameOrTick timer =>
    have hawaiting : h = .awaiting := hallows
    subst hawaiting
    simp only [appReply] at hreply
    rcases hqueue : s.frameChannelTx with _ | ⟨⟨n, f⟩, rest⟩
    · rw [hqueue] at hreply
      simp only at hreply
      split_ifs at hreply
      cases hreply
      exact ⟨.tick hrunning rfl, hheld, trivial, rfl, hstored⟩
    · rw [hqueue] at hreply
      cases hreply
      have hone : s.app.held + 1 = 1 := congrArg (· + 1) hheld
      refine ⟨.receive (l := s.outline g (.selecting .awaiting)) (x := (n, f)) hrunning rfl hqueue,
        ?_, trivial, rfl, hstored⟩
      show s.app.held + 1 = (if IsGroupRead f then AppStage.reading else .handling true .idle).held
      rw [hone]
      split_ifs
      · rfl
      · rfl

end Operations

/-! ### Steps -/

section Steps

variable {p : Profile} {e : Env} {s s' : System} {g : DriverStage} {a : AppPlace}

/-- A step keeps the tasks in step with the outline. -/
def Refines (s : System) (g : DriverStage) (a : AppPlace) (s' : System) : Prop :=
  ∃ g' a', Outline.Move (s.outline g a) (s'.outline g' a') ∧ Sim s' g' a'

theorem Sim.stepDriver (h : Sim s g a) (hrunning : s.running = .driver)
    (hstep : stepDriver p e s = some s') : Refines s g a s' := by
  have hfollows := h.driver
  unfold System.stepDriver at hstep
  rcases hrest : s.driver.rest with phase | why | ⟨o, resume⟩
  · rw [hrest] at hstep hfollows
    cases hstep
    refine ⟨.start, a, ?_, Driver.follows_runIteration p phase, rfl, h.app, h.appHeld, h.stored⟩
    rw [h.driverHeld]
    exact .turn hrunning hfollows
  · rw [hrest] at hstep
    simp at hstep
  · rw [hrest] at hstep hfollows
    obtain ⟨⟨r, s₁⟩, hreply, hs'⟩ := Option.map_eq_some_iff.mp hstep
    obtain ⟨hallows, hresume⟩ := hfollows
    obtain ⟨hmove, hheld⟩ := driverReply_move (a := a) hrunning h.driverHeld hallows hreply
    obtain ⟨happ, -, -, -, hconnection⟩ := driverReply_frame hreply
    subst hs'
    refine ⟨_, a, hmove, hresume r trivial, hheld, ?_, ?_, ?_⟩
    · show Keeps s₁.app.control a
      rw [happ]
      exact h.app
    · show s₁.app.held = a.held
      rw [happ]
      exact h.appHeld
    · show s₁.connection.storedFrame = none
      rw [hconnection]
      exact h.stored

/-- The application task starts over. -/
theorem Sim.leave (h : Sim s g a) :
    Sim (s.leave (.select (App.receiveTurn p))) g (.selecting .awaiting) :=
  ⟨h.driver, h.driverHeld, App.follows_receiveTurn p, rfl, h.stored⟩

theorem outline_leave (h : Sim s g a) (control : AppControl) (a' : AppPlace) :
    (s.leave control).outline g a' = (s.outline g a).leave a' := by
  unfold System.leave System.outline Outline.leave
  rw [h.appHeld]

theorem keeps_select {x : App.Task (Option (FrameResult TransportServiceInd))}
    (h : Keeps (.select x) a) :
    ∃ t, a = .selecting t ∧ Follows transportProtocol App.TurnEnds t x := by
  cases a with
  | selecting t => exact ⟨t, rfl, h⟩
  | _ => exact absurd h id

theorem keeps_respond {x : App.Task Unit} (h : Keeps (.respond x) a) :
    ∃ t, a = .responding t ∧ Follows transportProtocol App.AnswerEnds (.handling false t) x := by
  cases a with
  | responding t => exact ⟨t, rfl, h⟩
  | _ => exact absurd h id

theorem applicationReceive_ok {f : Frame} {apci : UInt16} (h : f.apci .four = .ok apci) :
    App.applicationReceive (.ok (.dataGroup f)) =
      if apci = 0 then .perform (.txSend (.groupValueRead 0)) .done else .done () := by
  simp only [App.applicationReceive]
  rw [h]
  rfl

theorem applicationReceive_error {f : Frame} {why : Panic} (h : f.apci .four = .error why) :
    App.applicationReceive (.ok (.dataGroup f)) = .panicked why := by
  simp only [App.applicationReceive]
  rw [h]
  rfl

/-- What `self.receive` does with a result that is no group read. -/
theorem keeps_applicationReceive (frame : FrameResult TransportServiceInd) (held : ℕ)
    (hread : ¬∃ f, frame = .ok (.dataGroup f) ∧ f.apci .four = .ok 0) :
    Keeps (.indicate (App.applicationReceive frame)) (.indicating false held) := by
  show App.applicationReceive frame = .done () ∨ ∃ why, App.applicationReceive frame = .panicked why
  rcases frame with e | ind
  · exact .inl rfl
  cases ind with
  | dataGroup f =>
    cases hapci : f.apci .four with
    | error why => exact .inr ⟨why, applicationReceive_error hapci⟩
    | ok apci =>
      have hne : apci ≠ 0 := by
        rintro rfl
        exact hread ⟨f, rfl, hapci⟩
      rw [applicationReceive_ok hapci, if_neg hne]
      exact .inl rfl
  | _ => exact .inl rfl

/-- An operation of `transport.receive()`. -/
theorem Sim.stepReceive {t : AppStage} {o : AppOp} {r : appSig.Ret o}
    {resume : appSig.Ret o → App.Task (Option (FrameResult TransportServiceInd))}
    (h : Sim s g (.selecting t)) (hrunning : s.running = .app)
    (hfollows : Follows transportProtocol App.TurnEnds t (.perform o resume))
    (hreply : appReply e o s = some (r, s')) :
    Refines s g (.selecting t) { s' with app.control := .select (resume r) } := by
  obtain ⟨hallows, hresume⟩ := hfollows
  by_cases hstage : t = .awaiting ∨ t = .reading
  · obtain ⟨hmove, hheld, hanswers, hdriver, hstored⟩ :=
      appReply_move_receive (g := g) hstage hrunning h.appHeld h.stored hallows hreply
    refine ⟨g, _, hmove, ?_, ?_, hresume r hanswers, hheld, hstored⟩
    · show Follows _ _ g s'.driver.rest
      rw [hdriver]
      exact h.driver
    · show s'.driver.held = g.held
      rw [hdriver]
      exact h.driverHeld
  · cases t with
    | awaiting => simp at hstage
    | reading => simp at hstage
    | handling b t =>
      obtain ⟨t', hnext, hmove, hheld, hanswers, hdriver, hstored⟩ :=
        appReply_move (g := g) (.receive b) hrunning h.appHeld h.stored hallows hreply
      have hfollows := hresume r hanswers
      rw [show transportProtocol.next (.handling b t) o r = .handling b t' from hnext] at hfollows
      refine ⟨g, _, hmove, ?_, ?_, hfollows, hheld, hstored⟩
      · show Follows _ _ g s'.driver.rest
        rw [hdriver]
        exact h.driver
      · show s'.driver.held = g.held
        rw [hdriver]
        exact h.driverHeld

/-- The future of `transport.receive()` is pending where an operation gets no answer. -/
theorem pends_of_reply {t : AppStage} {o : AppOp} (hallows : t.Allows o)
    (hreply : appReply e o s = none) : (s.outline g a).Pends t := by
  cases o with
  | alloc =>
    simp only [appReply] at hreply
    split_ifs at hreply
  | borrowMut => simp [appReply] at hreply
  | releaseMut => simp [appReply] at hreply
  | getConnection => simp [appReply] at hreply
  | setConnection c => simp [appReply] at hreply
  | conSignalReset => simp [appReply] at hreply
  | frameChannelRxSend f =>
    obtain ⟨b, ht⟩ := hallows
    subst ht
    simp only [appReply] at hreply
    split_ifs at hreply with hroom
    exact Nat.le_of_not_lt hroom
  | conSignalWait =>
    obtain ⟨b, ht⟩ := hallows
    subst ht
    simp only [appReply] at hreply
    rcases hsignal : s.conSignal with _ | c
    · exact hsignal
    · rw [hsignal] at hreply
      simp at hreply
  | selectFrameOrTick timer =>
    have ht : t = .awaiting := hallows
    subst ht
    simp only [appReply] at hreply
    rcases hqueue : s.frameChannelTx with _ | ⟨⟨n, f⟩, rest⟩
    · exact hqueue
    · rw [hqueue] at hreply
      simp at hreply

theorem Sim.stepSelect {x : App.Task (Option (FrameResult TransportServiceInd))}
    (h : Sim s g a) (hrunning : s.running = .app) (hcontrol : s.app.control = .select x)
    (hstep : stepSelect p e s x = some s') : Refines s g a s' := by
  have hkeeps := h.app
  rw [hcontrol] at hkeeps
  obtain ⟨t, rfl, hfollows⟩ := keeps_select hkeeps
  rcases x with (_ | frame) | why | ⟨o, resume⟩
  · -- the loop of `transport.receive()` goes on
    cases hstep
    refine ⟨g, .selecting .awaiting, ?_, h.leave⟩
    rw [outline_leave h]
    obtain ⟨r, hr, ⟨rfl, f, rfl, -⟩ | ⟨b, ⟨u, rfl, hu⟩, -⟩⟩ := hfollows
    · simp [App.turnResult] at hr
    · exact .loop hrunning rfl hu
  · cases hstep
    obtain ⟨r, hr, ⟨rfl, f, rfl, hapci⟩ | ⟨b, ⟨u, rfl, hu⟩, hnot⟩⟩ := hfollows
    · simp only [App.turnResult, Option.some.injEq] at hr
      subst hr
      refine ⟨g, .indicating true 1, .receivedRead hrunning rfl, h.driver, h.driverHeld, ?_,
        h.appHeld, h.stored⟩
      exact applicationReceive_ok hapci
    · refine ⟨g, .indicating false (b.toNat + u.held), .received hrunning rfl hu, h.driver,
        h.driverHeld, ?_, h.appHeld, h.stored⟩
      refine keeps_applicationReceive frame _ ?_
      rintro ⟨f, rfl, hapci⟩
      refine hnot ⟨f, ?_, hapci⟩
      rcases r with e | _ | ind
      · simp [App.turnResult] at hr
      · simp [App.turnResult] at hr
      · simpa [App.turnResult] using hr.symm
  · simp [System.stepSelect] at hstep
  · simp only [System.stepSelect] at hstep
    rcases hreply : appReply e o s with _ | ⟨r, s₁⟩
    · rw [hreply] at hstep
      simp only at hstep
      split_ifs at hstep with hempty
      cases hstep
      have hready : s.serviceChannelTx ≠ [] := by simpa using hempty
      refine ⟨g, .taking, ?_, h.driver, h.driverHeld, trivial, rfl, h.stored⟩
      rw [outline_leave h]
      exact .drop hrunning rfl (pends_of_reply hfollows.1 hreply) hready
    · rw [hreply] at hstep
      cases hstep
      exact h.stepReceive hrunning hfollows hreply

theorem Sim.stepIndicate {x : Async applicationSig Unit} (h : Sim s g a)
    (hrunning : s.running = .app) (hcontrol : s.app.control = .indicate x)
    (hstep : stepIndicate p s x = some s') : Refines s g a s' := by
  have hkeeps := h.app
  rw [hcontrol] at hkeeps
  rcases a with t | ⟨_ | _, held⟩ | _ | t
  · exact absurd hkeeps id
  · obtain rfl | ⟨why, rfl⟩ := hkeeps
    · cases hstep
      refine ⟨g, .selecting .awaiting, ?_, h.leave⟩
      rw [outline_leave h]
      exact .indicated hrunning rfl
    · simp [System.stepIndicate] at hstep
  · have hx : x = .perform (.txSend (.groupValueRead 0)) .done := hkeeps
    subst hx
    simp only [System.stepIndicate] at hstep
    split_ifs at hstep with hroom
    cases hstep
    exact ⟨g, .indicating false held, .indicate _ hrunning rfl hroom, h.driver, h.driverHeld,
      .inl rfl, h.appHeld, h.stored⟩
  · exact absurd hkeeps id
  · exact absurd hkeeps id

theorem Sim.stepTake (h : Sim s g a) (hrunning : s.running = .app)
    (hcontrol : s.app.control = .take) (hstep : stepTake p s = some s') : Refines s g a s' := by
  have hkeeps := h.app
  rw [hcontrol] at hkeeps
  cases a with
  | taking =>
    unfold System.stepTake at hstep
    rcases hqueue : s.serviceChannelTx with _ | ⟨⟨n, res⟩, rest⟩
    · rw [hqueue] at hstep
      simp at hstep
    · rw [hqueue] at hstep
      cases hstep
      exact ⟨g, .responding .idle, .take hrunning rfl hqueue, h.driver, h.driverHeld,
        App.follows_respond p res, h.appHeld, h.stored⟩
  | _ => exact absurd hkeeps id

theorem Sim.stepRespond {x : App.Task Unit} (h : Sim s g a) (hrunning : s.running = .app)
    (hcontrol : s.app.control = .respond x) (hstep : stepRespond p e s x = some s') :
    Refines s g a s' := by
  have hkeeps := h.app
  rw [hcontrol] at hkeeps
  obtain ⟨t, rfl, hfollows⟩ := keeps_respond hkeeps
  rcases x with _ | why | ⟨o, resume⟩
  · cases hstep
    obtain ⟨u, hu, hended⟩ := hfollows
    cases hu
    refine ⟨g, .selecting .awaiting, ?_, h.leave⟩
    rw [outline_leave h]
    exact .responded hrunning rfl hended
  · simp [System.stepRespond] at hstep
  · obtain ⟨⟨r, s₁⟩, hreply, hs'⟩ := Option.map_eq_some_iff.mp hstep
    subst hs'
    obtain ⟨hallows, hresume⟩ := hfollows
    have hheld : s.app.held = false.toNat + t.held := by
      rw [h.appHeld]
      exact (Nat.zero_add _).symm
    obtain ⟨t', hnext, hmove, hheld', hanswers, hdriver, hstored⟩ :=
      appReply_move (g := g) .respond hrunning hheld h.stored hallows hreply
    have hfollows := hresume r hanswers
    rw [show transportProtocol.next (.handling false t) o r = .handling false t' from hnext]
      at hfollows
    refine ⟨g, _, hmove, ?_, ?_, hfollows, ?_, hstored⟩
    · show Follows _ _ g s₁.driver.rest
      rw [hdriver]
      exact h.driver
    · show s₁.driver.held = g.held
      rw [hdriver]
      exact h.driverHeld
    · show s₁.app.held = t'.held
      rw [hheld']
      exact Nat.zero_add _

theorem Sim.stepMain (h : Sim s g a) (hrunning : s.running = .main)
    (hstep : stepMain s = some s') : Refines s g a s' := by
  unfold System.stepMain at hstep
  rcases hmain : s.main with _ | ⟨n, res⟩
  · rw [hmain] at hstep
    rcases hqueue : s.serviceChannelRx with _ | ⟨⟨n, ⟨asap⟩⟩, rest⟩
    · rw [hqueue] at hstep
      simp at hstep
    · rw [hqueue] at hstep
      cases hstep
      exact ⟨g, a, .accept _ hrunning hmain hqueue, h.driver, h.driverHeld, h.app, h.appHeld,
        h.stored⟩
  · rw [hmain] at hstep
    simp only at hstep
    split_ifs at hstep with hroom
    cases hstep
    exact ⟨g, a, .answer hrunning hmain hroom, h.driver, h.driverHeld, h.app, h.appHeld, h.stored⟩

/-- An operation that waits gets no answer, unless the ticker fires. -/
theorem pends_of_waits {t : AppStage} {o : AppOp} (hallows : t.Allows o)
    (hwaits : s.appWaits o = true) : (s.outline g a).Pends t := by
  refine pends_of_reply (e := ⟨none, .ok (), false⟩) hallows ?_
  cases o with
  | frameChannelRxSend f =>
    have hfull : channelSize ≤ s.frameChannelRx.length := by simpa [appWaits] using hwaits
    exact if_neg (Nat.not_lt_of_le hfull)
  | conSignalWait =>
    have hnone : s.conSignal = none := by simpa [appWaits] using hwaits
    simp [appReply, hnone]
  | selectFrameOrTick timer =>
    have hempty : s.frameChannelTx = [] := by simpa [appWaits] using hwaits
    simp [appReply, hempty]
  | _ => simp [appWaits] at hwaits

/-- An application task that waits is at an operation that is pending. -/
theorem Sim.waits (h : Sim s g a) (hwaits : s.waits = true) : (s.outline g a).Waits := by
  intro hrunning
  have hrunning : s.running = .app := hrunning
  have hkeeps := h.app
  simp only [System.waits, hrunning] at hwaits
  rcases hcontrol : s.app.control with x | x | _ | x
  · rw [hcontrol] at hwaits hkeeps
    obtain ⟨t, rfl, hfollows⟩ := keeps_select hkeeps
    rcases x with _ | _ | ⟨o, resume⟩
    · simp at hwaits
    · simp at hwaits
    · simp only [Bool.and_eq_true] at hwaits
      exact ⟨pends_of_waits hfollows.1 hwaits.1, List.isEmpty_iff.mp hwaits.2⟩
  · rw [hcontrol] at hwaits hkeeps
    rcases a with t | ⟨_ | _, held⟩ | _ | t
    · exact absurd hkeeps id
    · obtain rfl | ⟨why, rfl⟩ := hkeeps
      · simp at hwaits
      · simp at hwaits
    · rfl
    · exact absurd hkeeps id
    · exact absurd hkeeps id
  · rw [hcontrol] at hwaits hkeeps
    cases a with
    | taking => exact List.isEmpty_iff.mp hwaits
    | _ => exact absurd hkeeps id
  · rw [hcontrol] at hwaits hkeeps
    obtain ⟨t, rfl, hfollows⟩ := keeps_respond hkeeps
    rcases x with _ | _ | ⟨o, resume⟩
    · simp at hwaits
    · simp at hwaits
    · exact pends_of_waits hfollows.1 hwaits

/-- A step of the tasks is a move of the outline. -/
theorem Sim.step {act : Action} (h : Sim s g a) (hstep : s.step p act = some s') :
    Refines s g a s' := by
  cases act with
  | poll t =>
    simp only [System.step] at hstep
    split_ifs at hstep with hwaits
    cases hstep
    exact ⟨g, a, .poll t (h.waits hwaits), h.driver, h.driverHeld, h.app, h.appHeld, h.stored⟩
  | run e =>
    simp only [System.step] at hstep
    cases hrunning : s.running with
    | driver =>
      rw [hrunning] at hstep
      exact h.stepDriver hrunning hstep
    | main =>
      rw [hrunning] at hstep
      exact h.stepMain hrunning hstep
    | app =>
      rw [hrunning] at hstep
      simp only [stepApp] at hstep
      cases hcontrol : s.app.control with
      | select x =>
        rw [hcontrol] at hstep
        exact h.stepSelect hrunning hcontrol hstep
      | indicate x =>
        rw [hcontrol] at hstep
        exact h.stepIndicate hrunning hcontrol hstep
      | take =>
        rw [hcontrol] at hstep
        exact h.stepTake hrunning hcontrol hstep
      | respond x =>
        rw [hcontrol] at hstep
        exact h.stepRespond hrunning hcontrol hstep

theorem sim_initial (p : Profile) : Sim (initial p) .start (.selecting .awaiting) :=
  ⟨Driver.follows_runIteration p .idle, rfl, App.follows_receiveTurn p, rfl, rfl⟩

end Steps

/-! ### Runs -/

/-- The outline of the system when `main` has spawned the tasks. -/
def initialOutline (p : Profile) : Outline := (initial p).outline .start (.selecting .awaiting)

/-- A run all steps of which are of a kind. -/
abbrev RunOf (p : Profile) (kind : System → System → Prop) (s s' : System) : Prop :=
  Relation.ReflTransGen (fun s s' => Step p s s' ∧ kind s s') s s'

/-- What holds at the start and is kept by the moves of a kind holds in the runs of that kind. -/
theorem RunOf.outline {p : Profile} {kind : System → System → Prop} {I : Outline → Prop}
    (move : Outline → Outline → Prop)
    (hkind : ∀ {s s' : System} {g g' : DriverStage} {a a' : AppPlace}, Sim s g a → Sim s' g' a' →
      kind s s' → move (s.outline g a) (s'.outline g' a'))
    (hinitial : I (initialOutline p))
    (hmove : ∀ {l l' : Outline}, I l → Outline.Move l l' → move l l' → I l') {s : System}
    (h : RunOf p kind (initial p) s) : ∃ g a, Sim s g a ∧ I (s.outline g a) := by
  induction h with
  | refl => exact ⟨_, _, sim_initial p, hinitial⟩
  | tail _ hstep ih =>
    obtain ⟨⟨act, hstep⟩, hofkind⟩ := hstep
    obtain ⟨g, a, hsim, hI⟩ := ih
    obtain ⟨g', a', houtline, hsim'⟩ := hsim.step hstep
    exact ⟨g', a', hsim', hmove hI houtline (hkind hsim hsim' hofkind)⟩

/-- An invariant of the outline holds of all that the system can come to. -/
theorem Reachable.outline {p : Profile} {I : Outline → Prop} (hinitial : I (initialOutline p))
    (hmove : ∀ {l l' : Outline}, I l → Outline.Move l l' → I l') {s : System}
    (h : Reachable p s) : ∃ g a, Sim s g a ∧ I (s.outline g a) := by
  have hrun : RunOf p (fun _ _ => True) (initial p) s :=
    Relation.ReflTransGen.mono (fun _ _ hstep => ⟨hstep, trivial⟩) _ _ h
  exact hrun.outline (fun _ _ => True) (fun _ _ _ => trivial) hinitial fun hI hl _ => hmove hI hl

end System

end EmbassyKnx
