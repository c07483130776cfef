import EmbassyKnx.Application.GroupResponse
import EmbassyKnx.System.Blocks
import EmbassyKnx.System.Script

/-!
# A block for a response

The second arm of `ApplicationLayer::run` needs a free block. A frame that is dropped with
`transport.receive()` leaves one. Where `transport.receive()` was waiting for a frame, the
sends that were cancelled before may have left all blocks in `FRAME_CHANNEL_RX`, or all but
the one that the driver receives the next frame in.

* `respond_finds_block`: when the arm finds a block.
* `response_panics`: it does not always.
-/

namespace EmbassyKnx

open Rust Async

namespace Outline

variable {l l' : Outline}

/-- Nothing is sent where the ticker has fired. -/
def Ticked (l : Outline) : Prop := ∀ g, l.app = .selecting (.handling false g) → g = .confirmed

/-- A send inside `transport.receive()` is one for a frame. -/
theorem Ticked.send (h : Ticked l) {k : SendStage → AppPlace} (hk : Sender k) {t u : SendStage}
    (hplace : l.app = k t) (hplace' : l'.app = k u) (ht : t ≠ .confirmed) : Ticked l' := by
  intro g hg
  rw [hplace'] at hg
  cases hk with
  | receive frame =>
    simp only [AppPlace.selecting.injEq, AppStage.handling.injEq] at hg
    obtain ⟨rfl, rfl⟩ := hg
    exact absurd (h t hplace) ht
  | respond => simp at hg

theorem Ticked.move (h : Ticked l) (hmove : Move l l') : Ticked l' := by
  cases hmove with
  | receive _ _ _ =>
    intro g hg
    simp only [AppPlace.selecting.injEq] at hg
    split_ifs at hg
    simp at hg
  | tick _ _ => exact fun g hg => by simpa using hg.symm
  | build _ hk hplace _ => exact h.send hk hplace rfl (by simp)
  | reset _ hk hplace => exact h.send hk hplace rfl (by simp)
  | enqueue f _ hk hplace _ => exact h.send hk hplace rfl (by simp)
  | confirm _ hk hplace _ => exact h.send hk hplace rfl (by simp)
  | loop _ _ _ => simp [Ticked, leave]
  | drop _ _ _ _ => simp [Ticked, leave]
  | received _ _ _ => simp [Ticked]
  | receivedRead _ _ => simp [Ticked]
  | indicate ind _ _ _ => simp [Ticked]
  | indicated _ _ => simp [Ticked, leave]
  | take _ _ _ => simp [Ticked]
  | responded _ _ _ => simp [Ticked, leave]
  | _ => exact h

/-- Only a drop leads from `select` to the second arm. -/
theorem Move.of_drop (hmove : Move l l') {t : AppStage} (hplace : l.app = .selecting t)
    (htaking : l'.app = .taking) :
    l.running = .app ∧ l.Pends t ∧ l.serviceChannelTx ≠ [] ∧ l' = l.leave .taking := by
  cases hmove with
  | drop hrunning hplace' hpends hqueue =>
    cases hplace.symm.trans hplace'
    exact ⟨hrunning, hpends, hqueue, rfl⟩
  | build _ hk _ _ => cases hk <;> simp at htaking
  | reset _ hk _ => cases hk <;> simp at htaking
  | enqueue f _ hk _ _ => cases hk <;> simp at htaking
  | confirm _ hk _ _ => cases hk <;> simp at htaking
  | _ => simp_all [leave]

/-- From the drop of `transport.receive()` to the allocation, a block is free and no other
    task is polled. -/
structure Provided (l : Outline) : Prop where
  balanced : l.Balanced
  ticked : l.Ticked
  answering : l.app = .taking ∨ l.app = .responding .idle → l.running = .app ∧ 0 < l.free
  taking : l.app = .taking → l.serviceChannelTx ≠ []

/-- Where `transport.receive()` is dropped with no frame, some block is in neither
    `FRAME_CHANNEL_RX` nor the driver. -/
def DropsWithBlock (l l' : Outline) : Prop :=
  (∃ t, l.app = .selecting t) → l'.app = .taking → l.app.held = 0 →
    l.frameChannelRx.length + l.driver.held < channelSize

/-- A future that is dropped returns a block, or leaves one. -/
theorem Provided.free_of_drop (h : Provided l) {t : AppStage} (hplace : l.app = .selecting t)
    (hpends : l.Pends t)
    (hblock : l.app.held = 0 → l.frameChannelRx.length + l.driver.held < channelSize) :
    0 < l.free + l.app.held := by
  rcases Nat.eq_zero_or_pos l.app.held with hheld | hheld
  · have hroom := hblock hheld
    have hqueue : l.frameChannelTx = [] := by
      rw [hplace] at hheld
      cases t with
      | awaiting => exact hpends
      | reading => exact absurd hheld (Nat.succ_ne_zero 0)
      | handling b u =>
        cases b with
        | false =>
          obtain rfl := h.ticked u hplace
          exact absurd hpends id
        | true =>
          have hpos : 0 < 1 + u.held := by omega
          exact absurd hheld (Nat.ne_of_gt hpos)
    have hsum := h.balanced
    rw [Balanced, hqueue, hheld] at hsum
    simp only [List.length_nil] at hsum
    omega
  · omega

/-- Another task than the application task is polled only where no response waits. -/
theorem Provided.of_app (h : Provided l) (hmove : Move l l') (happ : l'.app = l.app)
    (hidle : ¬(l.app = .taking ∨ l.app = .responding .idle)) : Provided l' := by
  rw [← happ] at hidle
  exact ⟨h.balanced.move hmove, h.ticked.move hmove, fun hplace => absurd hplace hidle,
    fun hplace => absurd (.inl hplace) hidle⟩

/-- In `select`, in front of an indication and behind the allocation nothing is to be provided. -/
theorem Provided.elsewhere (h : Provided l) (hmove : Move l l') (htaking : l'.app ≠ .taking)
    (hresponding : l'.app ≠ .responding .idle) : Provided l' :=
  ⟨h.balanced.move hmove, h.ticked.move hmove, fun hplace => (hplace.elim htaking hresponding).elim,
    fun hplace => absurd hplace htaking⟩

theorem sender_ne {k : SendStage → AppPlace} (hk : Sender k) {u : SendStage} (hu : u ≠ .idle) :
    k u ≠ .taking ∧ k u ≠ .responding .idle := by
  cases hk with
  | receive frame => exact ⟨by simp, by simp⟩
  | respond => exact ⟨by simp, by simpa using hu⟩

theorem Provided.send (h : Provided l) (hmove : Move l l') {k : SendStage → AppPlace}
    (hk : Sender k) {u : SendStage} (hplace : l'.app = k u) (hu : u ≠ .idle) : Provided l' := by
  obtain ⟨htaking, hresponding⟩ := sender_ne hk hu
  exact h.elsewhere hmove (hplace ▸ htaking) (hplace ▸ hresponding)

theorem Provided.move (h : Provided l) (hmove : Move l l') (hdrop : DropsWithBlock l l') :
    Provided l' := by
  -- while a response is taken, the application task runs
  have hother (t : TaskId) (hrunning : l.running = t) (ht : t ≠ .app) :
      ¬(l.app = .taking ∨ l.app = .responding .idle) := by
    intro hplace
    rw [(h.answering hplace).1] at hrunning
    exact ht hrunning.symm
  have hmove' := hmove
  cases hmove with
  | stay => exact h
  | poll t hwaits =>
    refine h.of_app hmove' rfl fun hplace => ?_
    have hpending := hwaits (h.answering hplace).1
    rcases hplace with hplace | hplace
    · rw [hplace] at hpending
      exact h.taking hplace hpending
    · rw [hplace] at hpending
      exact hpending
  | listen hrunning _ _ => exact h.of_app hmove' rfl (hother _ hrunning (by decide))
  | wake hrunning _ _ => exact h.of_app hmove' rfl (hother _ hrunning (by decide))
  | allocate hrunning _ _ => exact h.of_app hmove' rfl (hother _ hrunning (by decide))
  | fetch hrunning _ _ => exact h.of_app hmove' rfl (hother _ hrunning (by decide))
  | deliver f hrunning _ _ => exact h.of_app hmove' rfl (hother _ hrunning (by decide))
  | signal status hrunning _ => exact h.of_app hmove' rfl (hother _ hrunning (by decide))
  | turn hrunning _ => exact h.of_app hmove' rfl (hother _ hrunning (by decide))
  | accept res hrunning _ _ => exact h.of_app hmove' rfl (hother _ hrunning (by decide))
  | answer hrunning _ _ => exact h.of_app hmove' rfl (hother _ hrunning (by decide))
  | receive _ _ _ => exact h.elsewhere hmove' (by simp) (by simp)
  | tick _ _ => exact h.elsewhere hmove' (by simp) (by simp)
  | loop _ _ _ => exact h.elsewhere hmove' (by simp [leave]) (by simp [leave])
  | received _ _ _ => exact h.elsewhere hmove' (by simp) (by simp)
  | receivedRead _ _ => exact h.elsewhere hmove' (by simp) (by simp)
  | build _ hk _ _ => exact h.send hmove' hk rfl (by simp)
  | reset _ hk _ => exact h.send hmove' hk rfl (by simp)
  | enqueue f _ hk _ _ => exact h.send hmove' hk rfl (by simp)
  | confirm _ hk _ _ => exact h.send hmove' hk rfl (by simp)
  | indicate ind _ _ _ => exact h.elsewhere hmove' (by simp) (by simp)
  | indicated _ _ => exact h.elsewhere hmove' (by simp [leave]) (by simp [leave])
  | responded _ _ _ => exact h.elsewhere hmove' (by simp [leave]) (by simp [leave])
  | drop hrunning hplace hpends hready =>
    have hfree := h.free_of_drop hplace hpends (hdrop ⟨_, hplace⟩ rfl)
    exact ⟨h.balanced.move hmove', h.ticked.move hmove', fun _ => ⟨hrunning, hfree⟩,
      fun _ => hready⟩
  | take hrunning hplace hqueue =>
    have hfree := (h.answering (.inl hplace)).2
    exact ⟨h.balanced.move hmove', h.ticked.move hmove', fun _ => ⟨hrunning, hfree⟩, by simp⟩

end Outline

namespace System

variable {p : Profile} {s s' : System} {g : DriverStage} {a : AppPlace}

/-- The `select` of `run` drops `transport.receive()`. -/
def Drops (s s' : System) : Prop :=
  (∃ receive, s.app.control = .select receive) ∧ s'.app.control = .take

/-- If `transport.receive()` is dropped with no frame, not all blocks are queued in
    `FRAME_CHANNEL_RX` or held by the driver. -/
def LeavesBlock (s s' : System) : Prop :=
  Drops s s' → s.app.held = 0 → s.frameChannelRx.length + s.driver.held < channelSize

/-- The second arm builds its response frame with a free block, and its `unwrap!` returns. -/
def BuildsResponse (p : Profile) (s : System) : Prop :=
  ∀ res, s.app.control = .respond (App.respond p res) →
    0 < s.free ∧ ∀ s', Step p s s' → s'.app.control ≠ .respond (.panicked .explicit)

theorem Sim.taking (h : Sim s g a) (hcontrol : s.app.control = .take) : a = .taking := by
  have hkeeps := h.app
  rw [hcontrol] at hkeeps
  cases a with
  | taking => rfl
  | _ => exact absurd hkeeps id

theorem Sim.control_select (h : Sim s g a) {t : AppStage} (ha : a = .selecting t) :
    ∃ receive, s.app.control = .select receive := by
  have hkeeps := h.app
  rw [ha] at hkeeps
  cases hcontrol : s.app.control with
  | select receive => exact ⟨receive, rfl⟩
  | _ =>
    rw [hcontrol] at hkeeps
    exact absurd hkeeps id

theorem Sim.control_take (h : Sim s g a) (ha : a = .taking) : s.app.control = .take := by
  have hkeeps := h.app
  rw [ha] at hkeeps
  cases hcontrol : s.app.control with
  | take => rfl
  | _ =>
    rw [hcontrol] at hkeeps
    exact absurd hkeeps id

theorem ticked_initial (p : Profile) : (initialOutline p).Ticked := by
  simp [Outline.Ticked, initialOutline, outline]

theorem provided_initial (p : Profile) : (initialOutline p).Provided :=
  ⟨balanced_initial p, ticked_initial p, by simp [initialOutline, outline],
    by simp [initialOutline, outline]⟩

theorem dropsWithBlock_outline {g' : DriverStage} {a' : AppPlace} (h : Sim s g a)
    (h' : Sim s' g' a') (hleaves : LeavesBlock s s') :
    (s.outline g a).DropsWithBlock (s'.outline g' a') := by
  rintro ⟨t, ha⟩ ha' hheld
  have hheld : s.app.held = 0 := h.appHeld.trans hheld
  have hroom := hleaves ⟨h.control_select ha, h'.control_take ha'⟩ hheld
  rwa [h.driverHeld] at hroom

/-- The second arm is in front of the allocation. -/
theorem Sim.building (h : Sim s g a) {res : ApplicationServiceRes}
    (hcontrol : s.app.control = .respond (App.respond p res)) : a = .responding .idle := by
  have hkeeps := h.app
  rw [hcontrol] at hkeeps
  obtain ⟨t, rfl, hfollows⟩ := keeps_respond hkeeps
  obtain ⟨resume, frame, hrespond, -, -⟩ := App.respond_alloc p res
  rw [hrespond] at hfollows
  obtain ⟨b, hb⟩ := hfollows.1
  cases hb
  rfl

/-- A step of an application task that is about to build its response: it sends a frame if
    there is a block for it, and panics otherwise. -/
theorem step_building {res : ApplicationServiceRes} (hrunning : s.running = .app)
    (hcontrol : s.app.control = .respond (App.respond p res)) :
    s.waits = false ∧ ∃ frame, ∀ e, s.step p (.run e) = some
      (if 0 < s.free then { s with
        free := s.free - 1
        app := { s.app with
          control := .respond (App.dataLinkSend frame), held := s.app.held + 1 } }
      else { s with app := { s.app with control := .respond (.panicked .explicit) } }) := by
  obtain ⟨resume, frame, hrespond, hfalse, htrue⟩ := App.respond_alloc p res
  rw [hrespond] at hcontrol
  refine ⟨by simp only [waits, hrunning, hcontrol, appWaits], frame, fun e => ?_⟩
  have hstep : s.step p (.run e) = stepRespond p e s (.perform .alloc resume) := by
    rw [step, hrunning]
    simp only [stepApp, hcontrol]
  rw [hstep]
  split_ifs with hfree
  · simp only [stepRespond, appReply, if_pos hfree, Option.map_some, htrue]
  · simp only [stepRespond, appReply, if_neg hfree, Option.map_some, hfalse]

/-- A step of an application task that takes a response. -/
theorem step_take {n : ℕ} {res : ApplicationServiceRes}
    {rest : List (ℕ × ApplicationServiceRes)} (hrunning : s.running = .app)
    (hcontrol : s.app.control = .take) (hqueue : s.serviceChannelTx = (n, res) :: rest) :
    Step p s { s with
      serviceChannelTx := rest, answered := s.answered ++ [n]
      app := { s.app with control := .respond (App.respond p res) } } := by
  refine ⟨.run quiet, ?_⟩
  have hstep : s.step p (.run quiet) = stepTake p s := by
    rw [step, hrunning]
    simp only [stepApp, hcontrol]
  rw [hstep, stepTake, hqueue]

theorem Sim.buildsResponse (h : Sim s g a) (hprovided : (s.outline g a).Provided) :
    BuildsResponse p s := by
  intro res hcontrol
  obtain ⟨hrunning, hfree⟩ := hprovided.answering (.inr (h.building hcontrol))
  have hrunning : s.running = .app := hrunning
  have hfree : 0 < s.free := hfree
  refine ⟨hfree, ?_⟩
  rintro s' ⟨act, hstep⟩
  obtain ⟨hwaits, frame, hrun⟩ := step_building hrunning hcontrol
  cases act with
  | poll t => simp [System.step, hwaits] at hstep
  | run e =>
    rw [hrun, if_pos hfree] at hstep
    cases hstep
    intro hpanic
    cases hpanic

/-- With no block, a response that is taken ends in the panic. -/
theorem take_starves (hrunning : s.running = .app) (hcontrol : s.app.control = .take)
    (hqueue : s.serviceChannelTx ≠ []) (hfree : s.free = 0) :
    ∃ s' s'', Step p s s' ∧ ¬BuildsResponse p s' ∧ Step p s' s'' ∧
      s''.app.control = .respond (.panicked .explicit) := by
  rcases hcons : s.serviceChannelTx with _ | ⟨⟨n, res⟩, rest⟩
  · exact absurd hcons hqueue
  have htake := step_take (p := p) hrunning hcontrol hcons
  obtain ⟨-, frame, hrun⟩ := step_building (p := p) (s := { s with
    serviceChannelTx := rest, answered := s.answered ++ [n]
    app := { s.app with control := .respond (App.respond p res) } }) hrunning rfl
  have hstarved : ¬0 < s.free := Nat.not_lt_of_le (Nat.le_of_eq hfree)
  simp only [if_neg hstarved] at hrun
  exact ⟨_, _, htake, fun hbuilds => hstarved (hbuilds res rfl).1, ⟨.run quiet, hrun quiet⟩, rfl⟩

/-- What a step that drops `transport.receive()` finds, and what it leaves. -/
theorem Sim.of_drops (h : Sim s g a) (hstep : Step p s s') (hdrops : Drops s s') :
    (∃ t, a = .selecting t ∧ (s.outline g a).Pends t) ∧ s.serviceChannelTx ≠ [] ∧
      s'.running = .app ∧ s'.outline g .taking = (s.outline g a).leave .taking := by
  obtain ⟨⟨x, hselect⟩, htake⟩ := hdrops
  obtain ⟨act, hstep⟩ := hstep
  obtain ⟨g', a', hmove, hsim'⟩ := h.step hstep
  have hkeeps := h.app
  rw [hselect] at hkeeps
  obtain ⟨t, rfl, -⟩ := keeps_select hkeeps
  obtain ⟨hrunning, hpends, hqueue, houtline⟩ := hmove.of_drop rfl (hsim'.taking htake)
  obtain rfl : g' = g := congrArg Outline.driver houtline
  obtain rfl := hsim'.taking htake
  have hrunning' : s'.running = s.running := congrArg Outline.running houtline
  exact ⟨⟨t, rfl, hpends⟩, hqueue, hrunning'.trans hrunning, houtline⟩

/-- A step that drops `transport.receive()` without a block enters the second arm with none. -/
theorem Sim.drop_starves (h : Sim s g a) (hbalanced : (s.outline g a).Balanced)
    (hstep : Step p s s') (hleaves : ¬LeavesBlock s s') :
    s'.running = .app ∧ s'.app.control = .take ∧ s'.serviceChannelTx ≠ [] ∧ s'.free = 0 := by
  unfold LeavesBlock at hleaves
  push Not at hleaves
  obtain ⟨hdrops, hheld, hfull⟩ := hleaves
  obtain ⟨-, hqueue, hrunning, houtline⟩ := h.of_drops hstep hdrops
  have hqueue' : s'.serviceChannelTx = s.serviceChannelTx :=
    congrArg Outline.serviceChannelTx houtline
  have hfree : s'.free = s.free + a.held := congrArg Outline.free houtline
  refine ⟨hrunning, hdrops.2, hqueue' ▸ hqueue, ?_⟩
  have hsum := h.balanced hbalanced
  have hheld' : s.app.held = a.held := h.appHeld
  rw [liveFrames] at hsum
  omega

/-- In every run that always leaves a block for the response, the second arm builds its response
    and does not panic. A step that leaves none takes the system to a state from which the arm
    starts without a block. -/
theorem respond_finds_block (p : Profile) :
    (∀ s, RunOf p LeavesBlock (initial p) s → BuildsResponse p s) ∧
      ∀ s s', Reachable p s → Step p s s' → ¬LeavesBlock s s' →
        ∃ s'', Step p s' s'' ∧ ¬BuildsResponse p s'' := by
  refine ⟨fun s hrun => ?_, fun s s' hreachable hstep hleaves => ?_⟩
  · obtain ⟨g, a, hsim, hprovided⟩ := hrun.outline Outline.DropsWithBlock dropsWithBlock_outline
      (provided_initial p) Outline.Provided.move
    exact hsim.buildsResponse hprovided
  · obtain ⟨g, a, hsim, hbalanced⟩ := hreachable.outline (balanced_initial p) Outline.Balanced.move
    obtain ⟨hrunning, htake, hqueue, hfree⟩ := hsim.drop_starves hbalanced hstep hleaves
    obtain ⟨s'', -, hs'', hbuilds, -, -⟩ := take_starves (p := p) hrunning htake hqueue hfree
    exact ⟨s'', hs'', hbuilds⟩

/-! ### Seven connects while seven reads are answered -/

/-- A device is connected. -/
def connected : List Cue := [.poll .app, .hear (connectTelegram ++ noise), .poll .app]

/-- A read and a connect of another device come. The rejection of the latter waits for its
    confirmation when the response to the read comes. -/
def rejection (last : List (Option UInt8)) : List Cue :=
  [.hear ([none] ++ readTelegram ++ otherConnectTelegram ++ [some 0x90] ++ last), .poll .app,
    .poll .main]

/-- The rejection is dropped, and the response ends with the confirmation of a frame of `n`
    octets that was queued before. -/
def backlog (n : ℕ) (last : List (Option UInt8)) : List Cue :=
  rejection last ++ [.poll .app, .hear ([none, none] ++ echo n ++ noise), .poll .app]

/-- Seven frames are left in the queue; one more read is answered while a frame comes in. -/
def starving : List Cue :=
  connected ++ backlog 8 [none] ++ backlog 9 [none] ++ backlog 8 [none] ++ backlog 9 [none] ++
    backlog 8 [none] ++ backlog 9 [none] ++ backlog 8 [] ++
    [.hear ([none] ++ readTelegram ++ [some 0x90]), .poll .app, .poll .main,
      .hear [none, some 0x90]]

/-- The application task is polled behind the script. -/
def starved : System := (play .dev starving (initial .dev)).attempt .dev (.poll .app)

theorem reachable_starved : Reachable .dev starved :=
  reachable_attempt (reachable_play .refl starving) _

/-- The application task is in `select`. -/
def selects (s : System) : Bool :=
  match s.app.control with
  | .select _ => true
  | _ => false

/-- The application task has dropped `transport.receive()`. -/
def takes (s : System) : Bool :=
  match s.app.control with
  | .take => true
  | _ => false

theorem takes_control (h : s.takes = true) : s.app.control = .take := by
  unfold takes at h
  cases hcontrol : s.app.control with
  | take => rfl
  | _ =>
    rw [hcontrol] at h
    simp at h

theorem selects_control (h : s.selects = true) : ∃ receive, s.app.control = .select receive := by
  unfold selects at h
  cases hcontrol : s.app.control with
  | select receive => exact ⟨receive, rfl⟩
  | _ =>
    rw [hcontrol] at h
    simp at h

/-- A check for `LeavesBlock`. -/
def leavesBlock (s s' : System) : Bool :=
  !(s.selects && s'.takes) || decide (s.frameChannelRx.length + s.driver.held < channelSize)

theorem leavesBlock_sound (s s' : System) (h : leavesBlock s s' = true) : LeavesBlock s s' := by
  rintro ⟨⟨receive, hselect⟩, htake⟩ -
  simpa [leavesBlock, selects, takes, hselect, htake] using h

set_option maxRecDepth 100000 in
theorem starved_drops : (starved.step .dev (.run quiet)).isSome = true ∧ starved.selects = true ∧
    starved.app.held = 0 ∧ starved.frameChannelRx.length + starved.driver.held = channelSize ∧
    (starved.advance .dev).takes = true := by
  decide +kernel

theorem starved_leavesBlock : ¬LeavesBlock starved (starved.advance .dev) := by
  obtain ⟨-, hselects, hheld, hfull, htakes⟩ := starved_drops
  intro hleaves
  have hroom := hleaves ⟨selects_control hselects, takes_control htakes⟩ hheld
  omega

/-- Traffic that any two devices can send reboots the device. -/
theorem response_panics : ∃ s s', Reachable .dev s ∧ ¬BuildsResponse .dev s ∧ Step .dev s s' ∧
    s'.app.control = .respond (.panicked .explicit) := by
  have hdrop : Step .dev starved (starved.advance .dev) := step_advance starved_drops.1
  obtain ⟨g, a, hsim, hbalanced⟩ :=
    reachable_starved.outline (balanced_initial .dev) Outline.Balanced.move
  obtain ⟨hrunning, htake, hqueue, hfree⟩ := hsim.drop_starves hbalanced hdrop starved_leavesBlock
  obtain ⟨s, s', hs, hbuilds, hs', hpanic⟩ := take_starves (p := .dev) hrunning htake hqueue hfree
  exact ⟨s, s', (reachable_starved.tail hdrop).tail hs, hbuilds, hs', hpanic⟩

/-- The response to a read is about to be taken. -/
def arriving : System :=
  settleBy (attemptIf .dev leavesBlock) 1 (attemptIf .dev leavesBlock (.poll .app)
    (playIf .dev leavesBlock [.hear readTelegram, .poll .app, .poll .main] (initial .dev)))

theorem runOf_arriving : RunOf .dev LeavesBlock (initial .dev) arriving := by
  have htake (act : Action) (s : System) :
      RunOf .dev LeavesBlock s (s.attemptIf .dev leavesBlock act) :=
    runOf_attemptIf leavesBlock_sound act s
  exact settleBy_induction (fun act s h => h.trans (htake act s)) 1
    ((runOf_playIf leavesBlock_sound _ _).trans (htake _ _))

set_option maxRecDepth 100000 in
theorem arriving_takes : arriving.running = .app ∧ arriving.takes = true ∧
    arriving.serviceChannelTx.length = 1 := by
  decide +kernel

theorem respond_finds_block_starved : (∃ s, RunOf .dev LeavesBlock (initial .dev) s ∧
      (∃ res, s.app.control = .respond (App.respond .dev res)) ∧ BuildsResponse .dev s) ∧
    ∃ s, Step .dev (starved.advance .dev) s ∧ ¬BuildsResponse .dev s := by
  obtain ⟨hrunning, htakes, hqueue⟩ := arriving_takes
  obtain ⟨⟨n, res⟩, hqueue⟩ := List.length_eq_one_iff.mp hqueue
  have hrun := runOf_arriving.tail
    ⟨step_take hrunning (takes_control htakes) hqueue, fun hdrops => by simp [Drops] at hdrops⟩
  exact ⟨⟨_, hrun, ⟨res, rfl⟩, (respond_finds_block .dev).1 _ hrun⟩,
    (respond_finds_block .dev).2 starved _ reachable_starved (step_advance starved_drops.1)
      starved_leavesBlock⟩

end System

end EmbassyKnx
