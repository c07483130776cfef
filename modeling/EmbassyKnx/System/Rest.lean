import EmbassyKnx.System.Blocks
import EmbassyKnx.System.Deadlock
import EmbassyKnx.System.Confirm
import EmbassyKnx.System.Silence

/-!
# The tasks at rest

Where no task can go on, each is at one of the few operations that wait, and the invariants
of the channels, of the blocks and of the group reads say what is left.

* `AtRest.cases`: everything is done, or two tasks wait for each other, or the driver waits
  for `L_Data.con`.
* `fair_run_rests`: every endless fair run in which nothing comes in leads there.
-/

namespace EmbassyKnx

open Rust Async

namespace System

/-- Whatever task is polled, it waits, and it cannot go on while nothing comes in. -/
def AtRest (p : Profile) (s : System) : Prop :=
  ∀ t, waits { s with running := t } = true ∧
    ∀ e, e.Silent → step p { s with running := t } (.run e) = none

/-- Everything is done: the channels are empty, the blocks are free and the reads are answered. -/
structure Quiescent (s : System) : Prop where
  driver : s.DriverAt .selectReadOrRequest
  app : ∃ timer, s.AppAt (.selectFrameOrTick timer)
  main : s.main = .receive
  frameChannelTx : s.frameChannelTx = []
  frameChannelRx : s.frameChannelRx = []
  serviceChannelRx : s.serviceChannelRx = []
  serviceChannelTx : s.serviceChannelTx = []
  free : s.free = channelSize
  answered : s.answered = readsOf s.delivered

end System

namespace Outline

variable {l l' : Outline}

/-- What waits for a channel finds something in it. -/
structure Supplied (l : Outline) : Prop where
  balanced : l.Balanced
  conserved : l.Conserved
  traced : l.Traced
  woken : l.driver = .woken → l.frameChannelRx ≠ []
  taking : l.app = .taking → l.serviceChannelTx ≠ []

theorem Supplied.move (h : Supplied l) (hmove : Move l l') : Supplied l' := by
  refine ⟨h.balanced.move hmove, h.conserved.move hmove, h.traced.move hmove, ?_, ?_⟩
  · cases hmove with
    | listen _ _ hg => rcases hg with rfl | rfl <;> simp
    | wake _ _ hqueue => exact fun _ => hqueue
    | enqueue f _ _ _ _ => simp
    | fetch _ _ _ => simp
    | deliver f _ _ _ => simp
    | allocate _ _ _ => simp
    | signal status _ _ => simp
    | turn _ _ => simp
    | _ => exact h.woken
  · cases hmove with
    | drop _ _ _ hqueue => exact fun _ => hqueue
    | take _ _ _ => simp
    | answer _ _ _ => simp
    | receive _ _ _ => simp
    | tick _ _ => simp
    | loop _ _ _ => simp [leave]
    | received _ _ _ => simp
    | receivedRead _ _ => simp
    | build _ hk _ _ => exact fun htaking => absurd htaking (sender_ne hk (by simp)).1
    | reset _ hk _ => exact fun htaking => absurd htaking (sender_ne hk (by simp)).1
    | enqueue f _ hk _ _ => exact fun htaking => absurd htaking (sender_ne hk (by simp)).1
    | confirm _ hk _ _ => exact fun htaking => absurd htaking (sender_ne hk (by simp)).1
    | indicate ind _ _ _ => simp
    | indicated _ _ => simp [leave]
    | responded _ _ _ => simp [leave]
    | _ => exact h.taking

end Outline

namespace System

section AtRest

variable {p : Profile} {s : System} {g : DriverStage} {a : AppPlace}

theorem supplied_initial (p : Profile) : (initialOutline p).Supplied :=
  ⟨balanced_initial p, conserved_initial p, traced_initial p, by simp [initialOutline, outline],
    by simp [initialOutline, outline]⟩

theorem silent_quiet : quiet.Silent := ⟨rfl, rfl⟩

/-- A driver at rest waits for traffic, or for `L_Data.con`. -/
theorem AtRest.driver (h : AtRest p s) (hsim : Sim s g a) (hsupplied : (s.outline g a).Supplied) :
    s.DriverAt .read ∨ s.DriverAt .selectReadOrRequest ∧ s.frameChannelRx = [] ∧ g = .start := by
  obtain ⟨hwaits, hstuck⟩ := h .driver
  have hstuck := hstuck quiet silent_quiet
  have hfollows := hsim.driver
  simp only [waits] at hwaits
  rcases hrest : s.driver.rest with phase | why | ⟨o, resume⟩
  · simp [hrest] at hwaits
  · simp [hrest] at hwaits
  · rw [hrest] at hfollows
    simp only [hrest] at hwaits
    simp only [step, stepDriver, hrest] at hstuck
    cases o with
    | read => exact .inl ⟨_, hrest⟩
    | selectReadOrRequest => exact .inr ⟨⟨_, hrest⟩, by simpa [driverWaits] using hwaits, hfollows.1⟩
    | frameChannelRxReceive =>
      have hempty : s.frameChannelRx = [] := by simpa [driverWaits] using hwaits
      exact absurd hempty (hsupplied.woken hfollows.1)
    | frameChannelTxSend f =>
      -- the frame that is sent has a block of its own
      have hg : g = .receiving true := hfollows.1
      subst hg
      have hsum : s.free + s.frameChannelTx.length + s.frameChannelRx.length + 1 + a.held =
        channelSize := hsupplied.balanced
      have hfull : channelSize ≤ s.frameChannelTx.length := by simpa [driverWaits] using hwaits
      omega
    | readWithTimeout => simp [driverReply] at hstuck
    | write octet => simp [driverReply] at hstuck
    | alloc => simp [driverWaits] at hwaits
    | conSignal status => simp [driverWaits] at hwaits

/-- An operation at which the application task is left. -/
theorem Supplied.appWaits (hsupplied : (s.outline g a).Supplied) {k : SendStage → AppPlace}
    (hk : Sender k) {b : Bool} {t : SendStage} (ha : a = k t) {o : AppOp}
    (hallows : (AppStage.handling b t).Allows o) (hwaits : s.appWaits o = true) :
    t = .queued ∧ s.conSignal = none := by
  cases o with
  | conSignalWait =>
    obtain ⟨b', hb⟩ := hallows
    cases hb
    exact ⟨rfl, by simpa [System.appWaits] using hwaits⟩
  | frameChannelRxSend f =>
    -- the frame that is sent has a block of its own
    obtain ⟨b', hb⟩ := hallows
    cases hb
    have hfull : channelSize ≤ s.frameChannelRx.length := by
      simpa [System.appWaits] using hwaits
    have hsum : s.free + s.frameChannelTx.length + s.frameChannelRx.length + g.held + a.held =
      channelSize := hsupplied.balanced
    have hheld : a.held = (k .idle).held + 1 := by
      rw [ha]
      exact Outline.held_sender hk .ready
    omega
  | selectFrameOrTick timer => exact absurd hallows (by simp [AppStage.Allows])
  | _ => simp [System.appWaits] at hwaits

/-- An application task at rest waits for a frame, for a confirmation or for room in
    `SERVICE_CHANNEL_RX`. -/
theorem AtRest.app (h : AtRest p s) (hsim : Sim s g a) (hsupplied : (s.outline g a).Supplied) :
    a.Queued ∧ s.conSignal = none ∨
      (a = .selecting .awaiting ∧ (∃ timer, s.AppAt (.selectFrameOrTick timer)) ∧
        s.frameChannelTx = [] ∧ s.serviceChannelTx = []) ∨
      (∃ ind resume, s.app.control = .indicate (.perform (.txSend ind) resume)) ∧
        serviceChannelSize ≤ s.serviceChannelRx.length := by
  obtain ⟨hwaits, -⟩ := h .app
  have hkeeps := hsim.app
  simp only [waits] at hwaits
  cases hcontrol : s.app.control with
  | select x =>
    rw [hcontrol] at hkeeps
    obtain ⟨t, rfl, hfollows⟩ := keeps_select hkeeps
    rcases x with _ | _ | ⟨o, resume⟩
    · simp [hcontrol] at hwaits
    · simp [hcontrol] at hwaits
    · simp only [hcontrol, Bool.and_eq_true] at hwaits
      have hwaits' : s.appWaits o = true := hwaits.1
      have hempty : s.serviceChannelTx = [] := List.isEmpty_iff.mp hwaits.2
      cases t with
      | awaiting =>
        cases o with
        | selectFrameOrTick timer =>
          refine .inr (.inl ⟨rfl, ⟨timer, .inl ⟨resume, hcontrol⟩⟩, ?_, hempty⟩)
          simpa [appWaits] using hwaits'
        | frameChannelRxSend f => exact absurd hfollows.1 (by simp [transportProtocol, AppStage.Allows])
        | conSignalWait => exact absurd hfollows.1 (by simp [transportProtocol, AppStage.Allows])
        | _ => simp [appWaits] at hwaits'
      | reading =>
        cases o with
        | selectFrameOrTick timer => exact absurd hfollows.1 (by simp [transportProtocol, AppStage.Allows])
        | frameChannelRxSend f => exact absurd hfollows.1 (by simp [transportProtocol, AppStage.Allows])
        | conSignalWait => exact absurd hfollows.1 (by simp [transportProtocol, AppStage.Allows])
        | _ => simp [appWaits] at hwaits'
      | handling b t =>
        obtain ⟨rfl, hsignal⟩ := Supplied.appWaits hsupplied (.receive b) rfl hfollows.1 hwaits'
        exact .inl ⟨trivial, hsignal⟩
  | indicate x =>
    rcases x with _ | _ | ⟨⟨ind⟩, resume⟩
    · simp [hcontrol] at hwaits
    · simp [hcontrol] at hwaits
    · refine .inr (.inr ⟨⟨ind, resume, rfl⟩, ?_⟩)
      simpa [hcontrol] using hwaits
  | take =>
    have hempty : s.serviceChannelTx = [] := by simpa [hcontrol] using hwaits
    exact absurd hempty (hsupplied.taking (hsim.taking hcontrol))
  | respond x =>
    rw [hcontrol] at hkeeps
    obtain ⟨t, rfl, hfollows⟩ := keeps_respond hkeeps
    rcases x with _ | _ | ⟨o, resume⟩
    · simp [hcontrol] at hwaits
    · simp [hcontrol] at hwaits
    · simp only [hcontrol] at hwaits
      have hwaits' : s.appWaits o = true := hwaits
      obtain ⟨rfl, hsignal⟩ := Supplied.appWaits hsupplied .respond rfl hfollows.1 hwaits'
      exact .inl ⟨trivial, hsignal⟩

/-- A main task at rest waits for an indication, or for room for a response. -/
theorem AtRest.main (h : AtRest p s) : s.main = .receive ∧ s.serviceChannelRx = [] ∨
    (∃ number res, s.main = .send number res) ∧ serviceChannelSize ≤ s.serviceChannelTx.length := by
  obtain ⟨hwaits, -⟩ := h .main
  simp only [waits] at hwaits
  cases hmain : s.main with
  | receive => exact .inl ⟨rfl, by simpa [hmain] using hwaits⟩
  | send number res => exact .inr ⟨⟨number, res, rfl⟩, by simpa [hmain] using hwaits⟩

/-- A confirmation that is waited for is on its way. -/
theorem Supplied.not_lost (hsupplied : (s.outline g a).Supplied) (hqueued : a.Queued)
    (hsignal : s.conSignal = none) (hqueue : s.frameChannelRx = []) : g = .transmitting := by
  have hstaged := hsupplied.traced.staged
  obtain ⟨n, hn⟩ := Option.isSome_iff_exists.mp (hstaged.sending.mpr hqueued)
  rcases hsupplied.traced.sending n hn with h | h | h
  · exact absurd hsignal h
  · exact hstaged.transmitting.mp (Option.isSome_iff_exists.mpr ⟨n, h⟩)
  · have hmem : n ∈ s.frameChannelRx.map Prod.fst := h
    simp [hqueue] at hmem

/-- What the system can come to where no task can go on: everything is done, or two tasks wait for
    each other, or the driver waits for `L_Data.con`. -/
theorem AtRest.cases (h : AtRest p s) (hreachable : Reachable p s) :
    Quiescent s ∨ Deadlocked s ∨ s.DriverAt .read := by
  obtain ⟨g, a, hsim, hsupplied⟩ :=
    hreachable.outline (supplied_initial p) Outline.Supplied.move
  obtain hread | ⟨hdriver, hrx, rfl⟩ := h.driver hsim hsupplied
  · exact .inr (.inr hread)
  obtain ⟨hqueued, hsignal⟩ | ⟨rfl, hat, htx, hservice⟩ | ⟨hindicating, hfull⟩ :=
    h.app hsim hsupplied
  · have hg := Supplied.not_lost hsupplied hqueued hsignal hrx
    simp at hg
  · obtain ⟨hmain, hserviceRx⟩ | ⟨-, hfull⟩ := h.main
    · refine .inl ⟨hdriver, hat, hmain, htx, hrx, hserviceRx, hservice, ?_, ?_⟩
      · have hsum : s.free + s.frameChannelTx.length + s.frameChannelRx.length + 0 + 0 =
          channelSize := hsupplied.balanced
        simpa [htx, hrx] using hsum
      · have hreads : readsOf s.delivered = s.answered ++ s.serviceChannelTx.map Prod.fst ++
            s.main.read ++ s.serviceChannelRx.map Prod.fst ++ readsOf s.app.frame.toList ++
              readsOf s.frameChannelTx := hsupplied.conserved.reads
        have hframe : readsOf s.app.frame.toList = [] := hsupplied.conserved.holding.other id
        simpa [htx, hmain, hserviceRx, hservice, hframe, MainTask.read] using hreads.symm
    · simp [hservice, serviceChannelSize] at hfull
  · obtain ⟨-, hserviceRx⟩ | ⟨hsending, hroom⟩ := h.main
    · simp [hserviceRx, serviceChannelSize] at hfull
    · exact .inr (.inl ⟨hindicating, hfull, hsending, hroom⟩)

/-- A scheduler that comes back to every task. -/
def Fair (r : Endless p) : Prop :=
  ∀ t n, ∃ m ≥ n, (r.state m).running = t ∧
    ((r.action m).IsPoll → ∀ e, e.Silent → (r.state m).step p (.run e) = none)

/-- A run does not go on with a task that has panicked, or ended. -/
theorem waits_of_poll {r : Endless p} {n : ℕ} (hpoll : (r.action n).IsPoll) :
    (r.state n).waits = true := by
  have hnext := r.next n
  cases hact : r.action n with
  | run e =>
    rw [hact] at hpoll
    exact absurd hpoll id
  | poll t =>
    rw [hact] at hnext
    simp only [step] at hnext
    split_ifs at hnext with hwaits
    exact hwaits

/-- Where only polls follow, the tasks stay what they are. -/
theorem state_of_polls {r : Endless p} {k : ℕ} (hpolls : ∀ n ≥ k, (r.action n).IsPoll) {n : ℕ}
    (hn : k ≤ n) : { r.state n with running := (r.state k).running } = r.state k := by
  induction n, hn using Nat.le_induction with
  | base => rfl
  | succ n hn ih =>
    have hnext := r.next n
    have hpoll := hpolls n hn
    cases hact : r.action n with
    | run e =>
      rw [hact] at hpoll
      exact absurd hpoll id
    | poll t =>
      rw [hact] at hnext
      simp only [step] at hnext
      split_ifs at hnext
      rw [← ih, ← Option.some.inj hnext]

theorem Reachable.state {r : Endless p} (h : Reachable p (r.state 0)) (n : ℕ) :
    Reachable p (r.state n) :=
  h.trans (r.reaches n)

/-- In an endless fair run from any state that the system can come to, in which nothing comes in,
    the tasks come to rest: all channels are then empty, all blocks free and all reads answered in
    their order, unless the application task and the main task wait for each other, or the driver
    for `L_Data.con`. -/
theorem fair_run_rests (p : Profile) (r : Endless p) (h : Reachable p (r.state 0))
    (hsilent : ∀ n, (r.action n).Silent) (hfair : Fair r) :
    ∃ k, ∀ n ≥ k, Quiescent (r.state n) ∨ Deadlocked (r.state n) ∨ (r.state n).DriverAt .read := by
  obtain ⟨k, hpolls⟩ := silent_run_idles p r h hsilent
  refine ⟨k, fun n hn => AtRest.cases ?_ (h.state n)⟩
  intro t
  -- the task is run again, and does not go on
  obtain ⟨m, hm, hrunning, hstuck⟩ := hfair t n
  have hpoll := hpolls m (Nat.le_trans hn hm)
  have hsame : { r.state n with running := t } = r.state m := by
    have hpolls' : ∀ i ≥ n, (r.action i).IsPoll := fun i hi => hpolls i (Nat.le_trans hn hi)
    rw [← state_of_polls hpolls' hm, ← hrunning]
  rw [hsame]
  exact ⟨waits_of_poll hpoll, hstuck hpoll⟩

/-- Where everything is done no task goes on by itself. -/
theorem Quiescent.stuck (h : Quiescent s) (t : TaskId) {e : Env} (he : e.Silent) :
    step p { s with running := t } (.run e) = none := by
  obtain ⟨hoctet, htick⟩ := he
  cases t with
  | driver =>
    obtain ⟨resume, hrest⟩ := h.driver
    simp [step, stepDriver, hrest, driverReply, hoctet, h.frameChannelRx]
  | app =>
    obtain ⟨timer, ⟨resume, hcontrol⟩ | ⟨resume, hcontrol⟩⟩ := h.app
    · simp [step, stepApp, hcontrol, stepSelect, appReply, h.frameChannelTx, htick,
        h.serviceChannelTx]
    · simp [step, stepApp, hcontrol, stepRespond, appReply, h.frameChannelTx, htick]
  | main => simp [step, stepMain, h.main, h.serviceChannelRx]

/-- The driver is at its `select`. -/
def selectsUart (s : System) : Bool :=
  match s.driver.rest with
  | .perform .selectReadOrRequest _ => true
  | _ => false

/-- The application task is at the `select` of `transport.receive()`. -/
def selectsFrame (s : System) : Bool :=
  match s.app.control with
  | .select (.perform (.selectFrameOrTick _) _) => true
  | _ => false

theorem selectsUart_driverAt (h : s.selectsUart = true) : s.DriverAt .selectReadOrRequest := by
  unfold selectsUart at h
  split at h
  · rename_i resume hrest
    exact ⟨resume, hrest⟩
  · simp at h

theorem selectsFrame_appAt (h : s.selectsFrame = true) :
    ∃ timer, s.AppAt (.selectFrameOrTick timer) := by
  unfold selectsFrame at h
  split at h
  · rename_i timer resume hcontrol
    exact ⟨timer, .inl ⟨resume, hcontrol⟩⟩
  · simp at h

set_option maxRecDepth 100000 in
theorem rested_idle : rested.selectsUart = true ∧ rested.selectsFrame = true ∧
    rested.main = .receive ∧ rested.frameChannelTx.length = 0 ∧
    rested.frameChannelRx.length = 0 ∧ rested.serviceChannelRx.length = 0 ∧
    rested.serviceChannelTx.length = 0 ∧ rested.free = channelSize ∧
    rested.answered = readsOf rested.delivered := by
  decide +kernel

theorem rested_quiescent : Quiescent rested := by
  obtain ⟨hdriver, happ, hmain, htx, hrx, hserviceRx, hserviceTx, hfree, hanswered⟩ := rested_idle
  exact ⟨selectsUart_driverAt hdriver, selectsFrame_appAt happ, hmain,
    List.length_eq_zero_iff.mp htx, List.length_eq_zero_iff.mp hrx,
    List.length_eq_zero_iff.mp hserviceRx, List.length_eq_zero_iff.mp hserviceTx, hfree, hanswered⟩

theorem fair_run_rests_pendingRead : pendingRead.frameChannelTx.length = 1 ∧
    ∃ r : Endless .dev, r.state 0 = pendingRead ∧ (∃ n, (r.state n).answered = [0]) ∧
      ∃ k, ∀ n ≥ k,
        Quiescent (r.state n) ∨ Deadlocked (r.state n) ∨ (r.state n).DriverAt .read := by
  obtain ⟨r, hr, hsilent, k, hanswered, hlater⟩ := exists_pendingRun
  have hreachable : Reachable .dev (r.state 0) := hr ▸ reachable_pendingRead
  have hfair : Fair r := by
    intro t n
    obtain ⟨m, hm, rfl⟩ := turnOf_recurs t n
    obtain ⟨hstate, -⟩ := hlater m
    refine ⟨m + k, by omega, by rw [hstate], fun _ e he => ?_⟩
    rw [hstate]
    exact rested_quiescent.stuck (turnOf m) he
  exact ⟨rested_answered.1, r, hr, ⟨k, hanswered⟩, fair_run_rests .dev r hreachable hsilent hfair⟩

end AtRest

end System

end EmbassyKnx
