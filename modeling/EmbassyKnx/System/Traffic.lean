import EmbassyKnx.Driver.Sizes
import EmbassyKnx.System.Reads
import EmbassyKnx.System.Sound
import EmbassyKnx.System.Starvation

/-!
# What the tasks do together

* `delivers_received`: what the driver hands over.
* `connection_history`: the connection of the whole system.
* `transmits_replies`: what the device transmits.
* `replies_in_order`: in which order, and how often.
* `sent_le_questions`: two devices do not answer each other's answers.
* `panics_only`: where a task panics.
-/

namespace EmbassyKnx

open Rust Async App Octets FrameLayout FrameReader

/-! ## Replies on the bus -/

/-- What another driver makes of a frame on the bus: its line goes on with the octets that the
    chip puts there for `f`, and `receive_frame` returns the frame `h` from it. -/
structure HeardAs (f h : Frame) (p : Profile) (w w' : Driver.Line) : Prop where
  line : ∃ tail, w.rx = (Driver.wireOf f.data).tail.map .octet ++ tail
  received : exec Driver.uart (Driver.receiveFrame p (octetAt (Driver.wireOf f.data) 0)) w =
    .returned (.ok h) w'

/-- A standard frame that `send_frame` can put on the bus. -/
structure OnBus (f : StandardFrame) : Prop where
  octets : 8 ≤ (data f).length
  control : octetAt (data f) 0 &&& 0xd3 = 0x90
  length : ∀ p, ∃ l, length p f = .ok l ∧ l.toNat = (data f).length

/-- It can be heard, as the octets on the bus. -/
theorem OnBus.heard {f : StandardFrame} (hbus : OnBus f) {p : Profile} {w : Driver.Line}
    {tail : List Driver.LineEvent} (hrx : w.rx = (Driver.wireOf (data f)).tail.map .octet ++ tail)
    (htail : Driver.Quiet tail) (hblock : w.blocks.head = true) (hwrite : w.writeErrors.head = none) :
    ∃ (g : StandardFrame) (w' : Driver.Line), HeardAs (.standard f) (.standard g) p w w' ∧
      data g = Driver.wireOf (data f) := by
  obtain ⟨l, hl, hln⟩ := hbus.length p
  obtain ⟨g, w', hrun, hg⟩ :=
    Driver.receiveFrame_wireOf p hbus.octets hl hln hbus.control hrx htail hblock hwrite
  exact ⟨g, w', ⟨⟨tail, hrx⟩, hrun⟩, hg⟩

/-- Whatever the line does behind the frame: a driver that receives a frame has received this
    one. -/
theorem HeardAs.wire {f : StandardFrame} {h : Frame} {p : Profile} {w w' : Driver.Line}
    (hheard : HeardAs (.standard f) h p w w') (hbus : OnBus f) :
    ∃ g : StandardFrame, h = .standard g ∧ data g = Driver.wireOf (data f) := by
  obtain ⟨tail, hrx⟩ := hheard.line
  obtain ⟨l, hl, hln⟩ := hbus.length p
  have hoctets := hbus.octets
  have hctrl : octetAt (Driver.wireOf (data f)) 0 &&& 0xd3 = 0x90 := by
    rw [Driver.octetAt_wireOf_zero (by omega)]
    exact hbus.control
  obtain ⟨es, acks, hread, -, hok⟩ :=
    Driver.receiveFrame_reports (p := p) ((Driver.isFrameStart_iff _).mpr (.inl hctrl)) w
  obtain ⟨os, dst, hreceived, -, stop, rfl, -⟩ := hok h w' hheard.received
  obtain ⟨g, rfl, hg, hfmt⟩ := hreceived.of_control hctrl
  have hwire := Driver.standardFormat_wireOf p hoctets hl hln
  rw [← Driver.wireOf_cons] at hwire
  -- both frames stand at the beginning of what the driver reads
  have hline := hread.rx.symm.trans hrx
  rw [Driver.Report.onUart, List.append_assoc] at hline
  rw [hfmt.eq_of_line hwire hline, Driver.wireOf_cons] at hg
  exact ⟨g, rfl, hg⟩

/-- A T_ACK is not decoded as one. -/
theorem individualService_ack (seq : UInt8) :
    individualService ((0xc2 : UInt8) ||| ((seq &&& 0x7) <<< 2)) = .invalidTpdu := by
  revert seq
  exact forall_octet (by decide +kernel)

/-- A response that is not taken for a question, whatever its checksum. -/
theorem not_answerable_response {dst : IndividualAddress} {seq tpci : UInt8} {g : StandardFrame}
    (hg : data g = Driver.wireOf (data (response dst seq tpci)))
    (hservice : (individualService (tpci ||| ((seq &&& 0x7) <<< 2))).forConnection ∈
      [none, some .disconnect]) :
    ¬Answerable (.standard g) := by
  have hlen : 8 ≤ (data g).length := by
    rw [hg]
    exact Nat.le_refl 8
  let x : SizedFrame := ⟨.standard g, hlen⟩
  have hdst : x.dstAddr = .individual dst := by
    rw [← sizedResponse_dstAddr dst seq tpci]
    show dstAddrOf StandardFrame (data g) = dstAddrOf StandardFrame (data (response dst seq tpci))
    have hlen : headerLength StandardFrame ≤ (data (response dst seq tpci)).dropLast.length :=
      Nat.le_refl 7
    rw [hg, Driver.wireOf, dstAddrOf_append_left StandardFrame hlen]
    rfl
  have htpci : x.tpci = tpci ||| ((seq &&& 0x7) <<< 2) := by
    show octetAt (data g) 6 = _
    rw [hg]
    rfl
  have hconnection : connectionService (.standard g) ∈ [none, some .disconnect] := by
    rwa [← htpci, ← connectionService_individual hdst] at hservice
  have hnet : networkInd (.standard g) = _ := networkInd_of_individual hdst
  rintro (⟨hgroup, -⟩ | hconnect | hdata)
  · rw [hnet] at hgroup
    simp at hgroup
  · rw [hconnect] at hconnection
    simp at hconnection
  · rw [hdata] at hconnection
    simp at hconnection

/-- The answer to a group read is none. -/
theorem not_answerable_groupReply {g : StandardFrame}
    (hg : data g = Driver.wireOf (data groupReply)) : ¬Answerable (.standard g) := by
  obtain ⟨⟨octets, hlen⟩⟩ := g
  have hg : octets = Driver.wireOf (data groupReply) := hg
  subst hg
  decide +revert

theorem onBus_response (dst : IndividualAddress) (seq tpci : UInt8) :
    OnBus (response dst seq tpci) where
  octets := Nat.le_refl 8
  control := show (0x90 : UInt8) &&& 0xd3 = 0x90 by decide
  length p := ⟨8, by cases p <;> rfl, rfl⟩

theorem onBus_groupReply : OnBus groupReply where
  octets := by decide
  control := by decide
  length p := ⟨9, by cases p <;> rfl, rfl⟩

section Traffic

variable {fs : List (ℕ × Frame)} {f h : Frame} {p : Profile} {w w' : Driver.Line}

theorem IsTraffic.onBus (htraffic : IsTraffic fs f) :
    ∃ r : StandardFrame, f = .standard r ∧ OnBus r := by
  rcases htraffic with rfl | ⟨y, -, x, s, r, -, -, rfl, ⟨-, rfl⟩ | ⟨-, rfl⟩⟩
  · exact ⟨_, rfl, onBus_groupReply⟩
  · exact ⟨_, rfl, onBus_response _ _ _⟩
  · exact ⟨_, rfl, onBus_response _ _ _⟩

/-- Traffic is not answered where it is heard. -/
theorem IsTraffic.not_answerable (htraffic : IsTraffic fs f) (hheard : HeardAs f h p w w') :
    ¬Answerable h := by
  rcases htraffic with rfl | ⟨y, -, x, s, r, -, -, rfl, ⟨-, rfl⟩ | ⟨-, rfl⟩⟩
  · obtain ⟨g, rfl, hg⟩ := hheard.wire onBus_groupReply
    exact not_answerable_groupReply hg
  · obtain ⟨g, rfl, hg⟩ := hheard.wire (onBus_response _ _ _)
    refine not_answerable_response hg ?_
    rw [individualService_ack]
    decide
  · obtain ⟨g, rfl, hg⟩ := hheard.wire (onBus_response _ _ _)
    exact not_answerable_response hg (by decide)

end Traffic

namespace System

section

variable {p : Profile} {R : Account} {s : System} {fs : List (ℕ × Frame)} {owed : ℕ} {log : List Frame}

/-! ## Two runs -/

/-- 1.1.1 has connected, and the driver is polled. -/
def polled : System :=
  attempt .dev (.poll .driver) (play .dev [.hear connectTelegram, .poll .app] (initial .dev))

set_option maxRecDepth 100000 in
theorem polled_idle : polled.running = .driver ∧ polled.delivered.length = 1 ∧
    polled.connection.state = .openIdle := by
  decide +kernel

theorem reachable_polled : Reachable .dev polled :=
  reachable_attempt (reachable_play .refl _) _

theorem starved_queues : starved.frameChannelRx ≠ [] := by
  intro hnil
  have hlength := starved_drops.2.2.2.1
  obtain ⟨g, a, hsim, -⟩ :=
    reachable_starved.outline (balanced_initial .dev) Outline.Balanced.move
  have hheld : g.held ≤ 1 := by
    rcases g with _ | (_ | _) | _ | _ | (_ | _) <;> decide
  rw [hnil, hsim.driverHeld, channelSize, List.length_nil] at hlength
  omega

/-- A run to `starved` that has sent something. -/
theorem sends_starved : ∃ log, Sends .dev starved log ∧ log ≠ [] := by
  obtain ⟨log, hsends⟩ := reachable_starved.sends
  refine ⟨log, hsends, ?_⟩
  rintro rfl
  obtain ⟨fs, owed, hsound⟩ := hsends.sound
  have hnil := List.suffix_nil.mp hsound.traffic.waiting
  exact starved_queues (List.map_eq_nil_iff.mp hnil)

/-! ## The frames -/

/-- The frame holds the octets of a standard telegram that fit together; or, where overflow is not
    checked, octets that are taken for an extended telegram, with 254 for octet 5. -/
inductive WellReceived (p : Profile) : Frame → Prop
  | standard (g : StandardFrame) : octetAt (data g) 0 &&& 0xd3 = 0x90 →
    Driver.StandardFormat (data g) → WellReceived p (.standard g)
  | extended (b : List UInt8) (g : ExtendedFrame) : p = .release → octetAt b 0 &&& 0xd3 = 0x10 →
    Driver.MisreadFormat b → data g = b.set 5 254 → WellReceived p (.extended g)

theorem wellReceived_of_receivedAs {b : List UInt8} {dst : Address} {f : Frame}
    (h : Driver.ReceivedAs p b dst f) : WellReceived p f := by
  cases h with
  | standard g hctrl hfmt => exact .standard g hctrl hfmt
  | extended b g hctrl hverdict =>
    obtain ⟨e, he⟩ | ⟨why, hwhy⟩ | ⟨hok, hmis⟩ := Driver.extendedVerdict_cases p b
    · rw [he] at hverdict
      simp at hverdict
    · rw [hwhy] at hverdict
      simp at hverdict
    · rw [hok] at hverdict
      have hdata : b.set 5 254 = data g := Except.ok.inj (Except.ok.inj hverdict)
      refine .extended b g ?_ hctrl hmis hdata.symm
      have hpanics := Driver.extendedVerdict_panics p b
      cases p with
      | release => rfl
      | dev =>
        have hlen := hmis.2.1
        rw [if_pos ⟨rfl, by omega, .inr hmis⟩, hok] at hpanics
        simp at hpanics

/-- Whatever comes in and in whatever order the tasks run, the upper layers get nothing else from
    the driver. -/
theorem delivers_received (h : Reachable p s) : ∀ x ∈ s.delivered, WellReceived p x.2 := by
  obtain ⟨fs, owed, log, hsound⟩ := h.sound
  intro x hx
  obtain ⟨b, dst, hreceived⟩ := hsound.received x hx
  exact wellReceived_of_receivedAs hreceived

theorem delivers_received_polled : polled.delivered.length = 1 ∧
    ∀ x ∈ polled.delivered, WellReceived .dev x.2 :=
  ⟨polled_idle.2.1, delivers_received reachable_polled⟩

/-! ## The connection -/

/-- The frames that the application task has taken from `FRAME_CHANNEL_TX`, in their order. -/
def taken (s : System) : List (ℕ × Frame) :=
  s.delivered.take (s.delivered.length - s.frameChannelTx.length)

theorem Sound.taken_eq (h : Sound p R s fs owed log) : s.taken = fs := by
  rw [taken, h.delivered, List.length_append, Nat.add_sub_cancel, List.take_left]

/-- The connection is behind an attempt for each frame for it that has been taken, in their order,
    or in the attempt for the last one of them: as the attempts before have left it, or as the action
    of the frame makes it. What it has sent is what the attempts have sent. -/
inductive FollowsHistory (p : Profile) (s : System) (log : List Frame) : Prop
  | between : Attempted p (s.taken.map Prod.snd) (replies log) s.connection → FollowsHistory p s log
  | within {x : App.Task (Option (FrameResult TransportServiceInd))} {n : ℕ} {y : Frame}
    {before out sent : List Frame} {c : Connection} :
    s.app.control = .select x → s.app.frame = some (n, y) → (connectionService y).isSome →
    s.taken.map Prod.snd = before ++ [y] → Attempted p before out c →
    (s.connection = c ∨ App.Makes p c y s.connection) →
    replies log = out ++ sent → (sent = [] ∨ ∃ f, sent = [f] ∧ IsReplyTo y f) → FollowsHistory p s log

/-- Whatever the tasks do, in whatever order, the connection goes through the attempts at its
    steps one after the other: one for each frame for it, in the order of their delivery. All that
    it puts into `FRAME_CHANNEL_RX` is what these attempts send. -/
theorem connection_history (h : Sends p s log) : FollowsHistory p s log := by
  obtain ⟨fs, owed, hsound⟩ := h.sound
  have hbetween (hrecord : Attempted p (fs.map Prod.snd) (replies log) s.connection) :
      FollowsHistory p s log := by
    rw [← hsound.taken_eq] at hrecord
    exact .between hrecord
  have happ := hsound.app
  cases hcontrol : s.app.control with
  | select x =>
    rw [hcontrol] at happ
    obtain ⟨g, before, -, hturn, -⟩ := happ
    obtain ⟨out, hrecord, hreplies⟩ := hturn.recorded
    by_cases hg : g.ForConnection
    · obtain ⟨f, service, hf, hservice⟩ := hg
      obtain ⟨⟨n, y⟩, hframe, rfl⟩ := Option.map_eq_some_iff.mp (hturn.frame.symm.trans hf)
      refine .within hcontrol hframe (Option.isSome_of_eq_some hservice) ?_ hrecord ?_ hreplies ?_
      · rw [hsound.taken_eq, hturn.taken, hf]
        rfl
      · rw [← hturn.now]
        rcases hturn.assigned with ⟨y', hy', hmakes⟩ | hnow
        · rw [hf] at hy'
          cases hy'
          exact .inr hmakes
        · exact .inl hnow
      · rcases hturn.queued with hnone | ⟨y', f, hy', hqueued, hreply⟩
        · exact .inl hnone
        · rw [hf] at hy'
          cases hy'
          exact .inr ⟨f, hqueued, hreply⟩
    · have hpass := (kept_attempted p).forward hrecord hg
      have hnow := hturn.assigned.resolve_left fun hassigns => hg hassigns.forConnection
      have hqueued : g.queued = [] := hturn.queued.resolve_right fun ⟨y, f, hy, _, hreply⟩ =>
        hg (hreply.forConnection hy)
      rw [hqueued, List.append_nil] at hreplies
      rw [← hturn.taken, ← hnow, hturn.now, ← hreplies] at hpass
      exact hbetween hpass
  | indicate x =>
    rw [hcontrol] at happ
    exact hbetween happ.2.recorded
  | take =>
    rw [hcontrol] at happ
    exact hbetween happ.2.recorded
  | respond x =>
    rw [hcontrol] at happ
    exact hbetween happ.1.recorded

theorem connection_history_starved : ∃ log : List Frame, log ≠ [] ∧
    FollowsHistory .dev starved log := by
  obtain ⟨log, hsends, hlog⟩ := sends_starved
  exact ⟨log, hlog, connection_history hsends⟩

/-! ## The traffic -/

/-- Whatever comes in, all that a run puts into `FRAME_CHANNEL_RX` are answers to group reads, and
    a T_ACK or a T_Disconnect to the sender of a frame that has been received. The chip gets each of
    these frames whole. -/
theorem transmits_replies (h : Sends p s log) : ∀ f ∈ log, IsTraffic s.taken f ∧
    ∀ w, Driver.WritesSucceed w → Driver.TransmitsWhole p f w := by
  obtain ⟨fs, owed, hsound⟩ := h.sound
  intro f hf
  have htraffic := hsound.traffic.traffic f hf
  rw [hsound.taken_eq]
  refine ⟨htraffic, fun w hw => ?_⟩
  exact Driver.transmitsWhole_of_short htraffic.sized htraffic.sendable.2 htraffic.last hw

theorem transmits_replies_starved : ∃ log : List Frame, log ≠ [] ∧
    ∀ f ∈ log, IsTraffic starved.taken f ∧
      ∀ w, Driver.WritesSucceed w → Driver.TransmitsWhole .dev f w := by
  obtain ⟨log, hsends, hlog⟩ := sends_starved
  exact ⟨log, hlog, transmits_replies hsends⟩

/-! ## The order of the replies -/

/-- The replies up to a place in a turn are in order. -/
theorem InTurn.inOrder {c : Connection} {frame : Option (ℕ × Frame)} {answered : ℕ} {g : Handling}
    {before : List Frame} (hturn : InTurn p (Attempted p) c frame fs log answered g before) :
    InOrder (fs.map Prod.snd) (replies log) := by
  obtain ⟨out, hrecord, hreplies⟩ := hturn.recorded
  rw [hturn.taken, hreplies]
  rcases hturn.queued with hqueued | ⟨y, f, hframe, hqueued, hreply⟩
  · rw [hqueued, List.append_nil]
    exact hrecord.inOrder.mono (List.sublist_append_left _ _)
  · rw [hframe, hqueued]
    exact hrecord.inOrder.reply hreply

/-- Wherever the application task is, its replies are in order, and no group read is answered that has
    not been taken. -/
theorem Sound.replies_inOrder (h : Sound p (Attempted p) s fs owed log) :
    InOrder (fs.map Prod.snd) (replies log) ∧ groupAnswers log ≤ s.answered.length := by
  have happ := h.app
  cases hcontrol : s.app.control with
  | select x =>
    rw [hcontrol] at happ
    obtain ⟨g, before, -, hturn, -⟩ := happ
    exact ⟨hturn.inOrder, hturn.answers⟩
  | indicate x =>
    rw [hcontrol] at happ
    exact ⟨happ.2.recorded.inOrder, happ.2.answers⟩
  | take =>
    rw [hcontrol] at happ
    exact ⟨happ.2.recorded.inOrder, happ.2.answers⟩
  | respond x =>
    rw [hcontrol] at happ
    exact ⟨happ.1.recorded.inOrder, happ.1.answers⟩

/-- The reads that are answered are the first of those that have been taken. -/
theorem Sends.answered_prefix (h : Sends p s log) : s.answered <+: readsOf s.taken := by
  obtain ⟨fs, owed, hsound⟩ := h.sound
  obtain ⟨g, a, -, hconserved⟩ :=
    h.reachable.outline (conserved_initial p) Outline.Conserved.move
  have hreads : readsOf s.delivered = s.answered ++ s.serviceChannelTx.map Prod.fst ++
      s.main.read ++ s.serviceChannelRx.map Prod.fst ++ readsOf s.app.frame.toList ++
        readsOf s.frameChannelTx := hconserved.reads
  rw [hsound.delivered, readsOf_append] at hreads
  rw [hsound.taken_eq, List.append_cancel_right hreads]
  simp only [List.append_assoc]
  exact List.prefix_append _ _

/-- In every run the device sends its replies in the order of the frames that they answer, at most
    one for each, and as many answers to group reads as it has taken group reads, or fewer. What
    waits in `FRAME_CHANNEL_RX` is what it has sent last. -/
theorem replies_in_order (h : Sends p s log) : log.length = s.sent ∧
    s.frameChannelRx.map Prod.snd <:+ log ∧ InOrder (s.taken.map Prod.snd) (replies log) ∧
      groupAnswers log ≤ (readsOf s.taken).length := by
  obtain ⟨fs, owed, hsound⟩ := h.sound
  obtain ⟨horder, hanswers⟩ := hsound.replies_inOrder
  rw [← hsound.taken_eq] at horder
  exact ⟨hsound.sent, hsound.traffic.waiting, horder, Nat.le_trans hanswers h.answered_prefix.length_le⟩

theorem replies_in_order_starved : ∃ log : List Frame, log ≠ [] ∧ log.length = starved.sent ∧
    starved.frameChannelRx.map Prod.snd <:+ log ∧
      InOrder (starved.taken.map Prod.snd) (replies log) ∧
      groupAnswers log ≤ (readsOf starved.taken).length := by
  obtain ⟨log, hsends, hlog⟩ := sends_starved
  exact ⟨log, hlog, replies_in_order hsends⟩

/-! ## Questions and answers -/

/-- A device has put the frame into `FRAME_CHANNEL_RX`, and another driver has received it. -/
def FromDevice (h : Frame) : Prop :=
  ∃ (p : Profile) (s : System) (log : List Frame) (f : Frame) (p' : Profile) (w w' : Driver.Line),
    Sends p s log ∧ f ∈ log ∧ HeardAs f h p' w w'

/-- The device sends at most one frame for each group read, T_Connect and T_Data_Connected that
    it has taken, and none for the frames of other such devices: they do not answer answers. -/
theorem sent_le_questions (h : Reachable p s) :
    ∃ questions : List Frame, List.Sublist questions (s.taken.map Prod.snd) ∧
      s.sent ≤ questions.length ∧ ∀ f ∈ questions, Answerable f ∧ ¬FromDevice f := by
  obtain ⟨fs, owed, log, hsound⟩ := h.sound
  refine ⟨(fs.map Prod.snd).filter (Answerable ·), ?_, ?_, ?_⟩
  · rw [hsound.taken_eq]
    exact List.filter_sublist
  · have hcount := hsound.count
    rw [answerable, List.countP_eq_length_filter] at hcount
    omega
  · intro f hf
    have hanswerable : Answerable f := of_decide_eq_true (List.mem_filter.mp hf).2
    refine ⟨hanswerable, ?_⟩
    rintro ⟨p', s', log', f', p'', w, w', hsends, hf', hheard⟩
    obtain ⟨fs', owed', hsound'⟩ := hsends.sound
    exact (hsound'.traffic.traffic f' hf').not_answerable hheard hanswerable

theorem starved_fromDevice : ∃ f, FromDevice f := by
  obtain ⟨log, hsends, hlog⟩ := sends_starved
  obtain ⟨f, hf⟩ := List.exists_mem_of_ne_nil _ hlog
  obtain ⟨fs, owed, hsound⟩ := hsends.sound
  obtain ⟨r, rfl, hbus⟩ := (hsound.traffic.traffic f hf).onBus
  have hquiet : Driver.Quiet [.silence] := trivial
  obtain ⟨g, w', hheard, -⟩ := hbus.heard (p := .dev)
    (w := .fresh ((Driver.wireOf (data r)).tail.map .octet ++ [.silence])) rfl hquiet rfl rfl
  exact ⟨_, .dev, starved, log, _, .dev, _, w', hsends, hf, hheard⟩

theorem sent_le_questions_starved : (∃ f, FromDevice f) ∧
    ∃ questions : List Frame, List.Sublist questions (starved.taken.map Prod.snd) ∧
      starved.sent ≤ questions.length ∧ ∀ f ∈ questions, Answerable f ∧ ¬FromDevice f :=
  ⟨starved_fromDevice, sent_le_questions reachable_starved⟩

/-! ## Panics -/

/-- A connection step panics on an overflow of its counters only. -/
theorem overflowsOnly_connStep (c : Connection) (service : ConnectionService) (x : SizedFrame)
    (block : Bool) : OverflowsOnly p (connStep p c service x block) := by
  have hdata (seq : UInt8) : OverflowsOnly p (dataEvent p c.seqNoRecv seq) := by
    unfold dataEvent
    split_ifs
    · exact overflowsOnly_ok _
    · refine overflowsOnly_bind (overflowsOnly_u8Sub _ _) fun before => ?_
      split_ifs
      · exact overflowsOnly_ok _
      · exact overflowsOnly_ok _
  have hevent : OverflowsOnly p (eventFor p c service x) := by
    unfold eventFor
    split_ifs
    · cases service with
      | dataConnected => exact hdata _
      | _ => exact overflowsOnly_ok _
    · exact overflowsOnly_ok _
  refine overflowsOnly_bind (overflowsOnly_bind hevent fun _ => overflowsOnly_ok _) fun a => ?_
  have hsending (c : Connection) (frame : StandardFrame)
      {done : Panicking (Connection × Option TransportServiceInd)} (hdone : OverflowsOnly p done) :
      OverflowsOnly p (sending block c frame done) := by
    unfold sending
    split_ifs
    · exact overflowsOnly_bind hdone fun _ => overflowsOnly_ok _
    · exact overflowsOnly_ok _
  cases a with
  | a2 =>
    exact hsending _ _ (overflowsOnly_bind (overflowsOnly_u8Add _ _) fun _ => overflowsOnly_ok _)
  | a3 => exact hsending _ _ (overflowsOnly_ok _)
  | a6 => exact hsending _ _ (overflowsOnly_ok _)
  | a10 => exact hsending _ _ (overflowsOnly_ok _)
  | _ => exact overflowsOnly_ok _

/-- Whatever comes in and in whatever order the tasks run, and the borrows of the connection
    apart, the `unwrap!` of the response is all that panics in a build without overflow checks;
    with them, an overflow of the driver or of the connection does too. -/
theorem panics_only (h : Reachable p s) :
    (∀ why, s.driver.rest = .panicked why → p = .dev ∧ why = .arithmeticOverflow) ∧
      (∀ why, s.app.control = .select (.panicked why) → p = .dev ∧ why = .arithmeticOverflow) ∧
        (∀ why, s.app.control ≠ .indicate (.panicked why)) ∧
          ∀ why, s.app.control = .respond (.panicked why) → why = .explicit := by
  obtain ⟨fs, owed, log, hsound⟩ := h.sound
  have hdriver := hsound.driver
  have happ := hsound.app
  refine ⟨?_, ?_, ?_, ?_⟩
  · intro why hrest
    rw [hrest] at hdriver
    exact hdriver
  · intro why hcontrol
    rw [hcontrol] at happ
    obtain ⟨g, before, ⟨x, service, block, -, -, hstep⟩, -, -⟩ := happ
    exact overflowsOnly_connStep _ _ _ _ why hstep
  · intro why hcontrol
    rw [hcontrol] at happ
    obtain ⟨⟨h, -⟩ | ⟨h, -⟩, -⟩ := happ
    · simp at h
    · simp at h
  · intro why hcontrol
    rw [hcontrol] at happ
    obtain ⟨-, -, g, ⟨-, hwhy⟩, -⟩ := happ
    exact hwhy

/-- An extended telegram comes in whose length octet is 255. -/
def overflowing : List Cue :=
  [.hear (telegram [0x10, 0x80, 0x11, 0x01, 0x00, 0xFF, 0x00, 0x00, 0x80])]

def overflowed : System := play .dev overflowing (initial .dev)

theorem reachable_overflowed : Reachable .dev overflowed := reachable_play .refl overflowing

/-- The driver has panicked. -/
def driverPanics (s : System) : Bool :=
  match s.driver.rest with
  | .panicked _ => true
  | _ => false

theorem driverPanics_rest (h : s.driverPanics = true) : ∃ why, s.driver.rest = .panicked why := by
  unfold driverPanics at h
  split at h
  · rename_i why hrest
    exact ⟨why, hrest⟩
  · simp at h

set_option maxRecDepth 100000 in
theorem overflowed_panics : overflowed.driverPanics = true := by
  decide +kernel

theorem panics_only_overflowed : overflowed.driver.rest = .panicked .arithmeticOverflow := by
  obtain ⟨why, hrest⟩ := driverPanics_rest overflowed_panics
  obtain ⟨-, rfl⟩ := (panics_only reachable_overflowed).1 why hrest
  exact hrest

end

end System

end EmbassyKnx
