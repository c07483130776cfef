import EmbassyKnx.Transport.Exchange

/-!
# Delivery exactly once

`tpci_seq` reads three of the four bits of the sequence field, `seq_no_recv` counts
on. The two agree on the first eight data; the ninth, whose number reads 0, never
compares equal to 8 and is dropped. So the connection refines a stop-and-wait
receiver that stops after eight data.

* `connStep_datum`: what the connection does with a datum of its peer.
* `Tracks`: the invariant of a session, kept by data (`Tracks.datum`) and by all other
  frames (`Tracks.quiet`).
* `session_exactly_once`: what is delivered is a prefix of what was sent, and only
  delivered data are acknowledged.
* `handleInd_exactly_once`: the same behind one more call of `handle_ind`.
-/

namespace EmbassyKnx.App

open Rust Async Connection FrameLayout FrameReader StopAndWait

/-! ## The step on a datum -/

/-- What the connection does with datum `i` of its peer when it has accepted `n` data. -/
def reaction (n i : ℕ) : Reaction :=
  if i + 1 = n then .acknowledge else if i < 8 then .accept else .drop

theorem reaction_cases {n i : ℕ} (hi : i = n ∨ i + 1 = n) :
    reaction n i = .acknowledge ∧ i + 1 = n ∨ reaction n i = .accept ∧ i = n ∧ i < 8 ∨
      reaction n i = .drop ∧ i = n ∧ 8 ≤ i := by
  unfold reaction
  rcases hi with hi | hi
  · rw [if_neg (by omega)]
    by_cases hlt : i < 8
    · exact .inr (.inl ⟨if_pos hlt, hi, hlt⟩)
    · exact .inr (.inr ⟨if_neg hlt, hi, Nat.le_of_not_lt hlt⟩)
  · exact .inl ⟨if_pos hi, hi⟩

/-- The results of these reactions. -/
def datumResult (c : Connection) (f : SizedFrame) : Reaction → StepResult
  | .accept => ⟨{ c with connectionTimeout := armed, seqNoRecv := c.seqNoRecv + 1 },
      [.standard (response f.srcAddr c.seqNoRecv 0xc2)], .ok (some (.dataConnected f.frame))⟩
  | .acknowledge => ⟨{ c with connectionTimeout := armed },
      [.standard (response f.srcAddr f.tpciSeq 0xc2)], .ok none⟩
  | .drop => ⟨c, [], .ok none⟩

section Datum

variable (p : Profile) {c : Connection} {f : SizedFrame} (hopen : c.state ≠ .closed)
  (hpeer : c.srcAddr = some f.srcAddr)

include hopen hpeer

/-- The datum the connection waits for. -/
theorem connStep_accept (hseq : f.tpciSeq.toNat = c.seqNoRecv.toNat)
    (hlt : c.seqNoRecv.toNat + 1 < 256) :
    connStep p c .dataConnected f true = .ok (datumResult c f .accept) := by
  have hdatum : InSequence c .dataConnected f := ⟨hopen, hpeer, rfl, UInt8.toNat_inj.mp hseq⟩
  have hadd : u8Add p c.seqNoRecv 1 = .ok (c.seqNoRecv + 1) := by
    apply u8Add_of_lt
    exact hlt
  rw [connStep, hdatum.stepAction_eq, ok_bind, act, sending, if_pos rfl, hadd]
  rfl

/-- The last datum it has accepted. -/
theorem connStep_acknowledge (hseq : f.tpciSeq.toNat + 1 = c.seqNoRecv.toNat) :
    connStep p c .dataConnected f true = .ok (datumResult c f .acknowledge) := by
  have hone : (1 : UInt8) ≤ c.seqNoRecv := by
    rw [UInt8.le_iff_toNat_le]
    show 1 ≤ c.seqNoRecv.toNat
    omega
  have hne : f.tpciSeq ≠ c.seqNoRecv := by
    intro h
    rw [h] at hseq
    omega
  have hlast : f.tpciSeq = c.seqNoRecv - 1 := by
    apply UInt8.toNat_inj.mp
    rw [UInt8.toNat_sub_of_le _ _ hone, ← hseq]
    show f.tpciSeq.toNat = f.tpciSeq.toNat + 1 - 1
    omega
  rw [connStep, stepAction_outOfSequence p hopen hpeer hne, u8Sub_of_le p hone, ok_bind,
    if_pos hlast]
  rfl

/-- Any other datum, when it has accepted one. -/
theorem connStep_drop (hone : 1 ≤ c.seqNoRecv.toNat) (hne : f.tpciSeq.toNat ≠ c.seqNoRecv.toNat)
    (hlast : f.tpciSeq.toNat + 1 ≠ c.seqNoRecv.toNat) :
    connStep p c .dataConnected f true = .ok (datumResult c f .drop) := by
  have hone : (1 : UInt8) ≤ c.seqNoRecv := by
    rw [UInt8.le_iff_toNat_le]
    exact hone
  have hne : f.tpciSeq ≠ c.seqNoRecv := by
    intro h
    exact hne (congrArg UInt8.toNat h)
  have hlast : f.tpciSeq ≠ c.seqNoRecv - 1 := by
    intro h
    rw [h, UInt8.toNat_sub_of_le _ _ hone] at hlast
    exact hlast (Nat.sub_add_cancel hone)
  rw [connStep, stepAction_outOfSequence p hopen hpeer hne, u8Sub_of_le p hone, ok_bind,
    if_neg hlast]
  rfl

/-- A datum at position `i`, numbered modulo 16, that is the next one or the last one. -/
theorem connStep_datum {n i : ℕ} (hn : c.seqNoRecv.toNat = n) (hle : n ≤ 8)
    (hi : i = n ∨ i + 1 = n) (hseq : f.seqField = i % 16) :
    connStep p c .dataConnected f true = .ok (datumResult c f (reaction n i)) := by
  have htpci : f.tpciSeq.toNat = i % 8 := by
    rw [tpciSeq_toNat, hseq]
    omega
  obtain ⟨hreaction, hi⟩ | ⟨hreaction, hi, hlt⟩ | ⟨hreaction, hi, hge⟩ := reaction_cases hi
  · rw [hreaction]
    apply connStep_acknowledge p hopen hpeer
    omega
  · rw [hreaction]
    apply connStep_accept p hopen hpeer
    · omega
    · omega
  · rw [hreaction]
    apply connStep_drop p hopen hpeer
    · omega
    · omega
    · omega

end Datum

/-! ## The connection as a stop-and-wait receiver -/

section Tracks

variable {δ : Type} {content : Frame → δ} {p : Profile}

/-- The connection and the exchange belong together. -/
structure Tracks (e : Exchange δ) (c : Connection) : Prop where
  sound : e.ledger.Sound
  delivered_le : e.delivered.length ≤ 8
  number_eq : ∀ ack ∈ e.acks, ack.number.toNat = ack.datum
  srcAddr_eq : c.state ≠ .closed → c.srcAddr = some e.peer
  seqNoRecv_eq : c.state ≠ .closed → c.seqNoRecv.toNat = e.delivered.length

theorem tracks_opened (c : Connection) (a : IndividualAddress) :
    Tracks (Exchange.opened a : Exchange δ) (opened c a) where
  sound := Ledger.sound_empty
  delivered_le := Nat.zero_le _
  number_eq := List.forall_mem_nil _
  srcAddr_eq _ := rfl
  seqNoRecv_eq _ := rfl

variable (content) in
/-- A frame that is not a datum of the peer delivers no data, is not acknowledged and does not
    count; a connection that is open behind it was open before. -/
theorem Tracks.quiet_step {t : Turn δ} (ht : Tracks t.exchange t.connection) (hopens : ¬t.Opens)
    (hdatum : ¬t.IsDatum) {r : StepResult} (hstep : t.step p = .ok r) :
    dataDelivered content r.result = [] ∧ acksTo t.exchange.peer r.sent = [] ∧
      (r.connection.state ≠ .closed → t.connection.state ≠ .closed ∧
        r.connection.srcAddr = t.connection.srcAddr ∧
        r.connection.seqNoRecv = t.connection.seqNoRecv) := by
  obtain ⟨a, ha, hact⟩ := connStep_ok hstep
  have hcondition := stepAction_condition ha
  have hpeer : t.connection.state ≠ .closed → t.connection.srcAddr = some t.frame.srcAddr →
      t.service ≠ .dataConnected := by
    intro hopen hsrc hs
    rw [ht.srcAddr_eq hopen] at hsrc
    exact hdatum ⟨hopen, (Option.some.inj hsrc).symm, hs⟩
  cases a with
  | a1 => exact absurd hcondition hopens
  | a2 => exact absurd hcondition.2.2.1 (hpeer hcondition.1 hcondition.2.1)
  | a3 => exact absurd hcondition.2.2 (hpeer hcondition.1 hcondition.2.1)
  | a5 =>
    cases hact
    exact ⟨rfl, rfl, fun hopen => absurd rfl hopen⟩
  | a6 =>
    cases hact
    exact ⟨rfl, acksTo_disconnect _ _, fun hopen => absurd rfl hopen⟩
  | a10 =>
    cases hact
    exact ⟨rfl, acksTo_disconnect _ _, fun hopen => ⟨hopen, rfl, rfl⟩⟩
  | ignore =>
    cases hact
    exact ⟨rfl, rfl, fun hopen => ⟨hopen, rfl, rfl⟩⟩

variable (content) in
/-- Frames other than the peer's data leave the transfer as it is. -/
theorem Tracks.quiet {t : Turn δ} (ht : Tracks t.exchange t.connection) (hopens : ¬t.Opens)
    (hdatum : ¬t.IsDatum) {r : StepResult} (hstep : t.step p = .ok r) :
    t.exchange.record content r = t.exchange ∧ Tracks t.exchange r.connection := by
  obtain ⟨hdelivered, hacks, hconnection⟩ := ht.quiet_step content hopens hdatum hstep
  constructor
  · rw [Exchange.record, hdelivered, hacks]
    simp
  · refine ⟨ht.sound, ht.delivered_le, ht.number_eq, ?_, ?_⟩
    · intro hopen
      obtain ⟨hopen, hsrc, -⟩ := hconnection hopen
      rw [hsrc, ht.srcAddr_eq hopen]
    · intro hopen
      obtain ⟨hopen, -, hseq⟩ := hconnection hopen
      rw [hseq, ht.seqNoRecv_eq hopen]

/-- The discipline of the numbers is the discipline of the data: since no more than eight data
    are acknowledged, a number stands for one datum. -/
theorem Tracks.sends {e : Exchange δ} {c : Connection} {f : SizedFrame} (ht : Tracks e c)
    (h : e.MaySend content f) :
    e.ledger.Sends (content f.frame) (e.arrive content f).sent ∧
      f.seqField = e.position content f % 16 := by
  have hle : e.sent.length ≤ 9 := Nat.le_trans ht.sound.sent_le (Nat.succ_le_succ ht.delivered_le)
  rcases h with ⟨hnext, hacked⟩ | ⟨hseq, hlast⟩
  · rw [Exchange.position, Exchange.arrive, if_pos hnext]
    constructor
    · apply Ledger.Sends.next
      intro i hi
      have hi : i + 1 = e.sent.length := hi
      rcases hacked with hnil | ⟨ack, hmem, hnumber⟩
      · rw [hnil] at hi
        simp at hi
      · have hdatum : ack.datum = i := by
          rw [ht.number_eq ack hmem] at hnumber
          omega
        rw [← hdatum]
        exact List.mem_map_of_mem hmem
    · rw [List.length_append, List.length_singleton, Nat.add_sub_cancel]
      exact hnext
  · have hpos : e.sent.length ≠ 0 := by
      intro hnil
      rw [List.length_eq_zero_iff.mp hnil] at hlast
      simp at hlast
    have hnext : ¬e.IsNext f := by
      unfold Exchange.IsNext
      omega
    rw [Exchange.position, Exchange.arrive, if_neg hnext]
    exact ⟨.again hlast, hseq⟩

@[simp] theorem arrive_peer (e : Exchange δ) (f : SizedFrame) :
    (e.arrive content f).peer = e.peer := by
  unfold Exchange.arrive
  split_ifs <;> rfl

variable (content) in
@[simp] theorem arrive_delivered (e : Exchange δ) (f : SizedFrame) :
    (e.arrive content f).delivered = e.delivered := by
  unfold Exchange.arrive
  split_ifs <;> rfl

@[simp] theorem arrive_acks (e : Exchange δ) (f : SizedFrame) :
    (e.arrive content f).acks = e.acks := by
  unfold Exchange.arrive
  split_ifs <;> rfl

/-- The T_ACKs behind a reaction. -/
def acksOf (c : Connection) (f : SizedFrame) : Reaction → List UInt8
  | .accept => [c.seqNoRecv &&& 0x7]
  | .acknowledge => [f.tpciSeq &&& 0x7]
  | .drop => []

theorem acksTo_datumResult (c : Connection) (f : SizedFrame) (reaction : Reaction) :
    acksTo f.srcAddr (datumResult c f reaction).sent = acksOf c f reaction := by
  cases reaction with
  | accept => exact acksTo_ack _ _
  | acknowledge => exact acksTo_ack _ _
  | drop => rfl

/-- The exchange records what the stop-and-wait receiver records. -/
theorem ledger_record {e : Exchange δ} {f : SizedFrame} (hpeer : f.srcAddr = e.peer)
    (c : Connection) (reaction : Reaction) :
    ((e.arrive content f).record content (datumResult c f reaction)).ledger =
      e.ledger.record (e.arrive content f).sent (content f.frame) reaction := by
  rw [Exchange.record, arrive_peer, ← hpeer, acksTo_datumResult, arrive_delivered, arrive_acks]
  cases reaction with
  | accept => simp [Exchange.ledger, Ledger.record, datumResult, dataDelivered, delivered, acksOf]
  | acknowledge =>
    simp [Exchange.ledger, Ledger.record, datumResult, dataDelivered, delivered, acksOf]
  | drop => simp [Exchange.ledger, Ledger.record, datumResult, dataDelivered, delivered, acksOf]

/-- A datum that arrives is the last one the connection has accepted or the next one. -/
theorem Tracks.position_eq {e : Exchange δ} {c : Connection} {f : SizedFrame} (ht : Tracks e c)
    (h : e.MaySend content f) :
    e.position content f = e.delivered.length ∨
      e.position content f + 1 = e.delivered.length := by
  have hsends := (ht.sends h).1
  have hlen : (e.arrive content f).sent.length = e.delivered.length ∨
      (e.arrive content f).sent.length = e.delivered.length + 1 := ht.sound.length_of_sends hsends
  obtain ⟨init, hlast⟩ := hsends.last
  have hpos : 0 < (e.arrive content f).sent.length := by
    rw [hlast, List.length_append]
    exact Nat.succ_pos _
  unfold Exchange.position
  omega

/-- A T_ACK carries the number of the datum it answers. -/
theorem acksOf_number {c : Connection} {f : SizedFrame} {n i : ℕ} (hn : c.seqNoRecv.toNat = n)
    (hi : i = n ∨ i + 1 = n) (hle : n ≤ 8) (hseq : f.seqField = i % 16) :
    ∀ number ∈ acksOf c f (reaction n i), number.toNat = i := by
  intro number hmem
  obtain ⟨hreaction, hi⟩ | ⟨hreaction, hi, hlt⟩ | ⟨hreaction, hi, hge⟩ := reaction_cases hi
  · rw [hreaction] at hmem
    rw [List.mem_singleton.mp hmem, toNat_and_seven, tpciSeq_toNat, hseq]
    omega
  · rw [hreaction] at hmem
    rw [List.mem_singleton.mp hmem, toNat_and_seven, hn]
    omega
  · rw [hreaction] at hmem
    exact nomatch hmem

theorem record_accept_length (e : Exchange δ) (c : Connection) (f : SizedFrame) :
    (e.record content (datumResult c f .accept)).delivered.length = e.delivered.length + 1 := by
  simp [Exchange.record, datumResult, dataDelivered, delivered]

/-- Only an accepted datum is delivered. -/
theorem record_length {reaction : Reaction} (h : reaction ≠ .accept) (e : Exchange δ)
    (c : Connection) (f : SizedFrame) :
    (e.record content (datumResult c f reaction)).delivered.length = e.delivered.length := by
  cases reaction with
  | accept => exact absurd rfl h
  | acknowledge => simp [Exchange.record, datumResult, dataDelivered, delivered]
  | drop => simp [Exchange.record, datumResult, dataDelivered, delivered]

/-- A datum that is not dropped is answered with its own number. -/
theorem acksTo_number {c : Connection} {f : SizedFrame} {n i : ℕ} (hn : c.seqNoRecv.toNat = n)
    (hi : i = n ∨ i + 1 = n) (hle : n ≤ 8) (hseq : f.seqField = i % 16)
    (hdrop : reaction n i ≠ .drop) :
    (acksTo f.srcAddr (datumResult c f (reaction n i)).sent).map UInt8.toNat = [f.seqField] := by
  have hnumber := acksOf_number hn hi hle hseq
  rw [acksTo_datumResult]
  obtain ⟨hreaction, hi⟩ | ⟨hreaction, hi, hlt⟩ | ⟨hreaction, -⟩ := reaction_cases hi
  · rw [hreaction] at hnumber ⊢
    rw [acksOf, List.map_singleton, hnumber _ (List.mem_singleton_self _), hseq]
    exact congrArg (fun number => [number]) (by omega)
  · rw [hreaction] at hnumber ⊢
    rw [acksOf, List.map_singleton, hnumber _ (List.mem_singleton_self _), hseq]
    exact congrArg (fun number => [number]) (by omega)
  · exact absurd hreaction hdrop

variable (content) in
/-- What the connection counts is what it delivers, and it counts to eight. -/
theorem seqNoRecv_datumResult (e : Exchange δ) {c : Connection} (f : SizedFrame) {n i : ℕ}
    (hn : c.seqNoRecv.toNat = n) (hle : n ≤ 8) (hi : i = n ∨ i + 1 = n)
    (he : e.delivered.length = n) :
    (datumResult c f (reaction n i)).connection.seqNoRecv.toNat =
        (e.record content (datumResult c f (reaction n i))).delivered.length ∧
      (e.record content (datumResult c f (reaction n i))).delivered.length ≤ 8 := by
  obtain ⟨hreaction, -⟩ | ⟨hreaction, hi, hlt⟩ | ⟨hreaction, -⟩ := reaction_cases hi
  · rw [hreaction, record_length (by decide), he]
    exact ⟨hn, hle⟩
  · have hadd : (c.seqNoRecv + 1).toNat = n + 1 := by
      rw [UInt8.toNat_add, hn]
      show (n + 1) % 256 = n + 1
      omega
    rw [hreaction, record_accept_length, he]
    exact ⟨hadd, by omega⟩
  · rw [hreaction, record_length (by decide), he]
    exact ⟨hn, hle⟩

theorem datumResult_srcAddr (c : Connection) (f : SizedFrame) (reaction : Reaction) :
    (datumResult c f reaction).connection.srcAddr = c.srcAddr := by
  cases reaction <;> rfl

/-- On its peer's data the connection is a stop-and-wait receiver, up to the ninth datum. -/
theorem Tracks.datum {e : Exchange δ} {c : Connection} {f : SizedFrame} (ht : Tracks e c)
    (hopen : c.state ≠ .closed) (hpeer : f.srcAddr = e.peer) (h : e.MaySend content f)
    {r : StepResult} (hr : r = datumResult c f (reaction e.delivered.length (e.position content f))) :
    connStep p c .dataConnected f true = .ok r ∧
      Tracks ((e.arrive content f).record content r) r.connection := by
  have hsrc : c.srcAddr = some f.srcAddr := by rw [hpeer, ht.srcAddr_eq hopen]
  have hn := ht.seqNoRecv_eq hopen
  obtain ⟨hsends, hseq⟩ := ht.sends h
  have hi := ht.position_eq h
  have hle := ht.delivered_le
  subst hr
  refine ⟨connStep_datum p hopen hsrc hn hle hi hseq, ?_⟩
  have hsafe : Ledger.Safe e.delivered.length (e.position content f)
      (reaction e.delivered.length (e.position content f)) := by
    obtain ⟨hreaction, hi⟩ | ⟨hreaction, hi, -⟩ | ⟨hreaction, -, -⟩ := reaction_cases hi
    · rw [hreaction]
      exact Nat.lt_of_succ_le (Nat.le_of_eq hi)
    · rw [hreaction]
      exact hi
    · rw [hreaction]
      exact trivial
  have hcount := seqNoRecv_datumResult content (e.arrive content f) f hn hle hi
    (congrArg List.length (arrive_delivered content e f))
  constructor
  · rw [ledger_record hpeer c]
    exact ht.sound.record hsends hsafe
  · exact hcount.2
  · intro ack hmem
    rcases List.mem_append.mp hmem with hmem | hmem
    · rw [arrive_acks] at hmem
      exact ht.number_eq ack hmem
    · rw [arrive_peer, ← hpeer, acksTo_datumResult] at hmem
      obtain ⟨number, hnumber, rfl⟩ := List.mem_map.mp hmem
      exact acksOf_number hn hi hle hseq number hnumber
  · intro _
    rw [datumResult_srcAddr, ht.srcAddr_eq hopen]
    exact congrArg some (arrive_peer e f).symm
  · intro _
    exact hcount.1

end Tracks

/-! ## Runs -/

section Sessions

variable {δ : Type} {content : Frame → δ} {p : Profile}

/-- A datum of the connected peer is reacted to. -/
theorem Turn.step_datum {t : Turn δ} (ht : Tracks t.exchange t.connection) (hd : t.IsDatum)
    (hmay : t.exchange.MaySend content t.frame) {r : StepResult}
    (hr : r = datumResult t.connection t.frame
      (reaction t.exchange.delivered.length (t.exchange.position content t.frame))) :
    t.step p = .ok r ∧
      Tracks ((t.exchange.arrive content t.frame).record content r) r.connection := by
  obtain ⟨hopen, hpeer, hservice⟩ := hd
  unfold Turn.step
  rw [hservice]
  exact ht.datum hopen hpeer hmay hr

/-- Every turn keeps the connection and the exchange together. -/
theorem Turn.finish_tracks {t : Turn δ} (ht : Tracks t.exchange t.connection) (hopens : ¬t.Opens)
    (hmay : t.IsDatum → t.exchange.MaySend content t.frame) {e : Exchange δ} {c : Connection}
    (h : t.finish content p = .ok (e, c)) : Tracks e c := by
  by_cases hd : t.IsDatum
  · obtain ⟨hstep, htracks⟩ := Turn.step_datum (p := p) ht hd (hmay hd) rfl
    rw [Turn.finish, Turn.arrived, if_pos hd, hstep] at h
    cases h
    exact htracks
  · rw [Turn.finish, Turn.arrived, if_neg hd] at h
    rcases hstep : t.step p with why | r
    · rw [hstep] at h
      exact nomatch h
    · rw [hstep] at h
      cases h
      obtain ⟨hrecord, htracks⟩ := ht.quiet content hopens hd hstep
      rw [hrecord]
      exact htracks

theorem session_tracks {ts : List (Turn δ)} {res : Panicking (Exchange δ × Connection)}
    (h : Session content p ts res) : ∀ e c, res = .ok (e, c) → Tracks e c := by
  induction h with
  | @opened c f hclosed =>
    intro e c' he
    rw [connStep, stepAction_closed_connect p hclosed] at he
    cases he
    exact tracks_opened c f.srcAddr
  | turn _ hopens hdatum ih =>
    intro e c he
    exact Turn.finish_tracks (ih _ _ rfl) hopens hdatum he

/-- What is delivered and acknowledged at any point of a session. -/
theorem Tracks.exactly_once {e : Exchange δ} {c : Connection} (ht : Tracks e c) :
    e.delivered <+: e.sent.zipIdx ∧ (e.delivered.map Prod.snd).Nodup ∧
      ∀ ack ∈ e.acks, ack.number.toNat = ack.datum % 16 ∧ ack.datum < e.delivered.length := by
  refine ⟨ht.sound.prefix_sent, ht.sound.nodup, ?_⟩
  intro ack hmem
  have hlt : ack.datum < e.delivered.length :=
    ht.sound.acked_delivered _ (List.mem_map_of_mem hmem)
  have hle := ht.delivered_le
  rw [ht.number_eq ack hmem]
  omega

/-- A call of `handle_ind` that returns goes on with the session. -/
theorem Session.handleInd {ts : List (Turn δ)} {t : Turn δ}
    (h : Session content p ts (.ok (t.exchange, t.connection))) (hopens : ¬t.Opens)
    (hdatum : t.IsDatum → t.exchange.MaySend content t.frame) {w w' : Station} {result : IndResult}
    (hw : w.connection = t.connection) (hblock : w.block = true)
    (hrun : exec app (App.handleInd p (t.service.ind t.frame.frame)) w = .returned result w') :
    ∃ r : StepResult, r.result = result ∧ w' = w.after r ∧
      Session content p (t :: ts) (.ok ((t.arrived content).record content r, w'.connection)) := by
  have houtcome := exec_handleInd p t.service t.frame w
  rw [hrun, hw, hblock] at houtcome
  have hturn := Session.turn h hopens hdatum
  rw [Turn.finish, Turn.step] at hturn
  rcases hstep : connStep p t.connection t.service t.frame true with why | r
  · rw [hstep] at houtcome
    obtain ⟨w'', hpanic⟩ := houtcome
    simp at hpanic
  · rw [hstep] at houtcome hturn
    cases houtcome
    exact ⟨r, rfl, rfl, hturn⟩

/-! ### A session -/

section Client

/-- What 1.1.1 and the upper layer have seen when `k` data are accepted. -/
def exchangeAfter (k : ℕ) : Exchange Frame where
  peer := ⟨0x1101⟩
  sent := (List.range k).map fun i => (datumFrame (.ofNat i)).frame
  delivered := (List.range k).map fun i => ((datumFrame (.ofNat i)).frame, i)
  acks := (List.range k).map fun i => ⟨.ofNat i, i⟩

/-- The connection then. -/
def connectionAfter (k : ℕ) : Connection :=
  { opened .new ⟨0x1101⟩ with seqNoRecv := .ofNat k }

/-- The first arrival of datum `k`. -/
def firstArrival (k : ℕ) : Turn Frame where
  exchange := exchangeAfter k
  connection := connectionAfter k
  service := .dataConnected
  frame := datumFrame (.ofNat k)

theorem finish_firstArrival : ∀ k < 8, (firstArrival k).finish id .dev =
    .ok (exchangeAfter (k + 1), connectionAfter (k + 1)) := by
  decide

theorem maySend_firstArrival : ∀ k < 9, (exchangeAfter k).MaySend id (datumFrame (.ofNat k)) := by
  decide

/-- 1.1.1 connects and sends the first data. -/
theorem session_firstArrivals {k : ℕ} (hk : k ≤ 8) : Session id .dev
    ((List.range k).reverse.map firstArrival) (.ok (exchangeAfter k, connectionAfter k)) := by
  induction k with
  | zero => exact Session.opened (c := .new) (f := connectRequest) rfl
  | succ k ih =>
    rw [List.range_succ, List.reverse_append, List.reverse_singleton, List.singleton_append,
      List.map_cons, ← finish_firstArrival k hk]
    exact .turn (ih (Nat.le_of_succ_le hk)) (fun hopens => nomatch hopens.1)
      fun _ => maySend_firstArrival k (Nat.lt_succ_of_lt hk)

end Client

/-- No duplication, reordering or loss of acknowledged data: at every point of a session the
    data delivered are a prefix of the data sent, each delivered once, and a T_ACK carries the
    number of a datum that is delivered. -/
theorem session_exactly_once {ts : List (Turn δ)} {e : Exchange δ} {c : Connection}
    (h : Session content p ts (.ok (e, c))) :
    e.delivered <+: e.sent.zipIdx ∧ (e.delivered.map Prod.snd).Nodup ∧
      ∀ ack ∈ e.acks, ack.number.toNat = ack.datum % 16 ∧ ack.datum < e.delivered.length := by
  exact (session_tracks h e c rfl).exactly_once

/-- Behind every call of `handle_ind` in a session. -/
theorem handleInd_exactly_once {ts : List (Turn δ)} {t : Turn δ}
    (h : Session content p ts (.ok (t.exchange, t.connection))) (hopens : ¬t.Opens)
    (hdatum : t.IsDatum → t.exchange.MaySend content t.frame) {w w' : Station} {result : IndResult}
    (hw : w.connection = t.connection) (hblock : w.block = true)
    (hrun : exec app (handleInd p (t.service.ind t.frame.frame)) w = .returned result w') :
    ∃ (r : StepResult) (e : Exchange δ), r.result = result ∧ w' = w.after r ∧
      e = (t.arrived content).record content r ∧ e.delivered <+: e.sent.zipIdx ∧
        (e.delivered.map Prod.snd).Nodup ∧
          ∀ ack ∈ e.acks, ack.number.toNat = ack.datum % 16 ∧ ack.datum < e.delivered.length := by
  obtain ⟨r, hresult, hafter, hsession⟩ := h.handleInd hopens hdatum hw hblock hrun
  exact ⟨r, _, hresult, hafter, rfl, (session_tracks hsession _ _ rfl).exactly_once⟩

/-- Two data of 1.1.1. -/
theorem session_exactly_once_two :
    (exchangeAfter 2).delivered <+: (exchangeAfter 2).sent.zipIdx ∧
      ((exchangeAfter 2).delivered.map Prod.snd).Nodup ∧
      ∀ ack ∈ (exchangeAfter 2).acks,
        ack.number.toNat = ack.datum % 16 ∧ ack.datum < (exchangeAfter 2).delivered.length :=
  session_exactly_once (session_firstArrivals (k := 2) (by decide))

end Sessions

end EmbassyKnx.App
