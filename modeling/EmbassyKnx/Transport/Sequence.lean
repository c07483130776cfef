import EmbassyKnx.Transport.Session

/-!
# Accepting data for ever

An open connection should deliver and acknowledge every datum that comes in sequence.
It does so for the numbers below 8 (`sequence_accepted_iff`). What it does is what
`handle_ind` does (`Turn.accepted_iff_handleInd`).
-/

namespace EmbassyKnx.App

open Rust Async Connection StopAndWait

variable {δ : Type} {content : Frame → δ} {p : Profile}

variable (content) in
/-- What an open connection owes a datum of its peer: the first arrival is delivered and
    answered by a T_ACK with its number, a repetition of an acknowledged datum is answered
    once more and not delivered. -/
def Turn.Answers (t : Turn δ) (r : StepResult) : Prop :=
  if t.exchange.IsNext t.frame then
    delivered r.result = [.dataConnected t.frame.frame] ∧
      (acksTo t.exchange.peer r.sent).map UInt8.toNat = [t.frame.seqField]
  else (∃ ack ∈ t.exchange.acks, ack.datum = t.exchange.position content t.frame) →
    delivered r.result = [] ∧
      (acksTo t.exchange.peer r.sent).map UInt8.toNat = [t.frame.seqField]

variable (content p) in
/-- If the frame is a datum of the connected peer, the connection does what it owes. -/
def Turn.Accepted (t : Turn δ) : Prop :=
  t.IsDatum → ∃ r, t.step p = .ok r ∧ t.Answers content r

/-- The datum is accepted by the call of `handle_ind` that it comes to. -/
theorem Turn.accepted_iff_handleInd {t : Turn δ} {w : Station} (hw : w.connection = t.connection)
    (hblock : w.block = true) : t.Accepted content p ↔ (t.IsDatum → ∃ r : StepResult,
      exec app (handleInd p (t.service.ind t.frame.frame)) w = .returned r.result (w.after r) ∧
        t.Answers content r) := by
  simp only [Turn.Accepted, Turn.step_eq_ok_iff p t hw hblock]

section Answers

variable {t : Turn δ} (ht : Tracks t.exchange t.connection) (hd : t.IsDatum)
  (hmay : t.exchange.MaySend content t.frame)

include ht hd hmay

/-- A reaction that is not to drop the datum sends one T_ACK, with the number of the datum. -/
theorem Turn.acksTo_reaction {n : ℕ} (hn : t.exchange.delivered.length = n) {reaction : Reaction}
    (hreaction : App.reaction n (t.exchange.position content t.frame) = reaction)
    (hdrop : reaction ≠ .drop) :
    (acksTo t.exchange.peer (datumResult t.connection t.frame reaction).sent).map UInt8.toNat =
      [t.frame.seqField] := by
  subst hn hreaction
  rw [← hd.2.1]
  exact acksTo_number (ht.seqNoRecv_eq hd.1) (ht.position_eq hmay) ht.delivered_le
    (ht.sends hmay).2 hdrop

/-- The first arrival of a datum is answered up to the eighth datum. -/
theorem Turn.answers_next (hnext : t.exchange.IsNext t.frame) :
    t.Answers content (datumResult t.connection t.frame
      (reaction t.exchange.delivered.length (t.exchange.position content t.frame))) ↔
        t.frame.seqField < 8 := by
  have hposition : t.exchange.position content t.frame = t.exchange.sent.length := by
    rw [Exchange.position, Exchange.arrive, if_pos hnext, List.length_append,
      List.length_singleton, Nat.add_sub_cancel]
  have hdelivered : t.exchange.delivered.length ≤ t.exchange.sent.length := ht.sound.delivered_le
  have hle := ht.delivered_le
  have hseq := (ht.sends hmay).2
  rw [Turn.Answers, if_pos hnext]
  obtain ⟨hreaction, hi⟩ | ⟨hreaction, hi, hlt⟩ | ⟨hreaction, hi, hge⟩ :=
    reaction_cases (ht.position_eq hmay)
  · omega
  · have hacks := Turn.acksTo_reaction ht hd hmay rfl hreaction (by decide)
    rw [hreaction]
    refine iff_of_true ⟨rfl, hacks⟩ ?_
    omega
  · rw [hreaction]
    apply iff_of_false
    · intro h
      cases h.1
    · omega

/-- The repetition of a datum is always answered. -/
theorem Turn.answers_again (hnext : ¬t.exchange.IsNext t.frame) :
    t.Answers content (datumResult t.connection t.frame
      (reaction t.exchange.delivered.length (t.exchange.position content t.frame))) := by
  rw [Turn.Answers, if_neg hnext]
  intro hacked
  obtain ⟨ack, hmem, hack⟩ := hacked
  have hlt : ack.datum < t.exchange.delivered.length :=
    ht.sound.acked_delivered _ (List.mem_map_of_mem hmem)
  obtain ⟨hreaction, hi⟩ | ⟨hreaction, hi, -⟩ | ⟨hreaction, hi, -⟩ :=
    reaction_cases (ht.position_eq hmay)
  · have hacks := Turn.acksTo_reaction ht hd hmay rfl hreaction (by decide)
    rw [hreaction]
    exact ⟨rfl, hacks⟩
  · omega
  · omega

/-- The connection fails on the first arrival of the ninth datum and on nothing else. -/
theorem Turn.accepted_iff :
    t.Accepted content p ↔ (t.exchange.IsNext t.frame → t.frame.seqField < 8) := by
  obtain ⟨hstep, -⟩ := Turn.step_datum (p := p) ht hd hmay rfl
  have haccepted : t.Accepted content p ↔ t.Answers content (datumResult t.connection t.frame
      (reaction t.exchange.delivered.length (t.exchange.position content t.frame))) := by
    constructor
    · intro h
      obtain ⟨r, hr, hanswers⟩ := h hd
      rw [hstep] at hr
      cases hr
      exact hanswers
    · intro h _
      exact ⟨_, hstep, h⟩
  rw [haccepted]
  by_cases hnext : t.exchange.IsNext t.frame
  · rw [Turn.answers_next ht hd hmay hnext, forall_prop_of_true hnext]
  · exact iff_of_true (Turn.answers_again ht hd hmay hnext) fun h => absurd h hnext

end Answers

/-- Before each of its turns a session tracks the connection. -/
theorem session_turns {ts : List (Turn δ)} {res : Panicking (Exchange δ × Connection)}
    (h : Session content p ts res) : ∀ t ∈ ts, Tracks t.exchange t.connection ∧
      (t.IsDatum → t.exchange.MaySend content t.frame) := by
  induction h with
  | opened => exact List.forall_mem_nil _
  | turn h _ hdatum ih =>
    exact List.forall_mem_cons.mpr ⟨⟨session_tracks h _ _ rfl, hdatum⟩, ih⟩

theorem Turn.finish_sent {t : Turn δ} {e : Exchange δ} {c : Connection}
    (h : t.finish content p = .ok (e, c)) : e.sent = (t.arrived content).sent := by
  unfold Turn.finish at h
  rcases hstep : t.step p with why | r
  · rw [hstep] at h
    exact nomatch h
  · rw [hstep] at h
    cases h
    rfl

/-- A session whose data are all accepted has seen at most eight data. -/
theorem sent_length_of_accepted {ts : List (Turn δ)} {res : Panicking (Exchange δ × Connection)}
    (h : Session content p ts res) (haccepted : ∀ t ∈ ts, t.Accepted content p) :
    (∀ t ∈ ts, t.exchange.sent.length ≤ 8) ∧ ∀ e c, res = .ok (e, c) → e.sent.length ≤ 8 := by
  induction h with
  | @opened c f hclosed =>
    refine ⟨List.forall_mem_nil _, ?_⟩
    intro e c' he
    rw [connStep, stepAction_closed_connect p hclosed] at he
    cases he
    exact Nat.zero_le _
  | @turn ts t h hopens hdatum ih =>
    obtain ⟨haccepted, htail⟩ := List.forall_mem_cons.mp haccepted
    obtain ⟨hts, hlen⟩ := ih htail
    have hlen := hlen _ _ rfl
    refine ⟨List.forall_mem_cons.mpr ⟨hlen, hts⟩, ?_⟩
    intro e c he
    rw [Turn.finish_sent he, Turn.arrived]
    split_ifs with hd
    · rw [Turn.accepted_iff (session_tracks h _ _ rfl) hd (hdatum hd)] at haccepted
      unfold Exchange.arrive
      split_ifs with hnext
      · have hlow := haccepted hnext
        have hseq : t.frame.seqField = t.exchange.sent.length % 16 := hnext
        rw [List.length_append, List.length_singleton]
        omega
      · exact hlen
    · exact hlen

/-- Every datum of a session is accepted if and only if no sequence number is above 7. -/
theorem sequence_accepted_iff {ts : List (Turn δ)} {res : Panicking (Exchange δ × Connection)}
    (h : Session content p ts res) : (∀ t ∈ ts, t.Accepted content p) ↔
      ∀ t ∈ ts, t.IsDatum → t.frame.seqField < 8 := by
  have hturns := session_turns h
  constructor
  · intro haccepted t hmem hd
    obtain ⟨ht, hmay⟩ := hturns t hmem
    have hle := (sent_length_of_accepted h haccepted).1 t hmem
    have hnext := (Turn.accepted_iff ht hd (hmay hd)).mp (haccepted t hmem)
    rcases hmay hd with ⟨hn, -⟩ | ⟨hagain, -⟩
    · exact hnext hn
    · omega
  · intro hlow t hmem hd
    obtain ⟨ht, hmay⟩ := hturns t hmem
    exact (Turn.accepted_iff ht hd (hmay hd)).mpr (fun _ => hlow t hmem hd) hd

/-- Two data of 1.1.1. -/
theorem sequence_accepted_iff_two :
    (∀ t ∈ (List.range 2).reverse.map firstArrival, t.Accepted id .dev) ↔
      ∀ t ∈ (List.range 2).reverse.map firstArrival, t.IsDatum → t.frame.seqField < 8 :=
  sequence_accepted_iff (session_firstArrivals (k := 2) (by decide))

/-- Nine data of 1.1.1, numbered 0 to 8: the ninth is neither delivered nor answered. -/
theorem ninth_datum_ignored :
    (∃ res, Session id .dev ((List.range 9).reverse.map firstArrival) res) ∧
      (∀ k < 9, individualService (datumFrame (.ofNat k)).tpci = .connection .dataConnected) ∧
      (firstArrival 8).step .dev = .ok ⟨connectionAfter 8, [], .ok none⟩ ∧
      ¬(firstArrival 8).Accepted id .dev := by
  have hstep : (firstArrival 8).step .dev = .ok ⟨connectionAfter 8, [], .ok none⟩ := by decide
  refine ⟨⟨(firstArrival 8).finish id .dev, ?_⟩, by decide, hstep, ?_⟩
  · exact .turn (session_firstArrivals (k := 8) (by decide)) (fun hopens => nomatch hopens.1)
      fun _ => maySend_firstArrival 8 (by decide)
  · intro h
    obtain ⟨r, hr, hanswers⟩ := h (by decide)
    rw [hstep] at hr
    cases hr
    cases hanswers.1

end EmbassyKnx.App
