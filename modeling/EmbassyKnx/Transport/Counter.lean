import EmbassyKnx.Transport.Failure
import EmbassyKnx.Transport.Session

/-!
# The range of the receive counter

`handle_ind` compares the sequence number of a datum with `seq_no_recv` and then with
`seq_no_recv - 1`; A2 adds one. `tpci_seq` returns three bits, `seq_no_recv` is a `u8` that
starts at 0 and never wraps: the subtraction leaves `u8` at 0, and the eighth datum takes the
counter to 8, which no received number equals.

* `Attempt.Happens.seqNoRecv_cases`: what a step does to the counter.
* `Reachable.seqNoRecv_le`: the counter never exceeds 8, so the addition stays in range.
* `history_counterSafe_iff`: the histories in which the counter stays in range.
-/

namespace EmbassyKnx.App

open Rust Octets Async Connection

/-! ## The property -/

/-- Evaluated with overflow checks, `handle_ind` does not panic. -/
def InRange (c : Connection) (s : ConnectionService) (f : SizedFrame) : Prop :=
  ∀ w : Station, w.connection = c → ¬(exec app (handleInd .dev (s.ind f.frame)) w).IsPanic

/-- `seq_no_recv` is a value that `tpci_seq` can return. -/
def InField (c : Connection) : Prop := ∃ f : SizedFrame, f.tpciSeq = c.seqNoRecv

/-- No step of a history leaves `u8`, nor does the next one, and `seq_no_recv` is always a
    sequence number. -/
structure CounterSafe (ts : List Attempt) (c : Connection) (s : ConnectionService)
    (f : SizedFrame) : Prop where
  inRange : ∀ t ∈ ts, InRange t.before.connection t.service t.frame
  next_inRange : InRange c s f
  inField : ∀ t ∈ ts, InField t.before.connection ∧ InField t.after.connection
  last_inField : InField c

/-! ## The condition -/

/-- A datum of the last peer that is not number 0, while 0 is expected. -/
def EarlyDatum (c : Connection) (s : ConnectionService) (f : SizedFrame) : Prop :=
  c.srcAddr = some f.srcAddr ∧ s = .dataConnected ∧ c.seqNoRecv = 0 ∧ f.tpciSeq ≠ 0

/-- The datum that an open connection waits for is acknowledged to the end. -/
def Attempt.Advances (t : Attempt) : Prop :=
  InSequence t.before.connection t.service t.frame ∧ t.before.block = true ∧ ¬t.Dropped

/-- That datum is number 7. -/
def Attempt.EighthDatum (t : Attempt) : Prop := t.Advances ∧ t.frame.tpciSeq = 7

/-! ## Sequence numbers -/

theorem tpciSeq_le (f : SizedFrame) : f.tpciSeq.toNat ≤ 7 := by
  have hbits : ∀ x : UInt8, ((x >>> 2) &&& 0x7).toNat ≤ 7 := forall_octet (by decide +kernel)
  exact hbits f.tpci

theorem inField_iff {c : Connection} : InField c ↔ c.seqNoRecv.toNat ≤ 7 := by
  constructor
  · rintro ⟨f, hf⟩
    rw [← hf]
    exact tpciSeq_le f
  · intro h
    have hread : ∀ x : UInt8, x.toNat ≤ 7 → (datumFrame x).tpciSeq = x :=
      forall_octet (by decide +kernel)
    exact ⟨_, hread _ h⟩

/-! ## The step -/

section Step

variable {p : Profile} {c : Connection} {s : ConnectionService} {f : SizedFrame} {block : Bool}

/-- Every action but A1 and A2 leaves the counter alone. -/
theorem act_seqNoRecv {a : Action} {r : StepResult} (h : act p c f block a = .ok r) :
    r.connection.seqNoRecv =
      if a = .a1 then 0 else if a = .a2 ∧ block = true then c.seqNoRecv + 1 else c.seqNoRecv := by
  cases a with
  | a1 => cases h; rfl
  | a2 =>
    obtain ⟨rfl, c', ind, hdone, rfl⟩ | ⟨rfl, rfl⟩ := sending_ok h
    · obtain ⟨seqNoRecv, hadd, hdone⟩ := (bind_eq_ok_iff _).mp hdone
      cases hdone
      exact u8Add_ok hadd
    · rfl
  | a3 =>
    obtain ⟨-, c', ind, hdone, rfl⟩ | ⟨-, rfl⟩ := sending_ok h
    · cases hdone
      rfl
    · rfl
  | a5 => cases h; rfl
  | a6 =>
    obtain ⟨-, c', ind, hdone, rfl⟩ | ⟨-, rfl⟩ := sending_ok h
    · cases hdone
      rfl
    · rfl
  | a10 =>
    obtain ⟨-, c', ind, hdone, rfl⟩ | ⟨-, rfl⟩ := sending_ok h
    · cases hdone
      rfl
    · rfl
  | ignore => cases h; rfl

/-- Below the end of `u8` every action completes. -/
theorem act_ok (hle : c.seqNoRecv.toNat ≤ 8) (a : Action) : ∃ r, act .dev c f block a = .ok r := by
  have hadd : u8Add .dev c.seqNoRecv 1 = .ok (c.seqNoRecv + 1) := by
    apply u8Add_of_lt
    show c.seqNoRecv.toNat + 1 < 256
    omega
  cases a with
  | a2 =>
    rw [act, hadd]
    cases block <;> exact ⟨_, rfl⟩
  | a1 => exact ⟨_, rfl⟩
  | a5 => exact ⟨_, rfl⟩
  | ignore => exact ⟨_, rfl⟩
  | _ => cases block <;> exact ⟨_, rfl⟩

/-- `seq_no_recv - 1` is evaluated for an early datum, and `seq_no_recv` is 0 then. -/
theorem EarlyDatum.stepAction_eq (h : EarlyDatum c s f) :
    stepAction .dev c s f = .error .arithmeticOverflow := by
  obtain ⟨hpeer, rfl, hzero, hseq⟩ := h
  unfold stepAction eventFor peerEvent dataEvent
  rw [if_pos hpeer, hzero, if_neg hseq]
  rfl

/-- Otherwise it is not evaluated, or it stays in range. -/
theorem exists_stepAction (h : ¬EarlyDatum c s f) : ∃ a, stepAction .dev c s f = .ok a := by
  by_cases hpeer : c.srcAddr = some f.srcAddr
  · unfold stepAction eventFor
    rw [if_pos hpeer]
    cases s with
    | dataConnected =>
      unfold peerEvent dataEvent
      by_cases hseq : f.tpciSeq = c.seqNoRecv
      · rw [if_pos hseq]
        exact ⟨_, rfl⟩
      · have hzero : c.seqNoRecv ≠ 0 := by
          intro hzero
          apply h
          exact ⟨hpeer, rfl, hzero, hzero ▸ hseq⟩
        have hone : (1 : UInt8) ≤ c.seqNoRecv := by
          rw [ne_eq, ← UInt8.toNat_inj] at hzero
          rw [UInt8.le_iff_toNat_le]
          exact Nat.one_le_iff_ne_zero.mpr hzero
        rw [if_neg hseq, u8Sub_of_le .dev hone, ok_bind]
        split_ifs <;> exact ⟨_, rfl⟩
    | _ => exact ⟨_, rfl⟩
  · unfold stepAction eventFor
    rw [if_neg hpeer]
    exact ⟨_, rfl⟩

/-- Below the end of `u8`, the step leaves its range on an early datum and on nothing else. -/
theorem inRange_iff (hle : c.seqNoRecv.toNat ≤ 8) : InRange c s f ↔ ¬EarlyDatum c s f := by
  constructor
  · intro hrange hearly
    have hrun := exec_handleInd .dev s f ⟨c, false, true, [], []⟩
    rw [connStep, hearly.stepAction_eq] at hrun
    obtain ⟨w', hw'⟩ := hrun
    apply hrange ⟨c, false, true, [], []⟩ rfl
    rw [hw']
    trivial
  · intro hearly w hw
    subst hw
    obtain ⟨a, ha⟩ := exists_stepAction hearly
    obtain ⟨r, hr⟩ : ∃ r, act .dev w.connection f w.block a = .ok r := act_ok hle a
    have hrun := exec_handleInd .dev s f w
    rw [connStep, ha, ok_bind, hr] at hrun
    rw [show exec app _ w = _ from hrun]
    exact id

end Step

/-! ## Attempts -/

theorem Action.interim_seqNoRecv (c : Connection) (a : Action) :
    (a.interim c).seqNoRecv = c.seqNoRecv := by
  cases a <;> rfl

namespace Attempt

variable {p : Profile} {t : Attempt}

theorem Happens.seqNoRecv_advances (ht : t.Happens p) (hadvances : t.Advances) :
    t.after.connection.seqNoRecv = t.frame.tpciSeq + 1 := by
  obtain ⟨hdatum, hblock, hdropped⟩ := hadvances
  cases hending : t.ending with
  | returned result =>
    obtain ⟨r, hstep, hafter, -⟩ := ht.returned hending
    obtain ⟨a, ha, hact⟩ := connStep_ok hstep
    rw [hdatum.stepAction_eq] at ha
    cases ha
    rw [hafter]
    show r.connection.seqNoRecv = _
    rw [act_seqNoRecv hact, if_neg (by decide), if_pos ⟨rfl, hblock⟩, hdatum.2.2.2]
  | dropped o => exact absurd ⟨o, hending⟩ hdropped

/-- Every other attempt leaves the counter alone or starts it again. -/
theorem Happens.seqNoRecv_cases (ht : t.Happens p) (hadvances : ¬t.Advances) :
    t.after.connection.seqNoRecv = t.before.connection.seqNoRecv ∨
      t.after.connection.seqNoRecv = 0 := by
  cases hending : t.ending with
  | returned result =>
    obtain ⟨r, hstep, hafter, -⟩ := ht.returned hending
    obtain ⟨a, ha, hact⟩ := connStep_ok hstep
    have hseq : t.after.connection.seqNoRecv = r.connection.seqNoRecv := by rw [hafter]; rfl
    rw [hseq, act_seqNoRecv hact]
    split_ifs with ha1 ha2
    · exact .inr rfl
    · obtain ⟨rfl, hblock⟩ := ha2
      apply absurd _ hadvances
      refine ⟨stepAction_condition ha, hblock, ?_⟩
      rintro ⟨o, hdropped⟩
      rw [hending] at hdropped
      cases hdropped
    · exact .inl rfl
  | dropped o =>
    obtain ⟨a, frame, -, -, -, ⟨-, hafter⟩ | ⟨-, hafter⟩⟩ := drops_handleInd.mp (ht.dropped hending)
    · rw [hafter]
      exact .inl (Action.interim_seqNoRecv _ a)
    · rw [hafter]
      exact .inl (Action.interim_seqNoRecv _ a)

theorem Happens.seqNoRecv_le (ht : t.Happens p) (hle : t.before.connection.seqNoRecv.toNat ≤ 8) :
    t.after.connection.seqNoRecv.toNat ≤ 8 := by
  have hseq := tpciSeq_le t.frame
  by_cases hadvances : t.Advances
  · rw [ht.seqNoRecv_advances hadvances, UInt8.toNat_add, UInt8.toNat_one]
    omega
  · rcases ht.seqNoRecv_cases hadvances with heq | hzero
    · rw [heq]
      exact hle
    · rw [hzero]
      decide

/-- Up to the seventh datum the counter stays a sequence number. -/
theorem Happens.inField (ht : t.Happens p) (heighth : ¬t.EighthDatum)
    (hfield : InField t.before.connection) : InField t.after.connection := by
  have hseq := tpciSeq_le t.frame
  rw [inField_iff] at hfield ⊢
  by_cases hadvances : t.Advances
  · have hne : t.frame.tpciSeq.toNat ≠ 7 := fun h => heighth ⟨hadvances, UInt8.toNat_inj.mp h⟩
    rw [ht.seqNoRecv_advances hadvances, UInt8.toNat_add, UInt8.toNat_one]
    omega
  · rcases ht.seqNoRecv_cases hadvances with heq | hzero
    · rw [heq]
      exact hfield
    · rw [hzero]
      decide

/-- The eighth datum takes it to 8. -/
theorem Happens.not_inField (ht : t.Happens p) (heighth : t.EighthDatum) :
    ¬InField t.after.connection := by
  rw [inField_iff, ht.seqNoRecv_advances heighth.1, heighth.2]
  decide

end Attempt

/-! ## Histories -/

section Histories

variable {p : Profile} {ts : List Attempt} {c : Connection}

theorem Reachable.seqNoRecv_le (h : Reachable p c) : c.seqNoRecv.toNat ≤ 8 := by
  obtain ⟨ts, h⟩ := h
  exact h.preserves (I := fun c => c.seqNoRecv.toNat ≤ 8) (fun _ ht => ht.seqNoRecv_le) (by decide)

/-- The receive counter stays in range along a history and in the step behind it if and only
    if no datum comes early and the eighth datum is not acknowledged. -/
theorem history_counterSafe_iff (p : Profile) {ts : List Attempt} {c : Connection}
    (h : History p .new ts c) (s : ConnectionService) (f : SizedFrame) :
    CounterSafe ts c s f ↔
      (∀ t ∈ ts, ¬EarlyDatum t.before.connection t.service t.frame ∧ ¬t.EighthDatum) ∧
        ¬EarlyDatum c s f := by
  have hbefore := h.before (I := fun c => c.seqNoRecv.toNat ≤ 8) (fun _ ht => ht.seqNoRecv_le)
    (by decide)
  have hlast := Reachable.seqNoRecv_le ⟨ts, h⟩
  constructor
  · intro hsafe
    refine ⟨?_, (inRange_iff hlast).mp hsafe.next_inRange⟩
    intro t hmem
    obtain ⟨ht, hle⟩ := hbefore t hmem
    refine ⟨(inRange_iff hle).mp (hsafe.inRange t hmem), ?_⟩
    intro heighth
    exact ht.not_inField heighth (hsafe.inField t hmem).2
  · rintro ⟨hcond, hnext⟩
    obtain ⟨hfield, hfieldLast⟩ := h.along (I := InField) (C := fun t => ¬t.EighthDatum)
      (fun _ ht => ht.inField) (fun t hmem => (hcond t hmem).2) ⟨datumFrame 0, by decide⟩
    constructor
    · intro t hmem
      exact (inRange_iff (hbefore t hmem).2).mpr (hcond t hmem).1
    · exact (inRange_iff hlast).mpr hnext
    · intro t hmem
      exact (hfield t hmem).2
    · exact hfieldLast

/-- 1.1.1 connects and sends its first datum. -/
theorem history_counterSafe_iff_connected :
    CounterSafe [.connected] (opened .new ⟨0x1101⟩) .dataConnected (datumFrame 0) ↔
      (∀ t ∈ [Attempt.connected],
        ¬EarlyDatum t.before.connection t.service t.frame ∧ ¬t.EighthDatum) ∧
        ¬EarlyDatum (opened .new ⟨0x1101⟩) .dataConnected (datumFrame 0) :=
  history_counterSafe_iff .dev (.cons Attempt.connected_happens (.nil _)) .dataConnected (datumFrame 0)

end Histories

/-- Datum `k` of 1.1.1, when the data before it are acknowledged. -/
def Attempt.datum (k : ℕ) : Attempt where
  before := ⟨connectionAfter k, false, true, [], []⟩
  service := .dataConnected
  frame := datumFrame (.ofNat k)
  ending := .returned (.ok (some (.dataConnected (datumFrame (.ofNat k)).frame)))
  after := ⟨connectionAfter (k + 1), false, true, [],
    [.standard (response ⟨0x1101⟩ (.ofNat k) 0xc2)]⟩

theorem Attempt.datum_happens {k : ℕ} (hk : k < 8) : (Attempt.datum k).Happens .dev := by
  have hstep : ∀ k < 8, connStep .dev (connectionAfter k) .dataConnected (datumFrame (.ofNat k))
      true = .ok ⟨connectionAfter (k + 1), [.standard (response ⟨0x1101⟩ (.ofNat k) 0xc2)],
        .ok (some (.dataConnected (datumFrame (.ofNat k)).frame))⟩ := by
    decide
  exact Attempt.happens_of_step (hstep k hk) rfl rfl

/-- 1.1.1 connects and sends its first data. -/
theorem history_data {k : ℕ} (hk : k ≤ 8) : History .dev .new
    (.connected :: (List.range k).map Attempt.datum) (connectionAfter k) := by
  induction k with
  | zero => exact .cons Attempt.connected_happens (.nil _)
  | succ k ih =>
    rw [List.range_succ, List.map_append, ← List.cons_append]
    exact (ih (Nat.le_of_succ_le hk)).concat (Attempt.datum_happens hk) rfl

/-- After the T_Connect, a datum numbered 1 makes the device panic; eight data in sequence
    take the counter to a number that no datum can have. -/
theorem earlyDatum_panics :
    History .dev .new [.connected] (opened .new ⟨0x1101⟩) ∧
      individualService (datumFrame 1).tpci = .connection .dataConnected ∧
      exec app (handleInd .dev (.dataConnected (datumFrame 1).frame)) Attempt.connected.after =
        .panicked .arithmeticOverflow Attempt.connected.after ∧
      ¬CounterSafe [.connected] (opened .new ⟨0x1101⟩) .dataConnected (datumFrame 1) ∧
      History .dev .new (.connected :: (List.range 8).map Attempt.datum) (connectionAfter 8) ∧
      ¬InField (connectionAfter 8) := by
  have hpanic : exec app (handleInd .dev (.dataConnected (datumFrame 1).frame))
      Attempt.connected.after = .panicked .arithmeticOverflow Attempt.connected.after := by
    rfl
  refine ⟨history_data (k := 0) (by decide), by decide, hpanic, ?_, history_data (by decide), ?_⟩
  · intro hsafe
    apply hsafe.next_inRange Attempt.connected.after rfl
    show (exec app (handleInd .dev (.dataConnected (datumFrame 1).frame)) _).IsPanic
    rw [hpanic]
    trivial
  · rw [inField_iff]
    decide

end EmbassyKnx.App
