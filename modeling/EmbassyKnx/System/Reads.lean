import EmbassyKnx.System.Outline
import EmbassyKnx.System.Script

/-!
# Group reads between the frame queue and the answer

A group read is first a frame, then an indication, then a response. It keeps its number on
this way, so that the reads of the system, from the first that was answered to the last that came
in, are those that have ever come in.

* `reads_conserved`: none is lost, and they are answered in the order of their arrival.
-/

namespace EmbassyKnx

open Rust Async

/-- The numbers of the group reads among the frames. -/
def readsOf (frames : List (ℕ × Frame)) : List ℕ :=
  (frames.filter fun x => decide (IsGroupRead x.2)).map Prod.fst

section

variable {x : ℕ × Frame} {frames frames' : List (ℕ × Frame)}

@[simp] theorem readsOf_nil : readsOf [] = [] := rfl

@[simp] theorem readsOf_append :
    readsOf (frames ++ frames') = readsOf frames ++ readsOf frames' := by
  simp [readsOf]

theorem readsOf_cons : readsOf (x :: frames) = readsOf [x] ++ readsOf frames :=
  @readsOf_append [x] frames

theorem readsOf_read (h : IsGroupRead x.2) : readsOf [x] = [x.1] := by
  simp [readsOf, h]

theorem readsOf_other (h : ¬IsGroupRead x.2) : readsOf [x] = [] := by
  simp [readsOf, h]

end

/-- The number of the read whose response the main task holds. -/
def MainTask.read : MainTask → List ℕ
  | .receive => []
  | .send number _ => [number]

/-- The application task has a read that it has not indicated yet. -/
def AppPlace.HoldsRead : AppPlace → Prop
  | .selecting .reading => True
  | .indicating true _ => True
  | _ => False

namespace Outline

variable {l l' : Outline}

/-! ## The read of the application task -/

/-- The frame of the application task is a read just where its place says so. -/
structure Holding (l : Outline) : Prop where
  read : l.app.HoldsRead → ∃ x, l.frame = some x ∧ IsGroupRead x.2
  other : ¬l.app.HoldsRead → readsOf l.frame.toList = []

theorem Holding.same (h : Holding l) (happ : l'.app = l.app) (hframe : l'.frame = l.frame) :
    Holding l' := by
  refine ⟨fun hread => ?_, fun hother => ?_⟩
  · rw [happ] at hread
    rw [hframe]
    exact h.read hread
  · rw [happ] at hother
    rw [hframe]
    exact h.other hother

/-- Between two places without a read. -/
theorem Holding.elsewhere (hnone : readsOf l.frame.toList = []) (hplace : ¬l.app.HoldsRead) :
    Holding l :=
  ⟨fun hread => absurd hread hplace, fun _ => hnone⟩

theorem not_holdsRead_sender {k : SendStage → AppPlace} (hk : Sender k) (g : SendStage) :
    ¬(k g).HoldsRead := by
  cases hk with
  | receive frame => exact id
  | respond => exact id

/-- A send does not touch the frame. -/
theorem Holding.send (h : Holding l) {k : SendStage → AppPlace} (hk : Sender k) {t u : SendStage}
    (hplace : l.app = k t) (hplace' : l'.app = k u) (hframe : l'.frame = l.frame) :
    Holding l' := by
  refine .elsewhere ?_ ?_
  · rw [hframe]
    exact h.other (hplace ▸ not_holdsRead_sender hk t)
  · rw [hplace']
    exact not_holdsRead_sender hk u

theorem Holding.move (h : Holding l) (hmove : Move l l') : Holding l' := by
  cases hmove with
  | stay => exact h
  | poll t _ => exact h.same rfl rfl
  | listen _ _ _ => exact h.same rfl rfl
  | wake _ _ _ => exact h.same rfl rfl
  | allocate _ _ _ => exact h.same rfl rfl
  | fetch _ _ _ => exact h.same rfl rfl
  | deliver f _ _ _ => exact h.same rfl rfl
  | signal status _ _ => exact h.same rfl rfl
  | turn _ _ => exact h.same rfl rfl
  | accept res _ _ _ => exact h.same rfl rfl
  | answer _ _ _ => exact h.same rfl rfl
  | @receive x rest _ _ _ =>
    by_cases hread : IsGroupRead x.2
    · refine ⟨fun _ => ⟨x, rfl, hread⟩, fun hplace => ?_⟩
      rw [if_pos hread] at hplace
      exact absurd trivial hplace
    · refine .elsewhere (readsOf_other hread) ?_
      rw [if_neg hread]
      exact id
  | tick _ hplace => exact .elsewhere (h.other (by simp [hplace, AppPlace.HoldsRead])) id
  | loop _ _ _ => exact .elsewhere rfl id
  | drop _ _ _ _ => exact .elsewhere rfl id
  | received _ hplace _ => exact .elsewhere (h.other (by simp [hplace, AppPlace.HoldsRead])) id
  | receivedRead _ hplace =>
    exact ⟨fun _ => h.read (by simp [hplace, AppPlace.HoldsRead]), fun hno => absurd trivial hno⟩
  | build _ hk hplace _ => exact h.send hk hplace rfl rfl
  | reset _ hk hplace => exact h.send hk hplace rfl rfl
  | enqueue f _ hk hplace _ => exact h.send hk hplace rfl rfl
  | confirm _ hk hplace _ => exact h.send hk hplace rfl rfl
  | indicate ind _ _ _ => exact .elsewhere rfl id
  | indicated _ _ => exact .elsewhere rfl id
  | take _ hplace _ => exact .elsewhere (h.other (by simp [hplace, AppPlace.HoldsRead])) id
  | responded _ _ _ => exact .elsewhere rfl id

/-! ## All reads -/

/-- The reads of the system, in the order of their arrival. -/
def reads (l : Outline) : List ℕ :=
  l.answered ++ l.serviceChannelTx.map Prod.fst ++ l.main.read ++
    l.serviceChannelRx.map Prod.fst ++ readsOf l.frame.toList ++ readsOf l.frameChannelTx

/-- The reads of the system are those that have come in. -/
structure Conserved (l : Outline) : Prop where
  holding : l.Holding
  numbered : l.delivered.map Prod.fst = List.range l.delivered.length
  reads : readsOf l.delivered = l.reads

/-- Where the application task holds no read, it can leave. -/
theorem Conserved.leave (h : Conserved l) {a : AppPlace} (hplace : ¬l.app.HoldsRead)
    (ha : ¬a.HoldsRead) : Conserved (l.leave a) := by
  refine ⟨.elsewhere rfl ha, h.numbered, ?_⟩
  have hreads := h.reads
  rw [Outline.reads, h.holding.other hplace] at hreads
  exact hreads

theorem Conserved.move (h : Conserved l) (hmove : Move l l') : Conserved l' := by
  have hholding := h.holding.move hmove
  have hreads := h.reads
  unfold Outline.reads at hreads
  cases hmove with
  | stay => exact h
  | poll t _ => exact ⟨hholding, h.numbered, hreads⟩
  | listen _ _ _ => exact ⟨hholding, h.numbered, hreads⟩
  | wake _ _ _ => exact ⟨hholding, h.numbered, hreads⟩
  | allocate _ _ _ => exact ⟨hholding, h.numbered, hreads⟩
  | fetch _ _ _ => exact ⟨hholding, h.numbered, hreads⟩
  | signal status _ _ => exact ⟨hholding, h.numbered, hreads⟩
  | turn _ _ => exact ⟨hholding, h.numbered, hreads⟩
  | tick _ _ => exact ⟨hholding, h.numbered, hreads⟩
  | received _ _ _ => exact ⟨hholding, h.numbered, hreads⟩
  | receivedRead _ _ => exact ⟨hholding, h.numbered, hreads⟩
  | build _ _ _ _ => exact ⟨hholding, h.numbered, hreads⟩
  | reset _ _ _ => exact ⟨hholding, h.numbered, hreads⟩
  | enqueue f _ _ _ _ => exact ⟨hholding, h.numbered, hreads⟩
  | confirm _ _ _ _ => exact ⟨hholding, h.numbered, hreads⟩
  | loop _ hplace _ => exact h.leave (by simp [hplace, AppPlace.HoldsRead]) id
  | indicated _ hplace => exact h.leave (by simp [hplace, AppPlace.HoldsRead]) id
  | responded _ hplace _ => exact h.leave (by simp [hplace, AppPlace.HoldsRead]) id
  | @drop g _ hplace hpends _ =>
    -- a future that holds a read is not pending
    refine h.leave ?_ id
    rw [hplace]
    cases g with
    | reading => exact absurd hpends id
    | _ => exact id
  | deliver f _ _ _ =>
    refine ⟨hholding, ?_, ?_⟩
    · simp [h.numbered, List.range_succ]
    · simp only [Outline.reads, readsOf_append, hreads, List.append_assoc]
  | @receive x rest _ hplace hqueue =>
    refine ⟨hholding, h.numbered, ?_⟩
    have hnone := h.holding.other (by simp [hplace, AppPlace.HoldsRead])
    rw [hnone, hqueue, readsOf_cons] at hreads
    simpa [Outline.reads] using hreads
  | indicate ind _ hplace _ =>
    refine ⟨hholding, h.numbered, ?_⟩
    obtain ⟨x, hx, hread⟩ := h.holding.read (by simp [hplace, AppPlace.HoldsRead])
    rw [hx, Option.toList_some, readsOf_read hread] at hreads
    simpa [Outline.reads, hx] using hreads
  | take _ _ hqueue =>
    refine ⟨hholding, h.numbered, ?_⟩
    rw [hqueue] at hreads
    simpa [Outline.reads] using hreads
  | accept res _ hmain hqueue =>
    refine ⟨hholding, h.numbered, ?_⟩
    rw [hmain, hqueue] at hreads
    simpa [Outline.reads, MainTask.read] using hreads
  | answer _ hmain _ =>
    refine ⟨hholding, h.numbered, ?_⟩
    rw [hmain] at hreads
    simpa [Outline.reads, MainTask.read] using hreads

end Outline

namespace System

theorem conserved_initial (p : Profile) : (initialOutline p).Conserved :=
  ⟨.elsewhere rfl id, rfl, rfl⟩

/-- The numbers of the frames that are not group reads are left out; the others are in order. -/
theorem readsOf_sorted {frames : List (ℕ × Frame)}
    (h : frames.map Prod.fst = List.range frames.length) : (readsOf frames).Pairwise (· < ·) := by
  have hsub : (readsOf frames).Sublist (frames.map Prod.fst) := List.filter_sublist.map Prod.fst
  rw [h] at hsub
  exact List.pairwise_lt_range.sublist hsub

/-- In all that the system can come to the group reads that have ever been put into
    `FRAME_CHANNEL_TX` are those still in it, the one that the application task holds, those in
    `SERVICE_CHANNEL_RX`, the one that the main task holds, those in `SERVICE_CHANNEL_TX` and
    those that are answered; none is there twice, and they are answered in the order of their
    arrival. -/
theorem reads_conserved (p : Profile) {s : System} (h : Reachable p s) :
    (readsOf s.delivered).length =
        (readsOf s.frameChannelTx).length + (readsOf s.app.frame.toList).length +
          s.serviceChannelRx.length + s.main.read.length + s.serviceChannelTx.length +
          s.answered.length ∧
      (readsOf s.delivered = s.answered ++ s.serviceChannelTx.map Prod.fst ++ s.main.read ++
        s.serviceChannelRx.map Prod.fst ++ readsOf s.app.frame.toList ++
          readsOf s.frameChannelTx) ∧
      (readsOf s.delivered).Pairwise (· < ·) := by
  obtain ⟨g, a, hsim, hconserved⟩ := h.outline (conserved_initial p) Outline.Conserved.move
  have hreads : readsOf s.delivered = s.answered ++ s.serviceChannelTx.map Prod.fst ++
      s.main.read ++ s.serviceChannelRx.map Prod.fst ++ readsOf s.app.frame.toList ++
        readsOf s.frameChannelTx := hconserved.reads
  refine ⟨?_, hreads, readsOf_sorted hconserved.numbered⟩
  rw [hreads]
  simp only [List.length_append, List.length_map]
  omega

/-- One read has come in and is indicated. -/
def oneRead : System := play .dev [.hear readTelegram, .poll .app] (initial .dev)

theorem reads_conserved_oneRead :
    (readsOf oneRead.delivered).length =
        (readsOf oneRead.frameChannelTx).length + (readsOf oneRead.app.frame.toList).length +
          oneRead.serviceChannelRx.length + oneRead.main.read.length +
          oneRead.serviceChannelTx.length + oneRead.answered.length ∧
      (readsOf oneRead.delivered = oneRead.answered ++ oneRead.serviceChannelTx.map Prod.fst ++
        oneRead.main.read ++ oneRead.serviceChannelRx.map Prod.fst ++
          readsOf oneRead.app.frame.toList ++ readsOf oneRead.frameChannelTx) ∧
      (readsOf oneRead.delivered).Pairwise (· < ·) :=
  reads_conserved .dev (reachable_play .refl _)

end System

end EmbassyKnx
