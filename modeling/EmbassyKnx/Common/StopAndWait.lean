import Mathlib.Data.List.Sigma
import Mathlib.Tactic.Common

/-!
# Stop and wait

A sender sends its data one after the other. It may send the current datum any
number of times and goes on to the next one only when the current one has been
acknowledged. A receiver accepts an arriving datum, acknowledges it once more or
drops it. A `Ledger` is what both have done so far.

* `Ledger.Sound.length_of_sends`: two data can arrive, the last one the receiver
  has accepted and the first one it has not.
* `Ledger.Sound.record`: a receiver that accepts the new datum only and
  acknowledges what it has accepted only keeps the ledger sound.
* `Ledger.Sound.nodup`: in a sound ledger no datum is delivered twice.
-/

namespace EmbassyKnx.StopAndWait

/-- What the receiver does with an arriving datum. -/
inductive Reaction
  | accept
  | acknowledge
  | drop
  deriving DecidableEq, Repr

/-- The history of a transfer. -/
structure Ledger (δ : Type) where
  /-- The data sent so far, repetitions left out. -/
  sent : List δ
  /-- The data delivered by the receiver, each with its position in `sent`. -/
  delivered : List (δ × ℕ)
  /-- The positions the receiver has acknowledged. -/
  acked : List ℕ

namespace Ledger

variable {δ : Type}

/-- Before the first datum. -/
def empty : Ledger δ := ⟨[], [], []⟩

/-- The sender sends `d`; the data sent are then `sent'`, and `d` is the last of them. -/
inductive Sends (l : Ledger δ) (d : δ) : List δ → Prop
  | again (h : l.sent.getLast? = some d) : Sends l d l.sent
  | next (h : ∀ i, i + 1 = l.sent.length → i ∈ l.acked) : Sends l d (l.sent ++ [d])

/-- The receiver reacts to the last of the data `sent'`. -/
def record (l : Ledger δ) (sent' : List δ) (d : δ) : Reaction → Ledger δ
  | .accept => ⟨sent', l.delivered ++ [(d, sent'.length - 1)], l.acked ++ [sent'.length - 1]⟩
  | .acknowledge => ⟨sent', l.delivered, l.acked ++ [sent'.length - 1]⟩
  | .drop => ⟨sent', l.delivered, l.acked⟩

/-- The reactions to the datum at position `i` that are right for a receiver that has
    delivered `n` data. -/
def Safe (n i : ℕ) : Reaction → Prop
  | .accept => i = n
  | .acknowledge => i < n
  | .drop => True

/-- What is delivered has been sent, in the same order and once; what is acknowledged is
    delivered; the sender is at most one datum ahead. -/
structure Sound (l : Ledger δ) : Prop where
  prefix_sent : l.delivered <+: l.sent.zipIdx
  acked_delivered : ∀ i ∈ l.acked, i < l.delivered.length
  sent_le : l.sent.length ≤ l.delivered.length + 1

theorem sound_empty : (empty : Ledger δ).Sound :=
  ⟨List.nil_prefix, List.forall_mem_nil _, Nat.zero_le _⟩

section Sends

variable {l : Ledger δ} {d : δ} {sent' : List δ}

/-- Whatever is sent is the last of the data sent. -/
theorem Sends.last (h : l.Sends d sent') : ∃ init, sent' = init ++ [d] := by
  cases h with
  | again h => exact List.getLast?_eq_some_iff.mp h
  | next h => exact ⟨l.sent, rfl⟩

theorem Sends.grows (h : l.Sends d sent') : l.sent <+: sent' := by
  cases h with
  | again h => exact List.prefix_rfl
  | next h => exact List.prefix_append _ _

end Sends

namespace Sound

variable {l : Ledger δ} {d : δ} {sent' : List δ}

theorem delivered_le (hl : l.Sound) : l.delivered.length ≤ l.sent.length := by
  have h := hl.prefix_sent.length_le
  rwa [List.length_zipIdx] at h

/-- The datum that arrives is the last one accepted or the first one that is not. -/
theorem length_of_sends (hl : l.Sound) (h : l.Sends d sent') :
    sent'.length = l.delivered.length ∨ sent'.length = l.delivered.length + 1 := by
  have hle := hl.delivered_le
  have hge := hl.sent_le
  cases h with
  | again h => omega
  | next h =>
    rw [List.length_append, List.length_singleton]
    rcases hn : l.sent.length with _ | i
    · omega
    · have hacked := hl.acked_delivered i (h i hn.symm)
      omega

/-- The datum behind all that is delivered can be delivered next. -/
theorem delivered_concat {delivered : List (δ × ℕ)} {init : List δ}
    (h : delivered <+: (init ++ [d]).zipIdx) (hlen : init.length = delivered.length) :
    delivered ++ [(d, init.length)] = (init ++ [d]).zipIdx := by
  have hconcat : (init ++ [d]).zipIdx = init.zipIdx ++ [(d, init.length)] := by
    rw [List.zipIdx_append, Nat.zero_add, List.zipIdx_singleton]
  rw [hconcat] at h ⊢
  have hlen : delivered.length = init.zipIdx.length := by rw [List.length_zipIdx, hlen]
  have hinit := List.prefix_of_prefix_length_le h (List.prefix_append _ _) (Nat.le_of_eq hlen)
  rw [hinit.eq_of_length hlen]

/-- Safe reactions keep the ledger sound. -/
theorem record (hl : l.Sound) (h : l.Sends d sent') {reaction : Reaction}
    (hsafe : Safe l.delivered.length (sent'.length - 1) reaction) :
    (l.record sent' d reaction).Sound := by
  have hlen := hl.length_of_sends h
  have hpre : l.delivered <+: sent'.zipIdx := by
    obtain ⟨rest, rfl⟩ := h.grows
    rw [List.zipIdx_append]
    exact hl.prefix_sent.trans (List.prefix_append _ _)
  cases reaction with
  | accept =>
    obtain ⟨init, rfl⟩ := h.last
    have hsafe : (init ++ [d]).length - 1 = l.delivered.length := hsafe
    rw [List.length_append, List.length_singleton, Nat.add_sub_cancel] at hsafe
    constructor
    · refine ⟨[], ?_⟩
      show (l.delivered ++ [(d, (init ++ [d]).length - 1)]) ++ [] = (init ++ [d]).zipIdx
      rw [List.append_nil, List.length_append, List.length_singleton, Nat.add_sub_cancel]
      exact delivered_concat hpre hsafe
    · intro i hi
      show i < (l.delivered ++ _).length
      rw [List.length_append, List.length_singleton]
      rcases List.mem_append.mp hi with hi | hi
      · exact Nat.lt_succ_of_lt (hl.acked_delivered i hi)
      · rw [List.mem_singleton.mp hi, List.length_append, List.length_singleton]
        omega
    · show (init ++ [d]).length ≤ (l.delivered ++ _).length + 1
      simp only [List.length_append, List.length_singleton]
      omega
  | acknowledge =>
    refine ⟨hpre, ?_, ?_⟩
    · intro i hi
      rcases List.mem_append.mp hi with hi | hi
      · exact hl.acked_delivered i hi
      · rw [List.mem_singleton.mp hi]
        exact hsafe
    · show sent'.length ≤ l.delivered.length + 1
      omega
  | drop =>
    refine ⟨hpre, hl.acked_delivered, ?_⟩
    show sent'.length ≤ l.delivered.length + 1
    omega

/-- No datum is delivered twice. -/
theorem nodup (hl : l.Sound) : (l.delivered.map Prod.snd).Nodup := by
  have hsublist := (hl.prefix_sent.sublist).map Prod.snd
  exact hsublist.nodup (List.nodup_zipIdx_map_snd l.sent)

end Sound

end Ledger

end EmbassyKnx.StopAndWait
