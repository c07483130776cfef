import EmbassyKnx.Common.Octets
import Mathlib.Logic.Function.Basic

/-!
# Values packed into the bits of octets

A field of a table of octets is the bits of a mask; a value is written by
replacing octets that belong to the field alone, and by OR-ing it into the
others. OR-ing does not clear what has been there: a field reads back as the
value written only if the bits set before are set in the value too.

* `decode_write_iff`: when a value that is written is read back.
* `decode_write_of_disjoint`: a write is not seen in the fields that share no bit
  with it.
* `lastWritten_iff`: the sequences of writes in which every field always has the
  last value written to it.
-/

namespace EmbassyKnx

open Octets

/-- A field with values `α` in a table of octets at the positions `I`. -/
structure BitField (I α : Type) where
  InRange : α → Prop
  /-- The bits of the field. -/
  mask : I → UInt8
  /-- The octets that a write replaces. -/
  replaces : I → Bool
  encode : α → I → UInt8
  decode : (I → UInt8) → α
  mask_of_replaces : ∀ i, replaces i = true → mask i = 0xFF
  inRange_decode : ∀ x, InRange (decode x)
  encode_decode : ∀ x i, encode (decode x) i = x i &&& mask i
  decode_encode : ∀ v, InRange v → decode (encode v) = v

namespace BitField

variable {I α β : Type} (F : BitField I α) (G : BitField I β) {v : α} {x : I → UInt8}

/-- The table after a write. -/
def write (v : α) (x : I → UInt8) : I → UInt8 := fun i =>
  if F.replaces i then F.encode v i else x i ||| F.encode v i

/-- The bits of the field that are set, in the octets that are not replaced, are set in `v`. -/
def Admits (v : α) (x : I → UInt8) : Prop :=
  ∀ i, F.replaces i = false → (x i &&& F.mask i) ||| F.encode v i = F.encode v i

/-- The two fields have no bit in common. -/
def Disjoint : Prop := ∀ i, F.mask i &&& G.mask i = 0

variable {F G}

/-- A value has no bits outside its field. -/
theorem encode_mask (hv : F.InRange v) (i : I) : F.encode v i &&& F.mask i = F.encode v i := by
  rw [← F.encode_decode, F.decode_encode v hv]

/-- A field has the value whose bits it holds. -/
theorem decode_eq_iff (hv : F.InRange v) :
    F.decode x = v ↔ ∀ i, x i &&& F.mask i = F.encode v i := by
  constructor
  · rintro rfl i
    exact (F.encode_decode x i).symm
  · intro h
    have hx : F.encode (F.decode x) = F.encode v := by
      funext i
      rw [F.encode_decode, h i]
    rw [← F.decode_encode _ (F.inRange_decode x), hx, F.decode_encode v hv]

theorem decode_congr {y : I → UInt8} (h : ∀ i, x i &&& F.mask i = y i &&& F.mask i) :
    F.decode x = F.decode y := by
  rw [decode_eq_iff (F.inRange_decode y)]
  intro i
  rw [h i, F.encode_decode]

/-- What a write leaves of the bits of its field. -/
theorem write_mask (hv : F.InRange v) (i : I) :
    F.write v x i &&& F.mask i =
      if F.replaces i then F.encode v i else (x i &&& F.mask i) ||| F.encode v i := by
  unfold write
  split_ifs
  · exact encode_mask hv i
  · rw [and_or_distrib_right, encode_mask hv i]

/-- A value that is written is read back iff the field admits it. -/
theorem decode_write_iff (hv : F.InRange v) : F.decode (F.write v x) = v ↔ F.Admits v x := by
  rw [decode_eq_iff hv]
  constructor
  · intro h i hi
    have hbits := h i
    rwa [write_mask hv, if_neg (by simp [hi])] at hbits
  · intro h i
    rw [write_mask hv]
    by_cases hi : F.replaces i = true
    · rw [if_pos hi]
    · rw [if_neg hi]
      exact h i (Bool.eq_false_iff.mpr hi)

/-- A write keeps the bits beside its field. -/
theorem write_beside (hv : F.InRange v) {i : I} {m : UInt8} (hm : F.mask i &&& m = 0) :
    F.write v x i &&& m = x i &&& m := by
  have hencode : F.encode v i &&& m = 0 := by
    rw [← encode_mask hv i, UInt8.and_assoc, hm, UInt8.and_zero]
  unfold write
  split_ifs with hi
  · have hzero : m = 0 := by
      rwa [F.mask_of_replaces i hi, UInt8.and_comm, and_ones] at hm
    rw [hzero, UInt8.and_zero, UInt8.and_zero]
  · rw [and_or_distrib_right, hencode, UInt8.or_zero]

/-- A write is not seen in a field that shares no bit with it. -/
theorem decode_write_of_disjoint (hv : F.InRange v) (h : F.Disjoint G) :
    G.decode (F.write v x) = G.decode x :=
  decode_congr fun i => write_beside hv (h i)

/-! ## Fields of one octet or two -/

/-- A field that lies in one octet. -/
def inOctet [DecidableEq I] (i : I) (mask : UInt8) (replaces : Bool) (InRange : α → Prop)
    (encode : α → UInt8) (decode : UInt8 → α) (hmask : replaces = true → mask = 0xFF)
    (hrange : ∀ x, InRange (decode x)) (hencode : ∀ x, encode (decode x) = x &&& mask)
    (hdecode : ∀ v, InRange v → decode (encode v) = v) : BitField I α where
  InRange := InRange
  mask j := if j = i then mask else 0
  replaces j := decide (j = i) && replaces
  encode v j := if j = i then encode v else 0
  decode x := decode (x i)
  mask_of_replaces j h := by
    rw [Bool.and_eq_true, decide_eq_true_eq] at h
    rw [if_pos h.1, hmask h.2]
  inRange_decode x := hrange (x i)
  encode_decode x j := by
    split_ifs with hj
    · rw [hj, hencode]
    · exact UInt8.and_zero.symm
  decode_encode v hv := by
    show decode (if i = i then encode v else 0) = v
    rw [if_pos rfl, hdecode v hv]

/-- A write to a field of one octet changes that octet. -/
theorem inOctet_write [DecidableEq I] {i : I} {mask : UInt8} {replaces : Bool} {InRange : α → Prop}
    {encode : α → UInt8} {decode : UInt8 → α} {hmask : replaces = true → mask = 0xFF}
    {hrange : ∀ x, InRange (decode x)} {hencode : ∀ x, encode (decode x) = x &&& mask}
    {hdecode : ∀ v, InRange v → decode (encode v) = v} (v : α) (x : I → UInt8) :
    (inOctet i mask replaces InRange encode decode hmask hrange hencode hdecode).write v x =
      Function.update x i (if replaces then encode v else x i ||| encode v) := by
  funext j
  unfold write inOctet
  by_cases hj : j = i
  · subst hj
    simp
  · simp [hj]

/-- A field that lies in two octets. -/
def inPair [DecidableEq I] (i j : I) (hne : i ≠ j) (maskHi maskLo : UInt8) (replaces : Bool)
    (InRange : α → Prop) (hi lo : α → UInt8) (decode : UInt8 → UInt8 → α)
    (hmask : replaces = true → maskHi = 0xFF ∧ maskLo = 0xFF)
    (hrange : ∀ x y, InRange (decode x y))
    (hencode : ∀ x y, hi (decode x y) = x &&& maskHi ∧ lo (decode x y) = y &&& maskLo)
    (hdecode : ∀ v, InRange v → decode (hi v) (lo v) = v) : BitField I α where
  InRange := InRange
  mask k := if k = i then maskHi else if k = j then maskLo else 0
  replaces k := decide (k = i ∨ k = j) && replaces
  encode v k := if k = i then hi v else if k = j then lo v else 0
  decode x := decode (x i) (x j)
  mask_of_replaces k h := by
    rw [Bool.and_eq_true, decide_eq_true_eq] at h
    obtain ⟨hhi, hlo⟩ := hmask h.2
    rcases h.1 with rfl | rfl
    · rw [if_pos rfl, hhi]
    · rw [if_neg hne.symm, if_pos rfl, hlo]
  inRange_decode x := hrange (x i) (x j)
  encode_decode x k := by
    obtain ⟨hhi, hlo⟩ := hencode (x i) (x j)
    split_ifs with hi hj
    · rw [hi, hhi]
    · rw [hj, hlo]
    · exact UInt8.and_zero.symm
  decode_encode v hv := by
    show decode (if i = i then hi v else _) (if j = i then hi v else if j = j then lo v else 0) = v
    rw [if_pos rfl, if_neg hne.symm, if_pos rfl, hdecode v hv]

/-- A write to a field of two octets changes these two. -/
theorem inPair_write [DecidableEq I] {i j : I} {hne : i ≠ j} {maskHi maskLo : UInt8}
    {replaces : Bool} {InRange : α → Prop} {hi lo : α → UInt8} {decode : UInt8 → UInt8 → α}
    {hmask : replaces = true → maskHi = 0xFF ∧ maskLo = 0xFF}
    {hrange : ∀ x y, InRange (decode x y)}
    {hencode : ∀ x y, hi (decode x y) = x &&& maskHi ∧ lo (decode x y) = y &&& maskLo}
    {hdecode : ∀ v, InRange v → decode (hi v) (lo v) = v} (v : α) (x : I → UInt8) :
    (inPair i j hne maskHi maskLo replaces InRange hi lo decode hmask hrange hencode hdecode).write
        v x =
      Function.update (Function.update x i (if replaces then hi v else x i ||| hi v)) j
        (if replaces then lo v else x j ||| lo v) := by
  funext k
  unfold write inPair
  by_cases hj : k = j
  · subst hj
    simp [hne.symm]
  · by_cases hi : k = i
    · subst hi
      simp [hj]
    · simp [hi, hj]

/-! ## Sequences of writes -/

section Sequence

variable {ι : Type} {A : ι → Type} {fields : (a : ι) → BitField I (A a)}

/-- A write to one of a family of fields. -/
structure Write (fields : (a : ι) → BitField I (A a)) where
  field : ι
  value : A field
  inRange : (fields field).InRange value

/-- The table after a write. -/
def Write.apply (c : Write fields) (x : I → UInt8) : I → UInt8 := (fields c.field).write c.value x

/-- The table after a sequence of writes. -/
def applyAll (cs : List (Write fields)) (x : I → UInt8) : I → UInt8 :=
  cs.foldl (fun x c => c.apply x) x

theorem applyAll_append (cs ds : List (Write fields)) (x : I → UInt8) :
    applyAll (cs ++ ds) x = applyAll ds (applyAll cs x) := List.foldl_append

/-- Each write of a sequence is admitted by the table it meets. -/
def Admitted (cs : List (Write fields)) (x : I → UInt8) : Prop :=
  ∀ before c after, cs = before ++ c :: after →
    (fields c.field).Admits c.value (applyAll before x)

/-- At every moment of a sequence, a field has the last value written to it, unless a field that
    shares bits with it has been written since. -/
def LastWritten (cs : List (Write fields)) (x : I → UInt8) : Prop :=
  ∀ before c since after, cs = before ++ c :: (since ++ after) →
    (∀ d ∈ since, (fields d.field).Disjoint (fields c.field)) →
      (fields c.field).decode (applyAll (before ++ c :: since) x) = c.value

/-- A field is as it was while only fields disjoint from it are written. -/
theorem decode_applyAll_of_disjoint {a : ι} (cs : List (Write fields)) (x : I → UInt8)
    (h : ∀ d ∈ cs, (fields d.field).Disjoint (fields a)) :
    (fields a).decode (applyAll cs x) = (fields a).decode x := by
  induction cs generalizing x with
  | nil => rfl
  | cons c cs ih =>
    have hrest := ih (c.apply x) fun d hd => h d (List.mem_cons_of_mem c hd)
    exact hrest.trans (decode_write_of_disjoint c.inRange (h c List.mem_cons_self))

/-- Every field always has the last value written to it iff every write is admitted. -/
theorem lastWritten_iff (cs : List (Write fields)) (x : I → UInt8) :
    LastWritten cs x ↔ Admitted cs x := by
  constructor
  · intro h before c after hcs
    have hlast := h before c [] after hcs (by simp)
    rw [applyAll_append] at hlast
    exact (decode_write_iff c.inRange).mp hlast
  · intro h before c since after hcs hsince
    have hwritten : (fields c.field).decode (c.apply (applyAll before x)) = c.value :=
      (decode_write_iff c.inRange).mpr (h before c _ hcs)
    rw [applyAll_append]
    exact (decode_applyAll_of_disjoint since _ hsince).trans hwritten

end Sequence

end BitField

end EmbassyKnx
