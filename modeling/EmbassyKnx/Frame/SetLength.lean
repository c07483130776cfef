import EmbassyKnx.Frame.Length

/-!
# Frames under `set_length`

A frame from `new(n)` and any number of calls of `set_length` should record one length: the
octet `LG_FIELD`, `length()` and the block agree, a length outside the layout's bounds is
refused, and nothing else in the frame changes. `try_from` depends on it, since
`clone_from_slice` panics when the two lengths differ.

* `setLength_invariant_iff`: for which lengths this is so.
-/

namespace EmbassyKnx

open Rust Heapless Octets FrameLayout FrameReader FrameWriter

/-! ## The property -/

section Property

variable {T : Type} [FrameWriter T]

/-- Apart from the length, `g` has what `f` has where both have octets: the octets behind
    and before `LG_FIELD`, the addresses, and the address type and hop count bits. -/
structure KeepsHeader (f g : T) : Prop where
  octets : ∀ i, i ≠ lgField → i < (data f).length → i < (data g).length →
    octetAt (data g) i = octetAt (data f) i
  srcAddr : srcAddrOf T (data g) = srcAddrOf T (data f)
  dstAddr : dstAddrOf T (data g) = dstAddrOf T (data f)
  hopCount : octetAt (data g) (hopCountField T) >>> 4 = octetAt (data f) (hopCountField T) >>> 4

/-- What `set_length(n)` should do: within the bounds it sets all of the frame's lengths and
    keeps the rest, otherwise it returns `InvalidLength` and keeps the frame; its arithmetic
    stays in range. -/
structure SetsLength (p : Profile) (f : T) (n : ℕ) : Prop where
  inRange : FrameWriter.setLength .dev f n ≠ .error .arithmeticOverflow
  sets : minFrameSize T ≤ n → n ≤ maxFrameSize T → ∃ g,
    FrameWriter.setLength p f n = .ok (g, .ok ()) ∧ (data g).length = n ∧
      (∃ l, length p g = .ok l ∧ l.toNat = n) ∧ KeepsHeader f g
  refuses : ¬(minFrameSize T ≤ n ∧ n ≤ maxFrameSize T) →
    FrameWriter.setLength p f n = .ok (f, .error .invalidLength)

/-- `try_from` copies the frame if and only if a block is free. -/
def Copies (p : Profile) (f : T) : Prop :=
  (∃ g, tryFrom p true f = .ok (.ok g) ∧ data g = data f) ∧ ∀ g, tryFrom p false f ≠ .ok (.ok g)

/-- `set_length` does what it should on each of the lengths, one after the other, and all
    frames on the way can be copied. -/
def LengthInvariant (p : Profile) (f : T) : List ℕ → Prop
  | [] => Copies p f
  | n :: ns => Copies p f ∧ SetsLength p f n ∧
    ∀ g r, FrameWriter.setLength p f n = .ok (g, r) → LengthInvariant p g ns

end Property

/-! ## The condition -/

/-- A length that a standard frame of `l` octets can be given: one that has no bit less in
    its nibble, or one that is refused because it exceeds the block, if `set_length` adds no
    bit to the nibble before it finds out. -/
def StandardStep (l n : ℕ) : Prop :=
  8 ≤ n ∧ n ≤ 23 ∧ (l - 8) ||| (n - 8) = n - 8 ∨
    264 < n ∧ 8 ≤ n % 256 ∧ (l - 8) ||| ((n % 256 - 8) % 16) = l - 8

/-- A length that an extended frame of 9 octets can be given: its own, or one that exceeds
    the block. -/
def ExtendedStep (n : ℕ) : Prop := n = 9 ∨ 264 < n

/-- Each length can be given to the frame of `l` octets that the lengths before it leave. -/
def StandardSteps (l : ℕ) : List ℕ → Prop
  | [] => True
  | n :: ns => StandardStep l n ∧ StandardSteps (if n ≤ 264 then n else l) ns

/-! ## Copying -/

theorem dstAddrOf_congr (T : Type) [FrameLayout T] {d d' : List UInt8}
    (hat : octetAt d' (atField T) >>> 7 = octetAt d (atField T) >>> 7)
    (hword : wordAt d' (dstAddrOffset T) = wordAt d (dstAddrOffset T)) :
    dstAddrOf T d' = dstAddrOf T d := by
  rw [dstAddrOf, hat, hword, dstAddrOf]

/-- Without a block there is no copy. -/
theorem tryFrom_outOfMemory (p : Profile) {T : Type} [FrameWriter T] (f g : T)
    (hnew : ∀ n, (FrameWriter.new p false n : Panicking (FrameResult T)) = .ok (.error .outOfMemory)) :
    tryFrom p false f ≠ .ok (.ok g) := by
  unfold tryFrom
  rcases length p f with why | l
  · simp
  · rw [ok_bind, hnew]
    nofun

/-- A copy into a block of the same length. -/
theorem exists_tryFrom_iff (p : Profile) {T : Type} [FrameWriter T] {f g : T} {l : UInt8}
    (hl : length p f = .ok l) (hnew : FrameWriter.new p true l.toNat = .ok (.ok g))
    (hg : (data g).length = l.toNat) :
    (∃ h : T, tryFrom p true f = .ok (.ok h) ∧ data h = data f) ↔ l.toNat = (data f).length := by
  have hclone : ∀ v : FrameVec, v.toList.length = (data f).length →
      v.cloneFromSlice (data f) = .ok (v.overwrite 0 (data f)) := fun v hv => if_pos hv.symm
  have hsteps : tryFrom p true f =
      (buf g).cloneFromSlice (data f) >>= fun v => .ok (.ok (ofBuf v)) := by
    unfold tryFrom
    rw [hl, ok_bind, hnew]
    rfl
  rw [hsteps]
  by_cases hlen : l.toNat = (data f).length
  · refine iff_of_true ⟨_, by rw [hclone _ (hg.trans hlen)]; rfl, ?_⟩ hlen
    have hcopy : (buf g).toList.length = (data f).length := hg.trans hlen
    rw [data_ofBuf, Vec.toList_overwrite, blit_eq (by omega), List.take_zero, List.nil_append,
      List.drop_of_length_le (by omega), List.append_nil]
  · have hmismatch : (buf g).cloneFromSlice (data f) = .error .sliceLengthMismatch :=
      if_neg fun h => hlen (hg.symm.trans h.symm)
    rw [hmismatch]
    exact iff_of_false (fun ⟨_, h, _⟩ => nomatch h) hlen

/-! ## The standard layout -/

section Standard

variable {p : Profile} {f : StandardFrame} {l n : ℕ}

/-- A frame of up to 24 octets that starts without a length. -/
theorem standard_new_of_lg {lg : UInt8} (h5 : 5 < n) (hn : n ≤ 264) (hlg : standardLg p n = .ok lg) :
    ∃ f, StandardFrame.new p true n = .ok (.ok f) ∧ (data f).length = n ∧
      octetAt (data f) 5 = lg &&& 0xF := by
  obtain ⟨v, hv, hvl⟩ := (Vec.empty : FrameVec).resizeDefault_of_le (n := n) hn
  have hzero : data (⟨v⟩ : StandardFrame) = List.replicate n 0 := by
    show v.toList = _
    rw [hvl, Vec.toList_empty, List.take_nil, List.nil_append, List.length_nil, Nat.sub_zero]
    rfl
  obtain ⟨v₁, hv₁, hset⟩ := standard_setLength_of_lg p (f := ⟨v⟩) (n := n)
    (by rw [hzero, List.length_replicate]; exact h5) hlg
  rw [hzero] at hv₁
  obtain ⟨g, hg, hgd⟩ := resized_of_le (T := StandardFrame) (v := v₁) hn
  have hgl : data g = (List.replicate n 0).modify 5 (· ||| (lg &&& 0xF)) := by
    rw [hgd, hv₁, List.length_modify, List.length_replicate, Nat.sub_self, List.replicate_zero,
      List.append_nil, List.take_of_length_le (by simp)]
  obtain ⟨v₂, hv₂, hl₂⟩ := Vec.modifyAt_of_lt (v := g.buf) (i := 0)
    (by show 0 < (data g).length; rw [hgl, List.length_modify, List.length_replicate]; omega)
    (· ||| 0x90)
  refine ⟨⟨v₂⟩, ?_, ?_, ?_⟩
  · rw [StandardFrame.new, if_pos rfl, hv]
    show (StandardFrame.setLength p ⟨v⟩ n >>= _) = _
    rw [hset, hg, ok_bind]
    show (StandardFrame.setFrameType g >>= _) = _
    rw [StandardFrame.setFrameType, show ctrl = 0 from rfl, hv₂]
    rfl
  · show v₂.toList.length = n
    rw [hl₂, List.length_modify]
    show (data g).length = n
    rw [hgl, List.length_modify, List.length_replicate]
  · show octetAt v₂.toList 5 = _
    rw [hl₂]
    show octetAt ((data g).modify 0 _) 5 = _
    rw [hgl, octetAt_modify _ _ (by simpa using h5), if_neg (by decide),
      octetAt_modify _ _ (by simpa using h5), if_pos rfl, octetAt_eq_getElem (by simpa using h5),
      List.getElem_replicate, UInt8.zero_or]

/-- What a frame that `new` returns looks like. -/
theorem standard_new_ok (h : StandardFrame.new p true n = .ok (.ok f)) : 5 < n ∧ n ≤ 264 ∧
    (data f).length = n ∧ ∃ lg, standardLg p n = .ok lg ∧ octetAt (data f) 5 = lg &&& 0xF := by
  by_cases hn : n ≤ 264
  · rcases hlg : standardLg p n with why | lg
    · obtain ⟨v, hv, -⟩ := (Vec.empty : FrameVec).resizeDefault_of_le (n := n) hn
      rw [StandardFrame.new, if_pos rfl, hv] at h
      change (StandardFrame.setLength p ⟨v⟩ n >>= _) = _ at h
      rw [standard_setLength_steps, hlg] at h
      exact nomatch h
    · by_cases h5 : 5 < n
      · obtain ⟨g, hg, hlen, hoctet⟩ := standard_new_of_lg h5 hn hlg
        rw [hg] at h
        cases h
        exact ⟨h5, hn, hlen, lg, rfl, hoctet⟩
      · obtain ⟨v, hv, hvl⟩ := (Vec.empty : FrameVec).resizeDefault_of_le (n := n) hn
        have hshort : ¬5 < v.toList.length := by
          rw [hvl]
          simpa using h5
        have hmodify : v.modifyAt 5 (· ||| (lg &&& 0xF)) = .error .indexOutOfBounds :=
          if_neg hshort
        rw [StandardFrame.new, if_pos rfl, hv] at h
        change (StandardFrame.setLength p ⟨v⟩ n >>= _) = _ at h
        rw [standard_setLength_steps, hlg, ok_bind, hmodify] at h
        exact nomatch h
  · have hnone : (Vec.empty : FrameVec).resizeDefault n = none := dif_neg hn
    rw [StandardFrame.new, if_pos rfl, hnone] at h
    exact nomatch h

/-- A standard frame can be copied iff its nibble is the length of its block less 8. -/
theorem standard_copies_iff (p : Profile) (h5 : 5 < (data f).length) :
    Copies p f ↔ (octetAt (data f) 5 &&& 0xF).toNat + 8 = (data f).length := by
  have hnibble := nibble_le (octetAt (data f) 5)
  have hl := standard_length_eq p h5
  have hnat := standard_length_toNat (octetAt (data f) 5)
  generalize (octetAt (data f) 5 &&& 0xF) + 7 + 1 = l at hl hnat
  obtain ⟨lg, hlg, -⟩ := standardLg_eq p (n := l.toNat) (by omega)
  obtain ⟨g, hg, hlen, -⟩ := standard_new_of_lg (by omega) (by omega) hlg
  rw [Copies, exists_tryFrom_iff p hl hg hlen, ← hnat]
  apply and_iff_left
  intro g
  exact tryFrom_outOfMemory p f g fun _ => rfl

/-- A standard frame that records the length `l` in both places. -/
structure Recorded (f : StandardFrame) (l : ℕ) : Prop where
  length_eq : (data f).length = l
  low : 8 ≤ l
  high : l ≤ 23
  nibble : (octetAt (data f) 5 &&& 0xF).toNat = l - 8

theorem Recorded.copies (hf : Recorded f l) (p : Profile) : Copies p f := by
  have hlen := hf.length_eq
  have hlow := hf.low
  rw [standard_copies_iff p (by omega), hf.nibble]
  omega

/-- The nibble that `set_length` leaves. -/
theorem nibble_or (x lg : UInt8) :
    ((x ||| (lg &&& 0xF)) &&& 0xF).toNat = (x &&& 0xF).toNat ||| lg.toNat % 16 := by
  have hlow : lg.toNat &&& 15 = lg.toNat % 16 := Nat.and_two_pow_sub_one_eq_mod lg.toNat 4
  have hmod : lg.toNat % 16 &&& 15 = lg.toNat % 16 := by
    rw [Nat.and_two_pow_sub_one_eq_mod _ 4, Nat.mod_mod]
  rw [UInt8.toNat_and, UInt8.toNat_or, UInt8.toNat_and, UInt8.toNat_and]
  show (x.toNat ||| (lg.toNat &&& 15)) &&& 15 = (x.toNat &&& 15) ||| lg.toNat % 16
  rw [Nat.and_or_distrib_right, hlow, hmod]

/-- The upper bits of the octet stay. -/
theorem shiftRight_or_nibble (x lg : UInt8) : (x ||| (lg &&& 0xF)) >>> 4 = x >>> 4 := by
  have hlow : ∀ y : UInt8, (y &&& 0xF) >>> 4 = 0 := forall_octet (by decide +kernel)
  rw [UInt8.shiftRight_or, hlow, UInt8.or_zero]

/-- `set_length` to a length that the block has room for. -/
theorem Recorded.setLength_of_le (hf : Recorded f l) (p : Profile) (hn : n ≤ 264)
    (hmod : 8 ≤ n % 256) : ∃ g, StandardFrame.setLength p f n = .ok (g, .ok ()) ∧
      (data g).length = n ∧ KeepsHeader f g ∧
      (octetAt (data g) 5 &&& 0xF).toNat = (l - 8) ||| (n % 256 - 8) % 16 := by
  have hlen := hf.length_eq
  have hlow := hf.low
  obtain ⟨lg, hlg, hnat⟩ := standardLg_eq p hmod
  obtain ⟨v, hv, hset⟩ := standard_setLength_of_lg p (f := f) (by omega) hlg
  obtain ⟨g, hg, hdata⟩ := resized_of_le (T := StandardFrame) (v := v) hn
  have hvl : v.toList.length = l := by rw [hv, List.length_modify, hlen]
  have hoctet : ∀ i, i < l → i < n →
      octetAt (data g) i = if 5 = i then octetAt (data f) i ||| (lg &&& 0xF) else octetAt (data f) i := by
    intro i hil hin
    rw [hdata, octetAt_take_append hin (by omega), hv, octetAt_modify _ _ (by omega)]
  have hkeep : ∀ i, i ≠ 5 → i < l → i < n → octetAt (data g) i = octetAt (data f) i := by
    intro i hi hil hin
    rw [hoctet i hil hin, if_neg (Ne.symm hi)]
  have h8 : 8 ≤ n := Nat.le_trans hmod (Nat.mod_le _ _)
  have hfive : octetAt (data g) 5 = octetAt (data f) 5 ||| (lg &&& 0xF) := by
    rw [hoctet 5 (by omega) (by omega), if_pos rfl]
  have hgl : (data g).length = n := by
    rw [hdata, List.length_append, List.length_take, List.length_replicate]
    omega
  refine ⟨g, by rw [hset, hg], hgl, ?_, ?_⟩
  · constructor
    · intro i hi hif hig
      exact hkeep i hi (by omega) (by omega)
    · show IndividualAddress.mk (wordAt (data g) 1) = ⟨wordAt (data f) 1⟩
      rw [wordAt, hkeep 1 (by decide) (by omega) (by omega), hkeep 2 (by decide) (by omega) (by omega),
        ← wordAt]
    · have hat : octetAt (data g) 5 >>> 7 = octetAt (data f) 5 >>> 7 := by
        have hshift : ∀ x : UInt8, x >>> 7 = x >>> 4 >>> 3 := forall_octet (by decide +kernel)
        rw [hshift, hfive, shiftRight_or_nibble, ← hshift]
      have hword : wordAt (data g) 3 = wordAt (data f) 3 := by
        rw [wordAt, hkeep 3 (by decide) (by omega) (by omega),
          hkeep 4 (by decide) (by omega) (by omega), ← wordAt]
      exact dstAddrOf_congr StandardFrame hat hword
    · show octetAt (data g) 5 >>> 4 = _
      rw [hfive, shiftRight_or_nibble]
      rfl
  · rw [hfive, nibble_or, hf.nibble, hnat]

/-- `set_length` to a length beyond the block returns the error with the nibble written. -/
theorem Recorded.setLength_of_gt (hf : Recorded f l) (p : Profile) (hn : 264 < n)
    (hmod : 8 ≤ n % 256) : ∃ g, StandardFrame.setLength p f n = .ok (g, .error .invalidLength) ∧
      (g = f ↔ (l - 8) ||| (n % 256 - 8) % 16 = l - 8) := by
  have hlen := hf.length_eq
  have hlow := hf.low
  obtain ⟨lg, hlg, hnat⟩ := standardLg_eq p hmod
  obtain ⟨v, hv, hset⟩ := standard_setLength_of_lg p (f := f) (by omega) hlg
  refine ⟨⟨v⟩, by rw [hset, resized_of_gt hn]; rfl, ?_⟩
  have hsame : (⟨v⟩ : StandardFrame) = f ↔ v.toList = data f := by
    constructor
    · rintro rfl
      rfl
    · intro h
      exact congrArg StandardFrame.mk (Vec.ext h)
  rw [hsame, hv, modify_eq_self_iff (by omega), ← hf.nibble, ← hnat, ← nibble_or]
  constructor
  · intro h
    rw [h]
  · intro h
    have hsplit : ∀ x : UInt8, x = (x >>> 4) <<< 4 ||| (x &&& 0xF) := forall_octet (by decide +kernel)
    rw [hsplit (octetAt (data f) 5 ||| (lg &&& 0xF)), shiftRight_or_nibble, UInt8.toNat_inj.mp h,
      ← hsplit]

/-- With `u8` arithmetic in range, `set_length` gives the frame a length within its block iff
    that length is recorded. -/
theorem Recorded.setsLength_of_le (hf : Recorded f l) (p : Profile) (hn : n ≤ 264)
    (hmod : 8 ≤ n % 256) : SetsLength p f n ↔ n ≤ 23 ∧ (l - 8) ||| (n - 8) = n - 8 := by
  have hlow := hf.low
  have hhigh := hf.high
  have h8 : 8 ≤ n := Nat.le_trans hmod (Nat.mod_le _ _)
  obtain ⟨g, hg, hlen, hkeeps, hnibble⟩ := hf.setLength_of_le p hn hmod
  have hl := standard_length_eq p (f := g) (by omega)
  have hnat := standard_length_toNat (octetAt (data g) 5)
  rw [hnibble] at hnat
  constructor
  · intro h
    by_cases hmax : n ≤ 24
    · obtain ⟨g', hg', -, ⟨len, hlen', hlenNat⟩, -⟩ := h.sets h8 hmax
      rw [show FrameWriter.setLength p f n = _ from hg] at hg'
      cases hg'
      rw [hl] at hlen'
      cases hlen'
      rw [hnat, Nat.mod_eq_of_lt (by omega : n < 256)] at hlenNat
      have hne : n ≠ 24 := by
        rintro rfl
        rw [Nat.or_zero] at hlenNat
        omega
      rw [Nat.mod_eq_of_lt (by omega)] at hlenNat
      omega
    · have hrefused := h.refuses fun hbounds => hmax hbounds.2
      rw [show FrameWriter.setLength p f n = _ from hg] at hrefused
      cases hrefused
  · rintro ⟨hmax, hor⟩
    rw [Nat.mod_eq_of_lt (by omega : n < 256), Nat.mod_eq_of_lt (by omega : n - 8 < 16), hor] at hnat
    constructor
    · obtain ⟨g', hg', -⟩ := hf.setLength_of_le .dev hn hmod
      rw [show FrameWriter.setLength .dev f n = _ from hg']
      nofun
    · intro _ _
      exact ⟨g, hg, hlen, ⟨_, hl, by rw [hnat]; omega⟩, hkeeps⟩
    · intro hbounds
      apply absurd _ hbounds
      show 8 ≤ n ∧ n ≤ 24
      omega

/-- A length beyond the block is refused iff the nibble does not change. -/
theorem Recorded.setsLength_of_gt (hf : Recorded f l) (p : Profile) (hn : 264 < n)
    (hmod : 8 ≤ n % 256) : SetsLength p f n ↔ (l - 8) ||| (n % 256 - 8) % 16 = l - 8 := by
  obtain ⟨g, hg, hsame⟩ := hf.setLength_of_gt p hn hmod
  have hbounds : ¬(minFrameSize StandardFrame ≤ n ∧ n ≤ maxFrameSize StandardFrame) := by
    show ¬(8 ≤ n ∧ n ≤ 24)
    omega
  rw [← hsame]
  constructor
  · intro h
    have hrefused := h.refuses hbounds
    rw [show FrameWriter.setLength p f n = _ from hg] at hrefused
    cases hrefused
    rfl
  · intro heq
    rw [heq] at hg
    constructor
    · obtain ⟨g', hg', -⟩ := hf.setLength_of_gt .dev hn hmod
      rw [show FrameWriter.setLength .dev f n = _ from hg']
      nofun
    · intro hmin hmax
      exact absurd ⟨hmin, hmax⟩ hbounds
    · intro _
      exact hg

/-- `set_length` does what it should on exactly the lengths of `StandardStep`. -/
theorem Recorded.setsLength_iff (hf : Recorded f l) (p : Profile) :
    SetsLength p f n ↔ StandardStep l n := by
  unfold StandardStep
  by_cases hmod : 8 ≤ n % 256
  · by_cases hn : n ≤ 264
    · rw [hf.setsLength_of_le p hn hmod]
      omega
    · rw [hf.setsLength_of_gt p (Nat.lt_of_not_le hn) hmod]
      omega
  · apply iff_of_false
    · intro h
      apply h.inRange
      show StandardFrame.setLength .dev f n = _
      rw [standard_setLength_steps, standardLg_overflow (Nat.lt_of_not_le hmod)]
      rfl
    · omega

theorem Recorded.exists_setLength (hf : Recorded f l) (p : Profile) (hstep : StandardStep l n) :
    ∃ g r, StandardFrame.setLength p f n = .ok (g, r) := by
  have hlow := hf.low
  have hmod : 8 ≤ n % 256 := by
    unfold StandardStep at hstep
    omega
  obtain ⟨lg, hlg, -⟩ := standardLg_eq p hmod
  obtain ⟨v, -, hset⟩ := standard_setLength_of_lg p (f := f) (by rw [hf.length_eq]; omega) hlg
  exact ⟨_, _, hset⟩

/-- The length that such a step records. -/
theorem Recorded.after (hf : Recorded f l) (p : Profile) (hstep : StandardStep l n)
    {g : StandardFrame} {r : FrameResult Unit} (h : StandardFrame.setLength p f n = .ok (g, r)) :
    Recorded g (if n ≤ 264 then n else l) := by
  have hlow := hf.low
  have hhigh := hf.high
  unfold StandardStep at hstep
  by_cases hn : n ≤ 264
  · obtain ⟨h8, h23, hor⟩ : 8 ≤ n ∧ n ≤ 23 ∧ (l - 8) ||| (n - 8) = n - 8 := by omega
    obtain ⟨g', hg', hlen, -, hnibble⟩ := hf.setLength_of_le p hn (by omega)
    rw [hg'] at h
    cases h
    rw [if_pos hn]
    rw [Nat.mod_eq_of_lt (by omega : n < 256), Nat.mod_eq_of_lt (by omega : n - 8 < 16), hor]
      at hnibble
    exact ⟨hlen, h8, h23, hnibble⟩
  · obtain ⟨hgt, hmod, hor⟩ :
        264 < n ∧ 8 ≤ n % 256 ∧ (l - 8) ||| ((n % 256 - 8) % 16) = l - 8 := by omega
    obtain ⟨g', hg', hsame⟩ := hf.setLength_of_gt p hgt hmod
    rw [hg'] at h
    cases h
    rw [if_neg hn, hsame.mpr hor]
    exact hf

theorem Recorded.lengthInvariant_iff (hf : Recorded f l) (p : Profile) (ns : List ℕ) :
    LengthInvariant p f ns ↔ StandardSteps l ns := by
  induction ns generalizing f l with
  | nil => exact iff_of_true (hf.copies p) trivial
  | cons n ns ih =>
    rw [LengthInvariant, StandardSteps, and_iff_right (hf.copies p), hf.setsLength_iff p]
    apply and_congr_right
    intro hstep
    constructor
    · intro h
      obtain ⟨g, r, hg⟩ := hf.exists_setLength p hstep
      exact (ih (hf.after p hstep hg)).mp (h g r hg)
    · intro h g r hg
      exact (ih (hf.after p hstep hg)).mpr h

/-- A frame that `new` returns records its length iff this fits the nibble. -/
theorem standard_new_recorded (h : StandardFrame.new p true n = .ok (.ok f)) :
    Copies p f ↔ Recorded f n := by
  obtain ⟨h5, hn, hlen, lg, hlg, hoctet⟩ := standard_new_ok h
  rw [standard_copies_iff p (by omega), hlen]
  constructor
  · intro heq
    have hnibble := nibble_le (octetAt (data f) 5)
    exact ⟨hlen, by omega, by omega, by omega⟩
  · intro hf
    have hlow := hf.low
    rw [hf.nibble]
    omega

theorem LengthInvariant.copies {T : Type} [FrameWriter T] {p : Profile} {f : T} {ns : List ℕ}
    (h : LengthInvariant p f ns) : Copies p f := by
  cases ns with
  | nil => exact h
  | cons n ns => exact h.1

theorem standard_lengthInvariant_iff (p : Profile) (h : StandardFrame.new p true n = .ok (.ok f))
    (ns : List ℕ) : LengthInvariant p f ns ↔ (8 ≤ n ∧ n ≤ 23) ∧ StandardSteps n ns := by
  constructor
  · intro hinv
    have hf := (standard_new_recorded h).mp hinv.copies
    exact ⟨⟨hf.low, hf.high⟩, (hf.lengthInvariant_iff p ns).mp hinv⟩
  · rintro ⟨⟨hlow, hhigh⟩, hsteps⟩
    obtain ⟨h5, hn, hlen, lg, hlg, hoctet⟩ := standard_new_ok h
    obtain ⟨lg', hlg', hnat⟩ := standardLg_eq p (n := n) (by omega)
    rw [hlg'] at hlg
    cases hlg
    have hnibble : (octetAt (data f) 5 &&& 0xF).toNat = n - 8 := by
      have hor := nibble_or 0 lg
      rw [UInt8.zero_or, ← hoctet] at hor
      rw [hor, UInt8.zero_and]
      show 0 ||| lg.toNat % 16 = n - 8
      rw [Nat.zero_or]
      omega
    exact (Recorded.lengthInvariant_iff ⟨hlen, hlow, hhigh, hnibble⟩ p ns).mpr hsteps

end Standard

/-! ## The extended layout -/

section Extended

variable {p : Profile} {f : ExtendedFrame} {n : ℕ}

theorem extended_new_eq (p : Profile) (hn : n ≤ 264) : ∃ f, ExtendedFrame.new p true n = .ok (.ok f) ∧
    data f = List.replicate n 0 := by
  obtain ⟨v, hv, hvl⟩ := (Vec.empty : FrameVec).resizeDefault_of_le (n := n) hn
  refine ⟨⟨v⟩, by rw [ExtendedFrame.new, if_pos rfl, hv]; rfl, ?_⟩
  show v.toList = _
  rw [hvl, Vec.toList_empty, List.take_nil, List.nil_append, List.length_nil, Nat.sub_zero]
  rfl

/-- A new extended frame is zero: nothing is written to it. -/
theorem extended_new_ok (h : ExtendedFrame.new p true n = .ok (.ok f)) :
    n ≤ 264 ∧ data f = List.replicate n 0 := by
  by_cases hn : n ≤ 264
  · obtain ⟨g, hg, hdata⟩ := extended_new_eq p hn
    rw [hg] at h
    cases h
    exact ⟨hn, hdata⟩
  · have hnone : (Vec.empty : FrameVec).resizeDefault n = none := dif_neg hn
    rw [ExtendedFrame.new, if_pos rfl, hnone] at h
    exact nomatch h

/-- `length()` of a zero frame is 9, so only one of 9 octets can be copied. -/
theorem extended_copies_iff (p : Profile) (hf : data f = List.replicate n 0) :
    Copies p f ↔ n = 9 := by
  have hlen : (data f).length = n := by rw [hf, List.length_replicate]
  have hcopy : (∃ g, tryFrom p true f = .ok (.ok g) ∧ data g = data f) ↔ n = 9 := by
    by_cases h5 : 5 < n
    · have hzero : octetAt (data f) 5 = 0 := by
        rw [octetAt_eq_getElem (by omega)]
        simp [hf]
      obtain ⟨l, hl, hnat⟩ := extended_length_of_le p (f := f) (by omega) (by rw [hzero]; decide)
      rw [hzero] at hnat
      change l.toNat = 9 at hnat
      obtain ⟨g, hg, hdata⟩ := extended_new_eq p (n := l.toNat) (by omega)
      rw [exists_tryFrom_iff p hl hg (by rw [hdata, List.length_replicate]), hlen, hnat, eq_comm]
    · have hl : length p f = .error .indexOutOfBounds := by
        have hindex : index (data f) 5 = .error .indexOutOfBounds := by
          rw [hf]
          simp [index, h5]
        change (do
          let lg ← index (data f) 5
          u8Add p (← u8Add p lg 8) 1) = _
        rw [hindex]
        rfl
      apply iff_of_false
      · rintro ⟨g, hg, -⟩
        rw [tryFrom, hl] at hg
        cases hg
      · omega
  rw [Copies, hcopy]
  apply and_iff_left
  intro g
  exact tryFrom_outOfMemory p f g fun _ => rfl

/-- On a zero frame of 9 octets `set_length` writes the length that is there. -/
theorem blank_setLength (p : Profile) (hf : data f = List.replicate 9 0) (n : ℕ) :
    ExtendedFrame.setLength p f n = .ok (resized f.buf n) := by
  have hlen : (data f).length = 9 := by rw [hf]; rfl
  have hlg : extendedLg p (data f).length = .ok 0 := by rw [hlen]; cases p <;> rfl
  obtain ⟨v, hv, hset⟩ := extended_setLength_of_lg p (n := n) (by omega) hlg
  have hsame : v = f.buf := by
    apply Vec.ext
    rw [hv, hf]
    exact hf.symm
  rw [hset, hsame]

theorem blank_inRange (hf : data f = List.replicate 9 0) (n : ℕ) :
    FrameWriter.setLength .dev f n ≠ .error .arithmeticOverflow := by
  show ExtendedFrame.setLength .dev f n ≠ _
  rw [blank_setLength .dev hf n]
  nofun

theorem blank_resized (hf : data f = List.replicate 9 0) :
    (resized f.buf 9 : ExtendedFrame × FrameResult Unit) = (f, .ok ()) := by
  have hbl : f.buf.toList = List.replicate 9 0 := hf
  obtain ⟨g, hg, hdata⟩ := resized_of_le (T := ExtendedFrame) (v := f.buf) (n := 9) (by decide)
  rw [hbl] at hdata
  have hsame : g = f := congrArg ExtendedFrame.mk (Vec.ext (hdata.trans hbl.symm))
  rw [hg, hsame]

/-- The frame keeps recording 9 octets, so it can be given no other length of the layout. -/
theorem blank_setsLength_iff (p : Profile) (hf : data f = List.replicate 9 0) :
    SetsLength p f n ↔ ExtendedStep n := by
  have hset := blank_setLength p hf n
  have hinRange := blank_inRange hf n
  have hbl : f.buf.toList = List.replicate 9 0 := hf
  unfold ExtendedStep
  by_cases hn : n ≤ 264
  · obtain ⟨g, hg, hdata⟩ := resized_of_le (T := ExtendedFrame) (v := f.buf) hn
    rw [hg] at hset
    rw [hbl, List.length_replicate, List.take_replicate] at hdata
    constructor
    · intro h
      by_cases hbounds : 9 ≤ n ∧ n ≤ 263
      · obtain ⟨g', hg', hlen, ⟨l, hl, hnat⟩, -⟩ := h.sets hbounds.1 hbounds.2
        rw [show FrameWriter.setLength p f n = _ from hset] at hg'
        cases hg'
        have hzero : octetAt (data g) 5 = 0 := by
          rw [hdata, octetAt_append_left (by simp; omega), octetAt_eq_getElem (by simp; omega),
            List.getElem_replicate]
        obtain ⟨l', hl', hnat'⟩ := extended_length_of_le p (f := g) (by omega) (by rw [hzero]; decide)
        rw [hl] at hl'
        cases hl'
        rw [hzero, hnat] at hnat'
        exact .inl hnat'
      · have hrefused := h.refuses hbounds
        rw [show FrameWriter.setLength p f n = _ from hset] at hrefused
        cases hrefused
    · intro h
      obtain rfl : n = 9 := by omega
      rw [← hg, blank_resized hf] at hset
      constructor
      · exact hinRange
      · intro _ _
        have hlen : (data f).length = 9 := by rw [hf]; rfl
        have hzero : octetAt (data f) 5 = 0 := by rw [hf]; rfl
        obtain ⟨l, hl, hnat⟩ := extended_length_of_le p (f := f) (by omega) (by rw [hzero]; decide)
        rw [hzero] at hnat
        exact ⟨f, hset, hlen, ⟨l, hl, hnat⟩, ⟨fun _ _ _ _ => rfl, rfl, rfl, rfl⟩⟩
      · intro hbounds
        exact absurd (by decide) hbounds
  · rw [resized_of_gt (Nat.lt_of_not_le hn)] at hset
    refine iff_of_true ?_ (.inr (Nat.lt_of_not_le hn))
    constructor
    · exact hinRange
    · intro _ hmax
      have hmax : n ≤ 263 := hmax
      omega
    · intro _
      exact hset

theorem blank_lengthInvariant_iff (p : Profile) (hf : data f = List.replicate 9 0) (ns : List ℕ) :
    LengthInvariant p f ns ↔ ∀ n ∈ ns, ExtendedStep n := by
  have hcopies := (extended_copies_iff p hf).mpr rfl
  induction ns with
  | nil => exact iff_of_true hcopies (List.forall_mem_nil _)
  | cons n ns ih =>
    rw [LengthInvariant, List.forall_mem_cons, and_iff_right hcopies, blank_setsLength_iff p hf]
    apply and_congr_right
    intro hstep
    -- whatever the step, it leaves the frame it finds
    have hsame : ∃ r, ExtendedFrame.setLength p f n = .ok (f, r) := by
      rcases hstep with rfl | hgt
      · exact ⟨_, (blank_setLength p hf 9).trans (by rw [blank_resized hf])⟩
      · exact ⟨_, (blank_setLength p hf n).trans (by rw [resized_of_gt hgt]; rfl)⟩
    obtain ⟨r, hr⟩ := hsame
    apply Iff.trans _ ih
    constructor
    · intro h
      exact h f r hr
    · intro h g r' hg
      rw [show FrameWriter.setLength p f n = _ from hr] at hg
      cases hg
      exact h

theorem extended_lengthInvariant_iff (p : Profile) (h : ExtendedFrame.new p true n = .ok (.ok f))
    (ns : List ℕ) : LengthInvariant p f ns ↔ n = 9 ∧ ∀ n ∈ ns, ExtendedStep n := by
  obtain ⟨-, hf⟩ := extended_new_ok h
  constructor
  · intro hinv
    obtain rfl := (extended_copies_iff p hf).mp hinv.copies
    exact ⟨rfl, (blank_lengthInvariant_iff p hf ns).mp hinv⟩
  · rintro ⟨rfl, hsteps⟩
    exact (blank_lengthInvariant_iff p hf ns).mpr hsteps

end Extended

/-! ## Both layouts -/

/-- A frame from `new` keeps one length under any calls of `set_length` if and only if every
    length can be given to it. -/
theorem setLength_invariant_iff (p : Profile) (n : ℕ) (ns : List ℕ) :
    (∀ f : StandardFrame, FrameWriter.new p true n = .ok (.ok f) →
        (LengthInvariant p f ns ↔ (8 ≤ n ∧ n ≤ 23) ∧ StandardSteps n ns)) ∧
      ∀ f : ExtendedFrame, FrameWriter.new p true n = .ok (.ok f) →
        (LengthInvariant p f ns ↔ n = 9 ∧ ∀ m ∈ ns, ExtendedStep m) := by
  constructor
  · intro f h
    exact standard_lengthInvariant_iff p h ns
  · intro f h
    exact extended_lengthInvariant_iff p h ns

/-- A standard frame of 12 octets. -/
def frame12 : StandardFrame :=
  ⟨⟨[0x90, 0, 0, 0, 0, 4, 0, 0, 0, 0, 0, 0], by decide⟩⟩

/-- A standard frame of 12 octets grows to 14, and a length of 300 is refused; an extended
    frame of 9 octets keeps its length. -/
theorem setLength_invariant_iff_frame12 :
    (LengthInvariant .dev frame12 [14, 300] ↔ (8 ≤ 12 ∧ 12 ≤ 23) ∧ StandardSteps 12 [14, 300]) ∧
      (LengthInvariant .dev (⟨⟨List.replicate 9 0, by decide⟩⟩ : ExtendedFrame) [9, 300] ↔
        9 = 9 ∧ ∀ m ∈ [9, 300], ExtendedStep m) :=
  ⟨(setLength_invariant_iff .dev 12 [14, 300]).1 frame12 (by rfl),
    (setLength_invariant_iff .dev 9 [9, 300]).2 _ (by rfl)⟩

/-- A standard frame of 14 octets. -/
def frame14 : StandardFrame :=
  ⟨⟨[0x90, 0, 0, 0, 0, 6, 0, 0, 0, 0, 0, 0, 0, 0], by decide⟩⟩

/-- What `set_length(11)` makes of it. -/
def frame14To11 : StandardFrame :=
  ⟨⟨[0x90, 0, 0, 0, 0, 7, 0, 0, 0, 0, 0], by decide⟩⟩

/-- Cut from 14 to 11 octets, a standard frame says that it has 15, and `try_from` panics; an
    extended frame that grows from 20 to 30 octets says that it has 20. -/
theorem setLength_records_other :
    FrameWriter.new .dev true 14 = .ok (.ok frame14) ∧
      FrameWriter.setLength .dev frame14 11 = .ok (frame14To11, .ok ()) ∧
      length .dev frame14To11 = .ok 15 ∧
      tryFrom .dev true frame14To11 = .error .sliceLengthMismatch ∧
      ¬LengthInvariant .dev frame14 [11] ∧
      ∃ f g : ExtendedFrame, FrameWriter.new .dev true 20 = .ok (.ok f) ∧
        FrameWriter.setLength .dev f 30 = .ok (g, .ok ()) ∧ (data g).length = 30 ∧
        length .dev g = .ok 20 := by
  have hset : FrameWriter.setLength .dev frame14 11 = .ok (frame14To11, .ok ()) := by rfl
  have hcopy : tryFrom .dev true frame14To11 = .error .sliceLengthMismatch := by rfl
  refine ⟨by rfl, hset, by rfl, hcopy, ?_, _, _, by rfl, by rfl, by rfl, by rfl⟩
  intro h
  obtain ⟨-, -, hnext⟩ := h
  obtain ⟨⟨g, hg, -⟩, -⟩ := hnext _ _ hset
  rw [hcopy] at hg
  exact nomatch hg

end EmbassyKnx
