import EmbassyKnx.Driver.Model
import EmbassyKnx.Frame.DataPoint
import EmbassyKnx.Frame.SetLength

/-!
# Frames for values of any size

The length of a data point says how many octets of its own its value has; a value of fewer
than six bits has none and shares the octet of the APCI. `from_datapoint` should hand `write`
exactly the octets of the value, in a frame whose layout, length and control octet fit it.
The slice it hands over is the last octet of the value alone, and an extended frame has no
control octet and not the length that it records.

* `fromValue_slice`: the slice that `write` gets.
* `fromValue_laysOut_iff`: the lengths for which all values are laid out.
-/

namespace EmbassyKnx

open Rust Heapless Octets FrameLayout FrameReader Driver

/-- The octets a value of this length has of its own. -/
def DataPointLength.size : DataPointLength → ℕ
  | .bit n => if n < 6 then 0 else 1
  | .byte n => n

/-- A data point of any kind: its length, and a `write` that can fill the octets of such a
    length. A slice keeps its length when it is written to. -/
structure Value where
  length : DataPointLength
  write : List UInt8 → Panicking (List UInt8)
  write_length : ∀ s t, write s = .ok t → t.length = s.length
  write_ok : ∀ s, s.length = max 1 length.size → ∃ t, write s = .ok t

instance : DataPointAccess Value where
  length := Value.length
  write := Value.write

theorem Value.byteLength_eq (d : Value) : DataPointAccess.byteLength d = d.length.size := rfl

/-! ## The property -/

/-- Where the octets for a value of `size` octets start: at the octet of the APCI, or behind
    it. -/
def valueOffset (T : Type) [FrameLayout T] (size : ℕ) : ℕ :=
  if size = 0 then apciOffset T + 1 else apciOffset T + 2

/-- The frame `f` of the layout with frame type `start` holds the value: `write` has filled
    its octets, the placeholder of the checksum is behind them and the frame ends there. -/
structure LaysOut {T : Type} [FrameReader T] (p : Profile) (start : UInt8) (d : Value) (f : T) :
    Prop where
  value : ∃ octets, d.write (List.replicate (max 1 d.length.size) 0) = .ok octets ∧
    ((data f).drop (valueOffset T d.length.size)).take (max 1 d.length.size) = octets
  placeholder : octetAt (data f) (valueOffset T d.length.size + max 1 d.length.size) = 0
  size : (data f).length = valueOffset T d.length.size + max 1 d.length.size + 1
  length : ∃ l, FrameReader.length p f = .ok l ∧ l.toNat = (data f).length
  start : isFrameStart (octetAt (data f) 0) = true ∧ octetAt (data f) 0 &&& frameTypeMask = start

/-- `Frame::from_datapoint` builds the frame of a value without leaving the range of an
    integer: a standard one for up to 14 octets and an extended one for more. -/
structure Builds (p : Profile) (d : Value) : Prop where
  inRange : ∃ r, Frame.fromValue .dev true d = .ok r
  standard : d.length.size ≤ 14 → ∃ f : StandardFrame,
    Frame.fromValue p true d = .ok (.ok (.standard f)) ∧ LaysOut p frameTypeStd d f
  extended : 14 < d.length.size → ∃ f : ExtendedFrame,
    Frame.fromValue p true d = .ok (.ok (.extended f)) ∧ LaysOut p frameTypeExt d f

/-! ## Values of at most one octet -/

/-- A value of no octet or one is written into a standard frame. -/
theorem fromValue_short (p : Profile) (d : Value) (hsize : d.length.size ≤ 1) :
    ∃ (f : StandardFrame) (x : UInt8), d.write [0] = .ok [x] ∧
      Frame.fromValue p true d = .ok (.ok (.standard f)) ∧
      data f = [0x90, 0, 0, 0, 0, UInt8.ofNat (d.length.size + 1), 0] ++
        List.replicate d.length.size 0 ++ [x, 0] := by
  obtain ⟨octets, hwrite⟩ := d.write_ok [0] (by rw [Nat.max_eq_left hsize]; rfl)
  obtain ⟨x, rfl⟩ := List.length_eq_one_iff.mp (d.write_length _ _ hwrite)
  have hframe : ∀ {buf : FrameVec} {f : StandardFrame},
      emptyFrame.buf.writeSlice (7 + d.length.size) (8 + d.length.size) d.write = .ok buf →
      StandardFrame.setLength p ⟨buf⟩ (9 + d.length.size) = .ok (f, .ok ()) →
      Frame.fromValue p true d = .ok (.ok (.standard f)) := by
    intro buf f hslice hlength
    have hstandard : FrameWriter.fromValue StandardFrame p true d = .ok (.ok f) :=
      fromValue_of_steps hslice hlength
    rw [Frame.fromValue, d.byteLength_eq, if_neg (by omega), hstandard]
    rfl
  have hwritten : ∀ i, slice emptyFrame.buf.toList i (i + 1) = .ok [0] →
      emptyFrame.buf.writeSlice i (i + 1) d.write = .ok (emptyFrame.buf.overwrite i [x]) := by
    intro i hi
    rw [Vec.writeSlice, hi, ok_bind, hwrite]
    rfl
  obtain hzero | hone : d.length.size = 0 ∨ d.length.size = 1 := by omega
  · rw [hzero] at hframe ⊢
    have hlength : StandardFrame.setLength p ⟨emptyFrame.buf.overwrite 7 [x]⟩ 9 =
        .ok (⟨⟨[0x90, 0, 0, 0, 0, 1, 0, x, 0], by simp [maxBlockSize]⟩⟩, .ok ()) := by
      cases p <;> rfl
    exact ⟨_, x, hwrite, hframe (hwritten 7 rfl) hlength, rfl⟩
  · rw [hone] at hframe ⊢
    have hlength : StandardFrame.setLength p ⟨emptyFrame.buf.overwrite 8 [x]⟩ 10 =
        .ok (⟨⟨[0x90, 0, 0, 0, 0, 2, 0, 0, x, 0], by simp [maxBlockSize]⟩⟩, .ok ()) := by
      cases p <;> rfl
    exact ⟨_, x, hwrite, hframe (hwritten 8 rfl) hlength, rfl⟩

theorem builds_of_short (p : Profile) (d : Value) (hsize : d.length.size ≤ 1) : Builds p d := by
  obtain ⟨f, x, hwrite, hframe, hdata⟩ := fromValue_short p d hsize
  obtain ⟨g, -, -, hdev, -⟩ := fromValue_short .dev d hsize
  have hlaysOut : LaysOut p frameTypeStd d f := by
    have hwidth : max 1 d.length.size = 1 := Nat.max_eq_left hsize
    have hlen : (data f).length = d.length.size + 9 := by
      rw [hdata]
      simp only [List.length_append, List.length_replicate, List.length_cons, List.length_nil]
      omega
    have hhead : octetAt (data f) 0 = 0x90 := by rw [hdata]; rfl
    have hlg : octetAt (data f) 5 = UInt8.ofNat (d.length.size + 1) := by rw [hdata]; rfl
    have hnibble : ∀ n ≤ 1, (UInt8.ofNat (n + 1) &&& 0x0F).toNat + 8 = n + 9 := by decide
    have hoffset : valueOffset StandardFrame d.length.size = d.length.size + 7 := by
      unfold valueOffset
      split_ifs with hzero
      · rw [hzero]; rfl
      · show 8 = _
        omega
    rw [List.append_assoc] at hdata
    have hvalue : (data f).drop (d.length.size + 7) = [x, 0] := by
      rw [hdata, ← List.append_assoc, List.drop_left' (by simp)]
    constructor
    · refine ⟨[x], by rw [hwidth]; exact hwrite, ?_⟩
      rw [hoffset, hwidth, hvalue]
      rfl
    · rw [hoffset, hwidth, ← octetAt_drop, hvalue]
      rfl
    · rw [hoffset, hwidth, hlen]
    · refine ⟨_, standard_length_eq p (by omega), ?_⟩
      rw [standard_length_toNat, hlg, hnibble _ hsize, hlen]
    · rw [hhead]
      decide
  constructor
  · exact ⟨_, hdev⟩
  · intro _
    exact ⟨f, hframe, hlaysOut⟩
  · omega

/-! ## Values of more octets -/

/-- Writing to a slice leaves the octets in front of it alone. -/
theorem octetAt_writeSlice {v w : FrameVec} {lo hi : ℕ} {write : List UInt8 → Panicking (List UInt8)}
    (hwrite : ∀ s t, write s = .ok t → t.length = s.length) (h : v.writeSlice lo hi write = .ok w)
    {i : ℕ} (hi' : i < lo) : octetAt w.toList i = octetAt v.toList i ∧ i < w.toList.length := by
  obtain ⟨s, hs, h⟩ := (bind_eq_ok_iff _).mp h
  obtain ⟨t, ht, h⟩ := (bind_eq_ok_iff _).mp h
  cases h
  unfold slice at hs
  split_ifs at hs with hbounds
  cases hs
  have hlen := hwrite _ _ ht
  rw [List.length_drop, List.length_take, Nat.min_eq_left hbounds.2] at hlen
  rw [Vec.toList_overwrite, blit_eq (by omega), List.append_assoc]
  refine ⟨octetAt_take_append hi' (by omega), ?_⟩
  rw [List.length_append, List.length_take]
  omega

/-- The octets in front of the slice that `write` gets are those of the new frame. -/
theorem fromValue_octetAt {T : Type} [FrameWriter T] {p : Profile} {d : Value} {f₀ f : T}
    (hnew : FrameWriter.new p true (maxFrameSize T) = .ok (.ok f₀))
    (hset : ∀ {f g : T} {n : ℕ} {r : FrameResult Unit}, FrameWriter.setLength p f n = .ok (g, r) →
      ∀ {i : ℕ}, i ≠ 5 → i < n → i < (data f).length → octetAt (data g) i = octetAt (data f) i)
    (h : FrameWriter.fromValue T p true d = .ok (.ok f)) {i : ℕ} (hi : i ≠ 5)
    (hlo : i < apciOffset T + 1 + d.length.size) : octetAt (data f) i = octetAt (data f₀) i := by
  unfold FrameWriter.fromValue at h
  rw [hnew, ok_bind] at h
  obtain ⟨v, hv, h⟩ := (bind_eq_ok_iff _).mp h
  obtain ⟨⟨g, r⟩, hg, h⟩ := (bind_eq_ok_iff _).mp h
  obtain ⟨hoctet, hlen⟩ := octetAt_writeSlice d.write_length hv
    (show i < apciOffset T + 1 + d.length.size from hlo)
  have hheader : apciOffset T + 1 = headerLength T := by simp [apciOffset, headerLength]
  have hi' : i < headerLength T + apciBaseSize + d.length.size + 1 := by omega
  have hkeep := hset hg hi hi' (by rwa [data_ofBuf])
  cases r with
  | error e => cases h
  | ok u =>
    cases h
    rw [hkeep, data_ofBuf, hoctet]
    rfl

/-- Whatever the size of the value, `write` gets one octet of the new frame: the last of those
    that are to hold the value. -/
theorem fromValue_slice {T : Type} [FrameWriter T] {p : Profile} {d : Value} {f₀ f : T}
    (hnew : FrameWriter.new p true (maxFrameSize T) = .ok (.ok f₀))
    (h : FrameWriter.fromValue T p true d = .ok (.ok f)) :
    ∃ x y, slice (data f₀) (apciOffset T + 1 + d.length.size) (apciOffset T + d.length.size + 2) =
      .ok [x] ∧ d.write [x] = .ok [y] := by
  unfold FrameWriter.fromValue at h
  rw [hnew, ok_bind] at h
  obtain ⟨v, hv, -⟩ := (bind_eq_ok_iff _).mp h
  obtain ⟨s, hs, hv⟩ := (bind_eq_ok_iff _).mp hv
  obtain ⟨t, ht, -⟩ := (bind_eq_ok_iff _).mp hv
  have hone : s.length = 1 := by
    unfold slice at hs
    split_ifs at hs with hbounds
    cases hs
    rw [List.length_drop, List.length_take, Nat.min_eq_left hbounds.2]
    show apciOffset T + d.length.size + 2 - (apciOffset T + 1 + d.length.size) = 1
    omega
  obtain ⟨x, rfl⟩ := List.length_eq_one_iff.mp hone
  obtain ⟨y, rfl⟩ := List.length_eq_one_iff.mp (d.write_length _ _ ht)
  exact ⟨x, y, hs, ht⟩

theorem standard_of_fromValue {p : Profile} {d : Value} {f : StandardFrame}
    (hsize : d.length.size ≤ 14) (h : Frame.fromValue p true d = .ok (.ok (.standard f))) :
    FrameWriter.fromValue StandardFrame p true d = .ok (.ok f) := by
  rw [Frame.fromValue, d.byteLength_eq, if_neg (by omega)] at h
  obtain ⟨r, hr, h⟩ := (bind_eq_ok_iff _).mp h
  cases r with
  | error e => cases h
  | ok g =>
    cases h
    exact hr

theorem extended_of_fromValue {p : Profile} {d : Value} {f : ExtendedFrame}
    (hsize : 14 < d.length.size) (h : Frame.fromValue p true d = .ok (.ok (.extended f))) :
    FrameWriter.fromValue ExtendedFrame p true d = .ok (.ok f) := by
  rw [Frame.fromValue, d.byteLength_eq, if_pos hsize] at h
  obtain ⟨r, hr, h⟩ := (bind_eq_ok_iff _).mp h
  cases r with
  | error e => cases h
  | ok g =>
    cases h
    exact hr

/-- A value that fills its slice. -/
def filled (length : DataPointLength) : Value where
  length := length
  write s := .ok (s.map fun _ => 0xFF)
  write_length s t h := by
    cases h
    exact List.length_map _
  write_ok _ _ := ⟨_, rfl⟩

/-- The first octet of a longer value is not in the slice. -/
theorem not_builds_standard (p : Profile) {length : DataPointLength} (hlo : 2 ≤ length.size)
    (hhi : length.size ≤ 14) : ¬Builds p (filled length) := by
  intro hbuilds
  obtain ⟨f, hf, hlaysOut⟩ := hbuilds.standard hhi
  obtain ⟨octets, hwrite, hvalue⟩ := hlaysOut.value
  have hstandard := standard_of_fromValue (d := filled length) hhi hf
  have hzero : octetAt (data f) 8 = 0 := by
    rw [fromValue_octetAt (new_emptyFrame p) (standard_setLength_octetAt p) hstandard (by decide)]
    · rfl
    · show 8 < 6 + 1 + length.size
      omega
  have hoffset : valueOffset StandardFrame length.size = 8 := if_neg (by omega)
  have hwidth : max 1 length.size = length.size := Nat.max_eq_right (by omega)
  have hlen := hlaysOut.size
  change (data f).length = valueOffset StandardFrame length.size + max 1 length.size + 1 at hlen
  change ((data f).drop (valueOffset StandardFrame length.size)).take (max 1 length.size) = octets
    at hvalue
  change Except.ok ((List.replicate (max 1 length.size) 0).map fun _ => (0xFF : UInt8)) = _ at hwrite
  rw [hoffset, hwidth] at hvalue hlen
  rw [hwidth] at hwrite
  cases hwrite
  have hfirst : octetAt ((data f).drop 8) 0 = 0xFF := by
    have htake : octetAt (((data f).drop 8).take length.size ++ []) 0 =
        octetAt ((data f).drop 8) 0 :=
      octetAt_take_append (by omega) (by rw [List.length_drop]; omega)
    rw [← htake, List.append_nil, hvalue, octetAt_eq_getElem (by simp; omega)]
    simp
  rw [octetAt_drop, hzero] at hfirst
  exact absurd hfirst (by decide)

/-- An extended frame is not marked as one. -/
theorem not_builds_extended (p : Profile) {d : Value} (hsize : 14 < d.length.size) :
    ¬Builds p d := by
  intro hbuilds
  obtain ⟨f, hf, hlaysOut⟩ := hbuilds.extended hsize
  have hextended := extended_of_fromValue hsize hf
  obtain ⟨f₀, hnew, hdata⟩ := extended_new_eq p (n := 263) (by decide)
  have hzero : octetAt (data f) 0 = 0 := by
    rw [fromValue_octetAt hnew (extended_setLength_octetAt p) hextended (by decide), hdata]
    · rfl
    · show 0 < 7 + 1 + d.length.size
      omega
  have hstart := hlaysOut.start.2
  rw [hzero] at hstart
  exact absurd hstart (by decide)

/-! ## Values of any size -/

/-- All values of a length are laid out if and only if they have at most one octet of their
    own. -/
theorem fromValue_laysOut_iff (p : Profile) (length : DataPointLength) :
    (∀ d : Value, d.length = length → Builds p d) ↔ length.size ≤ 1 := by
  constructor
  · intro h
    by_contra hsize
    have hfilled := h (filled length) rfl
    by_cases hhi : length.size ≤ 14
    · exact not_builds_standard p (by omega) hhi hfilled
    · exact not_builds_extended p (d := filled length) (Nat.lt_of_not_le hhi) hfilled
  · rintro hsize d rfl
    exact builds_of_short p d hsize

/-- A value of two octets: `buf[0] = (w >> 8) as u8; buf[1] = (w & 0xFF) as u8`. -/
def u16 (w : UInt16) : Value where
  length := .byte 2
  write s := do
    let _ ← index s 0
    let s := s.set 0 (w >>> 8).toUInt8
    let _ ← index s 1
    return s.set 1 (w &&& 0xFF).toUInt8
  write_length s t h := by
    obtain ⟨_, -, h⟩ := (bind_eq_ok_iff _).mp h
    obtain ⟨_, -, h⟩ := (bind_eq_ok_iff _).mp h
    cases h
    simp
  write_ok s hs := by
    obtain ⟨x, y, rfl⟩ := List.length_eq_two.mp hs
    exact ⟨_, rfl⟩

/-- A value of two octets does not fit the slice that it gets, and one of fifteen gets a frame
    that is not marked as extended, if any. -/
theorem u16_not_built :
    DataPointAccess.byteLength (u16 0x0C1A) = 2 ∧
      Frame.fromValue .dev true (u16 0x0C1A) = .error .indexOutOfBounds ∧
      Frame.fromValue .release true (u16 0x0C1A) = .error .indexOutOfBounds ∧
      ¬Builds .release (u16 0x0C1A) ∧
      ¬Builds .release (filled (.byte 15)) := by
  have hpanic : Frame.fromValue .release true (u16 0x0C1A) = .error .indexOutOfBounds := by rfl
  refine ⟨rfl, by rfl, hpanic, ?_, not_builds_extended .release (by decide)⟩
  intro hbuilds
  obtain ⟨f, hf, -⟩ := hbuilds.standard (by decide)
  rw [hpanic] at hf
  exact nomatch hf

end EmbassyKnx
