import EmbassyKnx.Driver.Line
import EmbassyKnx.Frame.Header

/-!
# Reading a frame off the line

`receive_frame_int` reads the octets of a frame into a zeroed scratch frame in
two timed reads, acknowledges in between, and then puts the scratch frame to
the acceptance test. `reception` says what the two reads make of the line, as a
function of its events alone; `exec_receiveFrameInt` reduces the generic
function to `reception` and `acceptFrame`, for every layout whose scratch frame
starts out zeroed.
-/

namespace EmbassyKnx.Driver

open Rust Heapless Octets FrameLayout FrameReader FrameWriter Async

/-- `new(MAX_FRAME_SIZE)` succeeds on a free block with a frame of that size that
    is zero except perhaps for the control octet. -/
class ScratchFits (T : Type) [FrameWriter T] : Prop extends HeaderFits T where
  headerLength_lt_max : headerLength T < maxFrameSize T
  new_none : ∀ p, (new p false (maxFrameSize T) : Panicking (FrameResult T)) =
    .ok (.error .outOfMemory)
  new_max : ∀ p, ∃ (f : T) (c : UInt8), new p true (maxFrameSize T) = .ok (.ok f) ∧
    data f = c :: List.replicate (maxFrameSize T - 1) 0

instance : ScratchFits StandardFrame where
  headerLength_lt_max := by decide
  new_none _ := rfl
  new_max p := by cases p <;> exact ⟨_, _, rfl, rfl⟩

instance : ScratchFits ExtendedFrame where
  headerLength_lt_max := by decide
  new_none _ := rfl
  new_max _ := ⟨_, _, rfl, rfl⟩

/-! ## Closed form of the two reads -/

/-- The outcome of acknowledging a frame to `dst`. -/
def ackResult (dst : Address) (w : Line) : Except TransferError Unit × Line :=
  if addressed dst then writeResult (Commands.uAcknReq ||| AckTypes.ack.toU8) w else (.ok (), w)

/-- What `receive_frame_int` reads behind the header `hdr`: all octets of the frame,
    or the error that stopped it. -/
def bodyReception (T : Type) [FrameLayout T] (hdr : List UInt8) (w : Line) :
    Except TransferError (List UInt8) × Line :=
  match ackResult (dstAddrOf T hdr) w with
  | (.error e, w) => (.error e, w)
  | (.ok (), w) =>
    let os := burst w.rx
    let room := maxFrameSize T - headerLength T
    if room ≤ os.length then (.ok (hdr ++ os.take room), { w with rx := w.rx.drop room })
    else
      match readStop os.length (w.rx.drop os.length) with
      | (.timeoutError _, rx) => (.ok (hdr ++ os), { w with rx })
      | (e, rx) => (.error e, { w with rx })

/-- What `receive_frame_int` reads after the control octet `c`: all octets of the
    frame, the control octet included, or the error that stopped it. -/
def reception (T : Type) [FrameLayout T] (c : UInt8) (w : Line) :
    Except TransferError (List UInt8) × Line :=
  let os := burst w.rx
  let rest := headerLength T - 1
  if rest ≤ os.length then bodyReception T (c :: os.take rest) { w with rx := w.rx.drop rest }
  else
    let stop := readStop os.length (w.rx.drop os.length)
    (.error stop.1, { w with rx := stop.2 })

/-- A scratch frame that holds the octets `b` and zeroes. -/
def scratchOf (T : Type) [FrameLayout T] (b : List UInt8) : List UInt8 :=
  b ++ List.replicate (maxFrameSize T - b.length) 0

theorem exec_ackIfAddressed (dst : Address) (w : Line) :
    exec uart (ackIfAddressed dst) w = .returned (ackResult dst w).1 (ackResult dst w).2 := by
  unfold ackIfAddressed ackResult
  split_ifs with h
  · exact exec_writeOctet w _
  · rfl

/-- Acknowledging does not touch the receive line. -/
@[simp] theorem ackResult_rx (dst : Address) (w : Line) : (ackResult dst w).2.rx = w.rx := by
  rw [ackResult]
  split_ifs
  · exact writeResult_rx _ w
  · rfl

theorem exec_readWithTimeout_full {buf : List UInt8} {w : Line}
    (h : buf.length ≤ (burst w.rx).length) :
    exec uart (readWithTimeout buf) w =
      .returned ((burst w.rx).take buf.length, .ok buf.length)
        { w with rx := w.rx.drop buf.length } := by
  rw [readWithTimeout, exec_readWithTimeoutFrom, if_pos h, Nat.zero_add]

theorem exec_readWithTimeout_stop {buf : List UInt8} {w : Line}
    (h : (burst w.rx).length < buf.length) :
    exec uart (readWithTimeout buf) w =
      .returned (burst w.rx ++ buf.drop (burst w.rx).length,
          .error (readStop (burst w.rx).length (w.rx.drop (burst w.rx).length)).1)
        { w with rx := (readStop (burst w.rx).length (w.rx.drop (burst w.rx).length)).2 } := by
  rw [readWithTimeout, exec_readWithTimeoutFrom, if_neg (by omega), Nat.zero_add]

/-! ## The scratch frame -/

section Scratch

variable {T : Type} [FrameWriter T]

theorem data_overwrite (f : T) (lo : ℕ) (src : List UInt8) :
    data (ofBuf ((buf f).overwrite lo src) : T) = blit (data f) lo src := by
  rw [data_ofBuf, Vec.toList_overwrite]
  rfl

/-- Reading `src` over the zeroes behind `b` gives the scratch frame of `b ++ src`. -/
theorem blit_scratchOf {b src : List UInt8} (h : b.length + src.length ≤ maxFrameSize T) :
    blit (scratchOf T b) b.length src = scratchOf T (b ++ src) := by
  rw [blit_eq (by simp [scratchOf]; omega), scratchOf, scratchOf, List.take_left,
    List.drop_append, List.drop_of_length_le (by omega), List.nil_append, List.drop_replicate,
    List.length_append]
  congr 2
  omega

theorem scratchOf_length {b : List UInt8} (h : b.length ≤ maxFrameSize T) :
    (scratchOf T b).length = maxFrameSize T := by
  simp [scratchOf]; omega

/-- The part of a scratch frame behind what has been read is zero. -/
theorem slice_scratchOf {b : List UInt8} {hi : ℕ} (h : b.length ≤ hi) (hhi : hi ≤ maxFrameSize T) :
    slice (scratchOf T b) b.length hi = .ok (List.replicate (hi - b.length) 0) := by
  rw [slice_eq h (by rw [scratchOf_length (by omega)]; exact hhi), List.drop_take, scratchOf,
    List.drop_left, List.take_replicate, Nat.min_eq_left (by omega)]

theorem octetAt_scratchOf {b : List UInt8} {i : ℕ} (h : i < b.length) :
    octetAt (scratchOf T b) i = octetAt b i :=
  octetAt_append_left h _

/-- The octet behind the received ones is zero. -/
theorem index_scratchOf {b : List UInt8} (h : b.length < maxFrameSize T) :
    index (scratchOf T b) b.length = .ok 0 := by
  refine index_of_getElem? ?_
  rw [scratchOf, List.getElem?_append_right (le_refl _), Nat.sub_self,
    List.getElem?_replicate_of_lt (by omega)]

/-- The zeroes do not change the checksum. -/
theorem checksum_scratchOf {f : T} {b : List UInt8} (hf : data f = scratchOf T b) :
    checksum f = ~~~xorAll b := by
  rw [checksum, hf, scratchOf, xorAll_append, xorAll_replicate_zero, UInt8.xor_zero]

end Scratch

/-! ## The acceptance test -/

section AcceptFrame

variable {T : Type} [FrameWriter T] (p : Profile) {f : T} {b : List UInt8}

theorem acceptFrame_short (h : b.length < minFrameSize T) :
    acceptFrame p f b.length = .ok (.error (.frameError .invalidLength)) := by
  rw [acceptFrame, if_pos (.inl h)]
  rfl

theorem acceptFrame_length_panics (hmin : minFrameSize T ≤ b.length)
    (hmax : b.length ≤ maxFrameSize T) {why : Panic} (hl : length p f = .error why) :
    acceptFrame p f b.length = .error why := by
  rw [acceptFrame, if_neg (by omega), hl]
  rfl

/-- The result of `receive_frame_int` from `set_length` on. -/
def finish (r : T × FrameResult Unit) : Except TransferError T :=
  match r with
  | (_, .error e) => .error (.frameError e)
  | (frame, .ok ()) => .ok frame

/-- When `length()` says `l`: a frame of another length or with a wrong checksum is
    refused, every other frame is cut to its length. -/
theorem acceptFrame_eq (hf : data f = scratchOf T b) (hmin : minFrameSize T ≤ b.length)
    (hmax : b.length ≤ maxFrameSize T) {l : UInt8} (hl : length p f = .ok l)
    (hlt : l.toNat < maxFrameSize T) :
    acceptFrame p f b.length =
      if b.length ≠ l.toNat then .ok (.error (.frameError .invalidLength))
      else if xorAll b ≠ 0xFF then .ok (.error (.frameError .checksum))
      else finish <$> FrameWriter.setLength p f b.length := by
  rw [acceptFrame, if_neg (by omega), hl]
  simp only [ok_bind]
  by_cases hlen : b.length ≠ l.toNat
  · rw [if_pos hlen, if_pos hlen]
    rfl
  · rw [if_neg hlen, if_neg hlen, hf, index_scratchOf (by omega), checksum_scratchOf hf]
    simp only [ok_bind, ne_eq, complement_eq_zero_iff]
    by_cases hxor : xorAll b = 0xFF
    · rw [if_neg (not_not.mpr hxor), if_neg (not_not.mpr hxor), map_eq_pure_bind]
      congr 1
      funext r
      obtain ⟨g, _ | _⟩ := r <;> rfl
    · rw [if_pos hxor, if_pos hxor]
      rfl

end AcceptFrame

/-! ## `receive_frame_int` -/

section ReceiveFrameInt

variable {T : Type} [FrameWriter T] [ScratchFits T]

/-- Without a free block nothing is read. -/
theorem exec_receiveFrameInt_outOfMemory (p : Profile) (c : UInt8) {w : Line}
    (hb : w.blocks.head = false) :
    exec uart (receiveFrameInt T p c) w =
      .returned (.error (.frameError .outOfMemory)) { w with blocks := w.blocks.tail } := by
  rw [receiveFrameInt, exec_bind, exec_alloc, Outcome.andThen_returned, hb, exec_bind,
    ScratchFits.new_none]
  rfl

theorem exec_receiveBody (p : Profile) {f : T} {hdr : List UInt8} (w : Line)
    (hf : data f = scratchOf T hdr) (hhdr : hdr.length = headerLength T) :
    match bodyReception T hdr w with
    | (.error e, w') => exec uart (receiveBody p f hdr.length) w = .returned (.error e) w'
    | (.ok b, w') => ∃ g : T, data g = scratchOf T b ∧
        exec uart (receiveBody p f hdr.length) w =
          exec uart (liftM (acceptFrame p g b.length)) w' := by
  have hH := ScratchFits.headerLength_lt_max (T := T)
  have hlen : (data f).length = maxFrameSize T := by rw [hf, scratchOf_length (by omega)]
  have hdst : dstAddr f = .ok (dstAddrOf T hdr) := by
    rw [dstAddr_eq (by omega), hf, scratchOf, dstAddrOf_append_left T (by omega)]
  have hbody : sliceFrom (data f) (headerLength T) =
      .ok (List.replicate (maxFrameSize T - headerLength T) 0) := by
    rw [sliceFrom, hlen, hf, ← hhdr]
    exact slice_scratchOf (by omega) le_rfl
  have hover : ∀ src, src.length ≤ maxFrameSize T - headerLength T →
      data (ofBuf ((buf f).overwrite (headerLength T) src) : T) = scratchOf T (hdr ++ src) := by
    intro src hsrc
    rw [data_overwrite, hf, ← hhdr, blit_scratchOf (by omega)]
  rw [receiveBody, bodyReception]
  simp only [exec_bind, hdst, exec_lift_ok, Outcome.andThen_returned, exec_ackIfAddressed]
  obtain ⟨result, w₁⟩ := ackResult (dstAddrOf T hdr) w
  cases result with
  | error e => rfl
  | ok u =>
    simp only [exec_bind, hbody, exec_lift_ok, Outcome.andThen_returned]
    by_cases hroom : maxFrameSize T - headerLength T ≤ (burst w₁.rx).length
    · -- the scratch frame is filled to its end
      rw [if_pos hroom, exec_readWithTimeout_full (by simpa using hroom), List.length_replicate]
      refine ⟨_, hover _ (List.length_take_le _ _), ?_⟩
      simp only [Outcome.andThen_returned, List.length_append, List.length_take,
        Nat.min_eq_left hroom]
    · rw [if_neg hroom, exec_readWithTimeout_stop (by rw [List.length_replicate]; omega)]
      obtain ⟨rx, hstop | ⟨e, hstop⟩⟩ :=
        readStop_cases (burst w₁.rx).length (w₁.rx.drop (burst w₁.rx).length)
      · -- silence after the last octet; the octets that were not read are still zero
        simp only [hstop, Outcome.andThen_returned]
        refine ⟨ofBuf ((buf f).overwrite (headerLength T) (burst w₁.rx ++
          (List.replicate (maxFrameSize T - headerLength T) 0).drop (burst w₁.rx).length)), ?_, ?_⟩
        · rw [hover _ (by simp; omega)]
          simp only [scratchOf, List.append_assoc, List.drop_replicate, List.length_append,
            List.length_replicate, ← List.replicate_add]
          congr 3
          omega
        · rw [List.length_append]
      · simp only [hstop, Outcome.andThen_returned]
        rfl

/-- With a free block, `receive_frame_int` is the two reads followed by the
    acceptance test on what they have read. -/
theorem exec_receiveFrameInt (p : Profile) (c : UInt8) {w : Line} (hb : w.blocks.head = true) :
    match reception T c { w with blocks := w.blocks.tail } with
    | (.error e, w') => exec uart (receiveFrameInt T p c) w = .returned (.error e) w'
    | (.ok b, w') => ∃ f : T, data f = scratchOf T b ∧
        exec uart (receiveFrameInt T p c) w = exec uart (liftM (acceptFrame p f b.length)) w' := by
  have hH := ScratchFits.headerLength_lt_max (T := T)
  have hH1 : 6 ≤ headerLength T := by simp [headerLength]
  obtain ⟨f₀, c₀, hnew, hf₀⟩ := ScratchFits.new_max (T := T) p
  obtain ⟨f₁, hmod, hf₁⟩ := modifyData_eq (f := f₀) (i := 0) (by simp [hf₀]) fun _ => c
  have hf₁ : data f₁ = scratchOf T [c] := by rw [hf₁, hf₀]; rfl
  have hslice : slice (data f₁) 1 (headerLength T) =
      .ok (List.replicate (headerLength T - 1) 0) := by
    rw [hf₁]
    exact slice_scratchOf (b := [c]) (by simp; omega) (by omega)
  rw [receiveFrameInt]
  simp only [exec_bind, exec_alloc, Outcome.andThen_returned, hb, hnew, exec_lift_ok, hmod, hslice]
  generalize ({ w with blocks := w.blocks.tail } : Line) = w₁
  rw [reception]
  by_cases hrest : headerLength T - 1 ≤ (burst w₁.rx).length
  · simp only [if_pos hrest]
    rw [exec_readWithTimeout_full (by simpa using hrest), List.length_replicate]
    simp only [Outcome.andThen_returned]
    have hlen : (c :: (burst w₁.rx).take (headerLength T - 1)).length = headerLength T := by
      simp; omega
    have hdata : data (ofBuf ((buf f₁).overwrite 1 ((burst w₁.rx).take (headerLength T - 1))) : T) =
        scratchOf T (c :: (burst w₁.rx).take (headerLength T - 1)) := by
      rw [data_overwrite, hf₁]
      exact blit_scratchOf (b := [c]) (by simp; omega)
    have := exec_receiveBody p { w₁ with rx := w₁.rx.drop (headerLength T - 1) } hdata hlen
    rw [show 1 + (headerLength T - 1) = headerLength T by omega]
    rwa [hlen] at this
  · -- the header does not arrive
    simp only [if_neg hrest]
    rw [exec_readWithTimeout_stop (by rw [List.length_replicate]; omega)]
    rfl

end ReceiveFrameInt

/-! ## Undisturbed bursts -/

/-- The acknowledgement succeeds when the next write does. -/
theorem ackResult_of_none (dst : Address) {w : Line} (hw : w.writeErrors.head = none) :
    ∃ w', ackResult dst w = (.ok (), w') ∧ w'.rx = w.rx := by
  unfold ackResult
  split_ifs
  · exact ⟨_, writeResult_of_none hw _, rfl⟩
  · exact ⟨w, rfl, rfl⟩

section Burst

variable {T : Type} [FrameWriter T] {w : Line} {os : List UInt8} {tail : List LineEvent}

/-- Behind the header, the read takes all octets there is room for. -/
theorem bodyReception_quiet (hdr : List UInt8) (hrx : w.rx = os.map .octet ++ tail)
    (htail : Quiet tail) (hw : w.writeErrors.head = none) :
    (bodyReception T hdr w).1 = .ok (hdr ++ os.take (maxFrameSize T - headerLength T)) := by
  obtain ⟨w₁, hack, hrx₁⟩ := ackResult_of_none (dstAddrOf T hdr) hw
  rw [hrx] at hrx₁
  have hburst : burst w₁.rx = os := by rw [hrx₁, burst_map_octet_append os htail]
  simp only [bodyReception, hack, hburst]
  by_cases hroom : maxFrameSize T - headerLength T ≤ os.length
  · rw [if_pos hroom]
  · obtain ⟨rx, hstop⟩ := readStop_of_quiet os.length htail
    rw [if_neg hroom, hrx₁, drop_map_octet_append, hstop, List.take_of_length_le (by omega)]

variable [ScratchFits T]

/-- On a burst that is followed by silence both reads take all octets there is room
    for. -/
theorem reception_quiet (c : UInt8) (hrx : w.rx = os.map .octet ++ tail) (htail : Quiet tail)
    (hw : w.writeErrors.head = none) :
    (reception T c w).1 =
      if (c :: os).length < headerLength T then .error (.timeoutError os.length)
      else .ok ((c :: os).take (maxFrameSize T)) := by
  have hH := ScratchFits.headerLength_lt_max (T := T)
  have hH1 : 6 ≤ headerLength T := by simp [headerLength]
  have hburst : burst w.rx = os := by rw [hrx, burst_map_octet_append os htail]
  rw [reception, hburst]
  simp only [List.length_cons]
  by_cases hrest : headerLength T - 1 ≤ os.length
  · have hrx' : w.rx.drop (headerLength T - 1) =
        (os.drop (headerLength T - 1)).map .octet ++ tail := by
      rw [hrx, List.drop_append_of_le_length (by simpa using hrest), List.map_drop]
    have hbody := bodyReception_quiet (T := T) (w := { w with rx := w.rx.drop (headerLength T - 1) })
      (c :: os.take (headerLength T - 1)) hrx' htail hw
    rw [if_pos hrest, if_neg (by omega), hbody, List.cons_append, ← List.take_add,
      ← List.take_succ_cons]
    congr 2
    omega
  · obtain ⟨rx, hstop⟩ := readStop_of_quiet os.length htail
    rw [if_neg hrest, if_pos (by omega), hrx, drop_map_octet_append, hstop]

/-- With a free block, a burst followed by silence is put to the acceptance test,
    except when it is shorter than the header. -/
theorem exec_receiveFrameInt_quiet (p : Profile) (c : UInt8) (hrx : w.rx = os.map .octet ++ tail)
    (htail : Quiet tail) (hb : w.blocks.head = true) (hw : w.writeErrors.head = none) :
    if (c :: os).length < headerLength T then
      ∃ w', exec uart (receiveFrameInt T p c) w = .returned (.error (.timeoutError os.length)) w'
    else ∃ (f : T) (w' : Line), data f = scratchOf T ((c :: os).take (maxFrameSize T)) ∧
      exec uart (receiveFrameInt T p c) w =
        exec uart (liftM (acceptFrame p f ((c :: os).take (maxFrameSize T)).length)) w' := by
  have hexec := exec_receiveFrameInt (T := T) p c hb
  have hread := reception_quiet (T := T) (w := { w with blocks := w.blocks.tail }) c hrx htail hw
  rcases hr : reception T c { w with blocks := w.blocks.tail } with ⟨result, w'⟩
  rw [hr] at hexec hread
  change result = _ at hread
  subst hread
  by_cases hshort : (c :: os).length < headerLength T
  · rw [if_pos hshort] at hexec ⊢
    exact ⟨w', hexec⟩
  · rw [if_neg hshort] at hexec ⊢
    obtain ⟨f, hf, hf'⟩ := hexec
    exact ⟨f, w', hf, hf'⟩

end Burst

end EmbassyKnx.Driver
