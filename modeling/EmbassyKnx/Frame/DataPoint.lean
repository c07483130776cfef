import EmbassyKnx.Frame.Header

/-!
# Data points

Models of `src/data_point.rs` and of the two `from_datapoint` functions of
`src/frame.rs` (lines 271 and 570), which build the frame of a group telegram
around a data point. The logging of data points is left out.

* `fromDatapoint_eq`: the octets of that frame.
-/

namespace EmbassyKnx

open Rust Heapless FrameLayout FrameReader

/-- `DataPointLength` (line 5). -/
inductive DataPointLength
  | bit (n : ℕ)
  | byte (n : ℕ)
  deriving DecidableEq, Repr

/-- `trait DataPointAccess` (line 11). -/
class DataPointAccess (T : Type) where
  /-- `length`. -/
  length : T → DataPointLength
  /-- `write(buf)`: what it leaves in `buf`. -/
  write : T → List UInt8 → Panicking (List UInt8)

/-- `byte_length` (line 14). -/
def DataPointAccess.byteLength {T : Type} [DataPointAccess T] (self : T) : ℕ :=
  match length self with
  | .bit n => if n < 6 then 0 else 1
  | .byte n => n

/-- `B1` (line 57). -/
structure B1 where
  data : UInt8
  deriving DecidableEq, Repr

/-- `B1::new` (line 60). -/
def B1.new (data : Bool) : B1 := ⟨data.toUInt8⟩

instance : DataPointAccess B1 where
  length _ := .bit 1
  write self buf := do return buf.set 0 ((← index buf 0) ||| (self.data &&& 0x1))

/-- `B2` (line 75). -/
structure B2 where
  data : UInt8
  deriving DecidableEq, Repr

/-- `B2::new` (line 77). -/
def B2.new (data : UInt8) : B2 := ⟨data⟩

instance : DataPointAccess B2 where
  length _ := .bit 2
  write self buf := do return buf.set 0 ((← index buf 0) ||| (self.data &&& 0x3))

/-- `U8` (line 93). -/
structure U8 where
  data : UInt8
  deriving DecidableEq, Repr

/-- `U8::new` (line 95). -/
def U8.new (data : UInt8) : U8 := ⟨data⟩

instance : DataPointAccess U8 where
  length _ := .byte 1
  write self buf := do
    let _ ← index buf 0
    return buf.set 0 self.data

/-- `DataPoint` (line 25). -/
inductive DataPoint
  | b1 (d : B1)
  | b2 (d : B2)
  | u8 (d : U8)
  deriving DecidableEq, Repr

/-- The dispatch that `enum_dispatch` generates. -/
instance : DataPointAccess DataPoint where
  length
    | .b1 d => DataPointAccess.length d
    | .b2 d => DataPointAccess.length d
    | .u8 d => DataPointAccess.length d
  write
    | .b1 d => DataPointAccess.write d
    | .b2 d => DataPointAccess.write d
    | .u8 d => DataPointAccess.write d

/-! ## `from_datapoint`

`from_datapoint` uses a data point only through its `DataPointAccess`, and is written for any
kind of data point. -/

/-- `FrameWriter::from_datapoint` (`frame.rs` line 271). -/
def FrameWriter.fromValue (T : Type) [FrameWriter T] {D : Type} [DataPointAccess D] (p : Profile)
    (block : Bool) (datapoint : D) : Panicking (FrameResult T) := do
  let size :=
    match DataPointAccess.length datapoint with
    | .bit n => if n < 6 then 0 else 1
    | .byte n => n
  let frame : FrameResult T ← FrameWriter.new p block (maxFrameSize T)
  match frame with
  | .error e => return .error e
  | .ok frame =>
    let buf ← (buf frame).writeSlice (apciOffset T + 1 + size) (apciOffset T + size + 2)
      (DataPointAccess.write datapoint)
    let frame : T := FrameWriter.ofBuf buf
    match ← FrameWriter.setLength p frame (headerLength T + apciBaseSize + size + 1) with
    | (_, .error e) => return .error e
    | (frame, .ok ()) => return .ok frame

/-- `Frame::from_datapoint` (`frame.rs` line 570). -/
def Frame.fromValue {D : Type} [DataPointAccess D] (p : Profile) (block : Bool) (datapoint : D) :
    Panicking (FrameResult Frame) := do
  if DataPointAccess.byteLength datapoint > 14 then
    return (← FrameWriter.fromValue ExtendedFrame p block datapoint).map .extended
  else return (← FrameWriter.fromValue StandardFrame p block datapoint).map .standard

/-- `Frame::from_datapoint` on the data points of the source. -/
def Frame.fromDatapoint (p : Profile) (block : Bool) (datapoint : DataPoint) :
    Panicking (FrameResult Frame) := Frame.fromValue p block datapoint

/-! ## The frame of a data point -/

namespace DataPoint

/-- The bits of a data point that share the octet of the APCI. -/
def lowBits : DataPoint → UInt8
  | .b1 d => d.data &&& 0x1
  | .b2 d => d.data &&& 0x3
  | .u8 _ => 0

/-- The octets behind it. -/
def trailing : DataPoint → List UInt8
  | .b1 _ => []
  | .b2 _ => []
  | .u8 d => [d.data]

theorem trailing_length_le (d : DataPoint) : d.trailing.length ≤ 1 := by
  cases d <;> simp [trailing]

end DataPoint

/-- The frame that `StandardFrame::new(MAX_FRAME_SIZE)` returns. -/
def emptyFrame : StandardFrame := ⟨⟨0x90 :: List.replicate 23 0, by simp [maxBlockSize]⟩⟩

theorem new_emptyFrame (p : Profile) :
    (FrameWriter.new p true (maxFrameSize StandardFrame) : Panicking (FrameResult StandardFrame)) =
      .ok (.ok emptyFrame) := by
  cases p <;> rfl

/-- `from_datapoint` is its three steps: allocate, write the value, set the length. -/
theorem fromValue_of_steps {p : Profile} {D : Type} [DataPointAccess D] {d : D} {buf : FrameVec}
    {g : StandardFrame}
    (hwrite : emptyFrame.buf.writeSlice (7 + DataPointAccess.byteLength d)
      (8 + DataPointAccess.byteLength d) (DataPointAccess.write d) = .ok buf)
    (hlength : StandardFrame.setLength p ⟨buf⟩ (9 + DataPointAccess.byteLength d) =
      .ok (g, .ok ())) :
    FrameWriter.fromValue StandardFrame p true d = .ok (.ok g) := by
  have hlo : apciOffset StandardFrame + 1 + DataPointAccess.byteLength d =
      7 + DataPointAccess.byteLength d := rfl
  have hhi : apciOffset StandardFrame + DataPointAccess.byteLength d + 2 =
      8 + DataPointAccess.byteLength d := by
    show 6 + DataPointAccess.byteLength d + 2 = _
    omega
  have hsize : headerLength StandardFrame + apciBaseSize + DataPointAccess.byteLength d + 1 =
      9 + DataPointAccess.byteLength d := by
    show 7 + 1 + DataPointAccess.byteLength d + 1 = _
    omega
  have hbyte : (match DataPointAccess.length d with
      | .bit n => if n < 6 then 0 else 1
      | .byte n => n) = DataPointAccess.byteLength d := rfl
  have hbuf : FrameReader.buf emptyFrame = emptyFrame.buf := rfl
  have hset : FrameWriter.setLength p (FrameWriter.ofBuf buf : StandardFrame)
      (9 + DataPointAccess.byteLength d) = .ok (g, .ok ()) := hlength
  simp only [FrameWriter.fromValue, new_emptyFrame, ok_bind, hbyte, hlo, hhi, hsize, hbuf,
    hwrite, hset]
  rfl

theorem byteLength_le (d : DataPoint) : DataPointAccess.byteLength d ≤ 1 := by
  cases d with
  | b1 d => exact Nat.zero_le 1
  | b2 d => exact Nat.zero_le 1
  | u8 d => exact Nat.le_refl 1

/-- `emptyFrame` with `value` in the octets from the low APCI octet on. -/
def valueBuf (value : List UInt8) (h : value.length ≤ 17) : FrameVec :=
  ⟨0x90 :: List.replicate 6 0 ++ value ++ List.replicate (17 - value.length) 0, by
    simp [maxBlockSize]; omega⟩

/-- Every data point travels in a standard frame, of which only the control octet, the
    length nibble and the value are set. -/
theorem fromDatapoint_eq (p : Profile) (d : DataPoint) : ∃ f : StandardFrame,
    Frame.fromDatapoint p true d = .ok (.ok (.standard f)) ∧
      data f = [0x90, 0, 0, 0, 0, UInt8.ofNat (d.trailing.length + 1), 0, d.lowBits] ++
        d.trailing ++ [0] := by
  suffices hframe : ∃ f : StandardFrame, FrameWriter.fromValue StandardFrame p true d =
      .ok (.ok f) ∧ data f = [0x90, 0, 0, 0, 0, UInt8.ofNat (d.trailing.length + 1), 0,
        d.lowBits] ++ d.trailing ++ [0] by
    obtain ⟨f, hf, hdata⟩ := hframe
    refine ⟨f, ?_, hdata⟩
    have hle := byteLength_le d
    rw [Frame.fromDatapoint, Frame.fromValue, if_neg (by omega), hf]
    rfl
  cases d with
  | b1 d =>
    have hlength : StandardFrame.setLength p ⟨valueBuf [0 ||| (d.data &&& 0x1)] (by simp)⟩ 9 =
        .ok (⟨⟨[0x90, 0, 0, 0, 0, 1, 0, 0 ||| (d.data &&& 0x1), 0], by simp [maxBlockSize]⟩⟩, .ok ()) := by
      cases p <;> rfl
    refine ⟨_, fromValue_of_steps rfl hlength, ?_⟩
    show [0x90, 0, 0, 0, 0, 1, 0, 0 ||| (d.data &&& 0x1), 0] = _
    rw [UInt8.zero_or]
    rfl
  | b2 d =>
    have hlength : StandardFrame.setLength p ⟨valueBuf [0 ||| (d.data &&& 0x3)] (by simp)⟩ 9 =
        .ok (⟨⟨[0x90, 0, 0, 0, 0, 1, 0, 0 ||| (d.data &&& 0x3), 0], by simp [maxBlockSize]⟩⟩, .ok ()) := by
      cases p <;> rfl
    refine ⟨_, fromValue_of_steps rfl hlength, ?_⟩
    show [0x90, 0, 0, 0, 0, 1, 0, 0 ||| (d.data &&& 0x3), 0] = _
    rw [UInt8.zero_or]
    rfl
  | u8 d =>
    have hlength : StandardFrame.setLength p ⟨valueBuf [0, d.data] (by simp)⟩ 10 =
        .ok (⟨⟨[0x90, 0, 0, 0, 0, 2, 0, 0, d.data, 0], by simp [maxBlockSize]⟩⟩, .ok ()) := by
      cases p <;> rfl
    exact ⟨_, fromValue_of_steps rfl hlength, rfl⟩

end EmbassyKnx
