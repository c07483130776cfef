import EmbassyKnx.Frame.Types

/-!
# `FrameReader`, `FrameWriter` and the two frame layouts

Models of the traits of `src/frame.rs` (lines 155–312) and of their
implementations `StandardFrame` (lines 314–375) and `ExtendedFrame`
(lines 377–435). A trait is a class; its provided methods and provided
constants are definitions over the class. Mutating methods return the frame
they leave behind, also when they fail. `FRAME_POOL.alloc` is an argument:
`block` says whether a block is free.

The provided constants are the trait's own: neither implementation overrides
one of them, so both layouts share `lgField = 5`.
-/

namespace EmbassyKnx

open Rust Heapless Octets

/-- The required constants of `trait FrameReader` (lines 157–168). -/
class FrameLayout (T : Type) where
  ctrlOffset : ℕ
  atField : ℕ
  hopCountField : ℕ
  maxFrameSize : ℕ
  minFrameSize : ℕ

namespace FrameLayout

variable (T : Type) [FrameLayout T]

/-! ## Provided constants (lines 156–166) -/

/-- `CTRL`. -/
def ctrl : ℕ := 0

/-- `LG_FIELD`. -/
def lgField : ℕ := 5

/-- `APCI_BASE_SIZE`. -/
def apciBaseSize : ℕ := 1

/-- `SRC_ADDR_OFFSET`. -/
def srcAddrOffset : ℕ := ctrlOffset T + 0

/-- `DST_ADDR_OFFSET`. -/
def dstAddrOffset : ℕ := ctrlOffset T + 2

/-- `HEADER_LENGTH`. -/
def headerLength : ℕ := ctrlOffset T + 6

/-- `APCI_OFFSET`. -/
def apciOffset : ℕ := headerLength T - 1

/-- `TPCI_OFFSET`. -/
def tpciOffset : ℕ := headerLength T - 1

end FrameLayout

open FrameLayout

/-- The required methods of `trait FrameReader` (line 155). -/
class FrameReader (T : Type) extends FrameLayout T where
  /-- The block behind `data()`. -/
  buf : T → FrameVec
  /-- `length()`. -/
  length : Profile → T → Panicking UInt8

namespace FrameReader

variable {T : Type} [FrameReader T]

/-! ## Provided methods (lines 170–224) -/

/-- `data`. -/
def data (f : T) : List UInt8 := (buf f).toList

/-- `frame_type`. -/
def frameType (f : T) : Panicking FrameType := do
  return .ofU8 ((← index (data f) ctrl) >>> 7)

/-- `addr_type`. -/
def addrType (f : T) : Panicking AddressType := do
  return .ofU8 ((← index (data f) (atField T)) >>> 7)

/-- `src_addr`. -/
def srcAddr (f : T) : Panicking IndividualAddress := do
  IndividualAddress.ofSlice (← sliceFrom (data f) (srcAddrOffset T))

/-- `dst_addr`. -/
def dstAddr (f : T) : Panicking Address := do
  let dstAddr ← sliceFrom (data f) (dstAddrOffset T)
  match ← addrType f with
  | .group => return .group (← GroupAddress.ofSlice dstAddr)
  | .individual => return .individual (← IndividualAddress.ofSlice dstAddr)

/-- `hop_count`. -/
def hopCount (f : T) : Panicking UInt8 := do
  return ((← index (data f) (hopCountField T)) >>> 4) &&& 0x7

/-- `priority`. -/
def priority (f : T) : Panicking Priority := do
  return .ofU8 (((← index (data f) ctrl) >>> 2) &&& 0x3)

/-- `repeated`. -/
def repeated (f : T) : Panicking Repeated := do
  return .ofU8 (((← index (data f) ctrl) >>> 5) &&& 0x1)

/-- `tpci`. -/
def tpci (f : T) (bits : TpciBits) : Panicking UInt8 := do
  match bits with
  | .six => return (← index (data f) (tpciOffset T)) >>> 2
  | .eight => index (data f) (tpciOffset T)

/-- `tpci_seq`. -/
def tpciSeq (f : T) : Panicking UInt8 := do
  return ((← index (data f) (tpciOffset T)) >>> 2) &&& 0x7

/-- `apci`. -/
def apci (f : T) (bits : ApciBits) : Panicking UInt16 := do
  let hi ← index (data f) (apciOffset T)
  let lo ← index (data f) (apciOffset T + 1)
  let apci := ((hi.toUInt16 &&& 0x3) <<< 8) ||| lo.toUInt16
  match bits with
  | .four => return apci >>> 6
  | .ten => return apci

/-- `apdu_data`. -/
def apduData (p : Profile) (f : T) : Panicking (List UInt8) := do
  slice (data f) (apciOffset T + 1) (← length p f).toNat

/-- `checksum`. -/
def checksum (f : T) : UInt8 := ~~~xorAll (data f)

end FrameReader

open FrameReader

/-- The required items of `trait FrameWriter` (line 236). `ofBuf` is the tuple
    constructor, the inverse of `buf`. -/
class FrameWriter (T : Type) extends FrameReader T where
  ofBuf : FrameVec → T
  buf_ofBuf : ∀ v, buf (ofBuf v) = v
  /-- `set_length(length)`: the frame it leaves and its result. -/
  setLength : Profile → T → ℕ → Panicking (T × FrameResult Unit)
  /-- `set_frame_type()`. -/
  setFrameType : T → Panicking T
  /-- `new(size)`; `block` is the outcome of `FRAME_POOL.alloc`. -/
  new : Profile → (block : Bool) → (size : ℕ) → Panicking (FrameResult T)

namespace FrameWriter

variable {T : Type} [FrameWriter T]

/-- `self.mut_data()[i] = f(self.mut_data()[i])`. -/
def modifyData (f : T) (i : ℕ) (g : UInt8 → UInt8) : Panicking T := do
  return ofBuf (← (buf f).modifyAt i g)

/-- `set_addr_type` (line 241). -/
def setAddrType (f : T) (addrType : AddressType) : Panicking T :=
  modifyData f (atField T) (· ||| (addrType.toU8 <<< 7))

/-- `set_priority` (line 245). -/
def setPriority (f : T) (priority : Priority) : Panicking T :=
  modifyData f ctrl (· ||| (priority.toU8 <<< 2))

/-- `set_repeated` (line 249). -/
def setRepeated (f : T) (r : Repeated) : Panicking T :=
  modifyData f ctrl (· ||| (r.toU8 <<< 5))

/-- `set_hop_count` (line 253). -/
def setHopCount (f : T) (hopCount : UInt8) : Panicking T :=
  modifyData f (hopCountField T) (· ||| ((hopCount &&& 0x7) <<< 4))

/-- `set_src_addr` (line 256). -/
def setSrcAddr (f : T) (srcAddr : IndividualAddress) : Panicking T := do
  return ofBuf (← writeU16 srcAddr.addr (buf f) (srcAddrOffset T))

/-- `set_dst_addr` (line 259). -/
def setDstAddr (f : T) (dstAddr : Address) : Panicking T := do
  match dstAddr with
  | .individual addr =>
    let f ← setAddrType f .individual
    return ofBuf (← writeU16 addr.addr (buf f) (dstAddrOffset T))
  | .group addr =>
    let f ← setAddrType f .group
    return ofBuf (← writeU16 addr.addr (buf f) (dstAddrOffset T))

/-- `set_tpci` (line 289). -/
def setTpci (f : T) (bits : TpciBits) (val : UInt8) : Panicking T :=
  match bits with
  | .six => modifyData f (tpciOffset T) (· ||| (val <<< 2))
  | .eight => modifyData f (tpciOffset T) fun _ => val

/-- `set_tpci_seq` (line 297). -/
def setTpciSeq (f : T) (val : UInt8) : Panicking T :=
  modifyData f (tpciOffset T) (· ||| ((val &&& 0x7) <<< 2))

/-- `set_apci` (line 300). -/
def setApci (f : T) (bits : ApciBits) (val : UInt16) : Panicking T := do
  match bits with
  | .four =>
    let f ← modifyData f (apciOffset T) (· ||| (val >>> 2).toUInt8)
    modifyData f (apciOffset T + 1) (· ||| ((val &&& 0x3) <<< 6).toUInt8)
  | .ten =>
    let f ← modifyData f (apciOffset T) (· ||| (val >>> 8).toUInt8)
    modifyData f (apciOffset T + 1) (· ||| (val &&& 0xFF).toUInt8)

/-- `try_from(value)` (lines 368–375, 428–435): a copy of `value` in a block of
    its own. -/
def tryFrom (p : Profile) (block : Bool) (value : T) : Panicking (FrameResult T) := do
  let frame : FrameResult T ← new p block (← length p value).toNat
  match frame with
  | .error e => return .error e
  | .ok newFrame => return .ok (ofBuf (← (buf newFrame).cloneFromSlice (data value)))

end FrameWriter

/-! ## `StandardFrame` -/

/-- `StandardFrame` (line 314). -/
structure StandardFrame where
  buf : FrameVec
  deriving DecidableEq, Repr

instance : FrameLayout StandardFrame where
  ctrlOffset := 1
  atField := 5
  hopCountField := 5
  maxFrameSize := 24
  minFrameSize := 8

instance : FrameReader StandardFrame where
  buf := StandardFrame.buf
  length p f := do
    let lg ← index f.buf.toList lgField
    u8Add p (← u8Add p (lg &&& 0xF) (UInt8.ofNat (headerLength StandardFrame))) 1

namespace StandardFrame

/-- `set_length` (line 335). -/
def setLength (p : Profile) (f : StandardFrame) (length : ℕ) :
    Panicking (StandardFrame × FrameResult Unit) := do
  if length ≤ maxFrameSize StandardFrame ∨ length ≥ minFrameSize StandardFrame then
    let headerLength := UInt8.ofNat (headerLength StandardFrame)
    let lg ← u8Sub p (← u8Sub p (UInt8.ofNat length) headerLength) 1
    let buf ← f.buf.modifyAt lgField (· ||| (lg &&& 0xF))
    match buf.resizeDefault length with
    | some buf => return (⟨buf⟩, .ok ())
    | none => return (⟨buf⟩, .error .invalidLength)
  else return (f, .error .invalidLength)

/-- `set_frame_type` (line 346). -/
def setFrameType (f : StandardFrame) : Panicking StandardFrame := do
  return ⟨← f.buf.modifyAt ctrl (· ||| 0x90)⟩

/-- `new` (line 349). -/
def new (p : Profile) (block : Bool) (size : ℕ) : Panicking (FrameResult StandardFrame) := do
  if block then
    match (Vec.empty : FrameVec).resizeDefault size with
    | none => return .error .invalidLength
    | some buf =>
      match ← setLength p ⟨buf⟩ size with
      | (_, .error e) => return .error e
      | (frame, .ok ()) => return .ok (← setFrameType frame)
  else return .error .outOfMemory

end StandardFrame

instance : FrameWriter StandardFrame where
  ofBuf := StandardFrame.mk
  buf_ofBuf _ := rfl
  setLength := StandardFrame.setLength
  setFrameType := StandardFrame.setFrameType
  new := StandardFrame.new

/-! ## `ExtendedFrame` -/

/-- `ExtendedFrame` (line 377). -/
structure ExtendedFrame where
  buf : FrameVec
  deriving DecidableEq, Repr

instance : FrameLayout ExtendedFrame where
  ctrlOffset := 2
  atField := 1
  hopCountField := 1
  maxFrameSize := 263
  minFrameSize := 9

instance : FrameReader ExtendedFrame where
  buf := ExtendedFrame.buf
  length p f := do
    let lg ← index f.buf.toList lgField
    u8Add p (← u8Add p lg (UInt8.ofNat (headerLength ExtendedFrame))) 1

namespace ExtendedFrame

/-- `set_length` (line 398). The stored length is taken from the block as it is
    before the resize. -/
def setLength (p : Profile) (f : ExtendedFrame) (length : ℕ) :
    Panicking (ExtendedFrame × FrameResult Unit) := do
  if length ≤ maxFrameSize ExtendedFrame ∨ length ≥ minFrameSize ExtendedFrame then
    let headerLength := UInt8.ofNat (headerLength ExtendedFrame)
    let lg ← u8Sub p (← u8Sub p (UInt8.ofNat f.buf.toList.length) headerLength) 1
    let buf ← f.buf.setAt lgField lg
    match buf.resizeDefault length with
    | some buf => return (⟨buf⟩, .ok ())
    | none => return (⟨buf⟩, .error .invalidLength)
  else return (f, .error .invalidLength)

/-- `set_frame_type` (line 409). -/
def setFrameType (f : ExtendedFrame) : Panicking ExtendedFrame := do
  return ⟨← f.buf.modifyAt ctrl (· ||| 0x10)⟩

/-- `new` (line 412). -/
def new (_p : Profile) (block : Bool) (size : ℕ) : Panicking (FrameResult ExtendedFrame) := do
  if block then
    match (Vec.empty : FrameVec).resizeDefault size with
    | none => return .error .invalidLength
    | some buf => return .ok ⟨buf⟩
  else return .error .outOfMemory

end ExtendedFrame

instance : FrameWriter ExtendedFrame where
  ofBuf := ExtendedFrame.mk
  buf_ofBuf _ := rfl
  setLength := ExtendedFrame.setLength
  setFrameType := ExtendedFrame.setFrameType
  new := ExtendedFrame.new

end EmbassyKnx
