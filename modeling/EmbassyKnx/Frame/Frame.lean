import EmbassyKnx.Frame.Layout

/-!
# `enum Frame`

`Frame` of `src/frame.rs` (lines 437–599): a frame of either layout. Every
method dispatches to the layout's own; the definitions below spell this out
once, in `Frame.read` and `Frame.write`.
-/

namespace EmbassyKnx

open Rust

/-- `Frame` (line 438). -/
inductive Frame
  | standard (f : StandardFrame)
  | extended (f : ExtendedFrame)
  deriving DecidableEq, Repr

namespace Frame

/-- `match self { Self::Standard(f) => f.get(), Self::Extended(f) => f.get() }`. -/
def read {α : Type} (get : {T : Type} → [FrameReader T] → T → α) : Frame → α
  | .standard f => get f
  | .extended f => get f

/-- `match self { Self::Standard(f) => f.set(..), Self::Extended(f) => f.set(..) }`. -/
def write (set : {T : Type} → [FrameWriter T] → T → Panicking T) : Frame → Panicking Frame
  | .standard f => return .standard (← set f)
  | .extended f => return .extended (← set f)

/-- `data` (line 444). -/
def data (f : Frame) : List UInt8 := f.read FrameReader.data

/-- `length` (line 450). -/
def length (p : Profile) (f : Frame) : Panicking UInt8 := f.read (FrameReader.length p)

/-- `src_addr` (line 456). -/
def srcAddr (f : Frame) : Panicking IndividualAddress := f.read FrameReader.srcAddr

/-- `dst_addr` (line 462). -/
def dstAddr (f : Frame) : Panicking Address := f.read FrameReader.dstAddr

/-- `hop_count` (line 468). -/
def hopCount (f : Frame) : Panicking UInt8 := f.read FrameReader.hopCount

/-- `priority` (line 474). -/
def priority (f : Frame) : Panicking Priority := f.read FrameReader.priority

/-- `repeated` (line 480). -/
def repeated (f : Frame) : Panicking Repeated := f.read FrameReader.repeated

/-- `tpci` (line 486). -/
def tpci (f : Frame) (bits : TpciBits) : Panicking UInt8 := f.read (FrameReader.tpci · bits)

/-- `tpci_seq` (line 492). -/
def tpciSeq (f : Frame) : Panicking UInt8 := f.read FrameReader.tpciSeq

/-- `apci` (line 498). -/
def apci (f : Frame) (bits : ApciBits) : Panicking UInt16 := f.read (FrameReader.apci · bits)

/-- `checksum` (line 510). -/
def checksum (f : Frame) : UInt8 := f.read FrameReader.checksum

theorem checksum_eq (f : Frame) : f.checksum = ~~~Octets.xorAll f.data := by
  cases f with
  | standard f => rfl
  | extended f => rfl

/-- `set_src_addr` (line 528). -/
def setSrcAddr (f : Frame) (srcAddr : IndividualAddress) : Panicking Frame :=
  f.write (FrameWriter.setSrcAddr · srcAddr)

/-- `set_dst_addr` (line 534). -/
def setDstAddr (f : Frame) (dstAddr : Address) : Panicking Frame :=
  f.write (FrameWriter.setDstAddr · dstAddr)

/-- `set_priority` (line 540). -/
def setPriority (f : Frame) (priority : Priority) : Panicking Frame :=
  f.write (FrameWriter.setPriority · priority)

/-- `set_hop_count` (line 546). -/
def setHopCount (f : Frame) (hopCount : UInt8) : Panicking Frame :=
  f.write (FrameWriter.setHopCount · hopCount)

/-- `set_tpci` (line 552). -/
def setTpci (f : Frame) (bits : TpciBits) (val : UInt8) : Panicking Frame :=
  f.write (FrameWriter.setTpci · bits val)

/-- `set_tpci_seq` (line 558). -/
def setTpciSeq (f : Frame) (val : UInt8) : Panicking Frame :=
  f.write (FrameWriter.setTpciSeq · val)

/-- `set_apci` (line 564). -/
def setApci (f : Frame) (bits : ApciBits) (val : UInt16) : Panicking Frame :=
  f.write (FrameWriter.setApci · bits val)

/-- `try_from` (line 591). -/
def tryFrom (p : Profile) (block : Bool) : Frame → Panicking (FrameResult Frame)
  | .standard f => return (← FrameWriter.tryFrom p block f).map .standard
  | .extended f => return (← FrameWriter.tryFrom p block f).map .extended

end Frame

end EmbassyKnx
