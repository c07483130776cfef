import EmbassyKnx.Common.Heapless
import EmbassyKnx.Common.Octets

/-!
# Frame data types

The types at the top of `src/frame.rs` (lines 7–153): frame errors, address
kinds, priorities, individual and group addresses, and the block a frame lives
in. `unchecked_transmute_from` is modelled by a total function: it is applied
only to values its comment in the source lists.

* `IndividualAddress.ofSlice_octets`, `GroupAddress.ofSlice_octets`: an address
  is read back from the two octets it is written as.
-/

namespace EmbassyKnx

open Rust Heapless

/-- `MAX_FRAME_SIZE` (`ncn51_driver.rs` line 95): the capacity of a frame block. -/
def maxBlockSize : ℕ := 264

/-- `Vec<u8, MAX_FRAME_SIZE>`, the contents of one block of `FRAME_POOL`. -/
abbrev FrameVec : Type := Vec UInt8 maxBlockSize

/-- `FrameType` (line 9). -/
inductive FrameType
  | standard
  | extended
  deriving DecidableEq, Repr

/-- `FrameType::unchecked_transmute_from`, on the values 0 and 1. -/
def FrameType.ofU8 (n : UInt8) : FrameType := if n = 1 then .standard else .extended

/-- `FrameError` (line 15). -/
inductive FrameError
  | invalidLength
  | outOfMemory
  | checksum
  | invalidTpdu (tpci : UInt8)
  deriving DecidableEq, Repr

/-- `FrameResult<T>` (line 22). -/
abbrev FrameResult (α : Type) : Type := Except FrameError α

/-- `AddressType` (line 26). -/
inductive AddressType
  | individual
  | group
  deriving DecidableEq, Repr

/-- `AddressType::into`. -/
def AddressType.toU8 : AddressType → UInt8
  | .individual => 0
  | .group => 1

/-- `AddressType::unchecked_transmute_from`, on the values 0 and 1. -/
def AddressType.ofU8 (n : UInt8) : AddressType := if n = 1 then .group else .individual

/-- `Priority` (line 33). -/
inductive Priority
  | low
  | normal
  | urgent
  | system
  deriving DecidableEq, Repr

/-- `Priority::into`. -/
def Priority.toU8 : Priority → UInt8
  | .low => 0x3
  | .normal => 0x1
  | .urgent => 0x2
  | .system => 0x0

/-- `Priority::unchecked_transmute_from`, on the values 0 to 3. -/
def Priority.ofU8 (n : UInt8) : Priority :=
  if n = 0x3 then .low else if n = 0x1 then .normal else if n = 0x2 then .urgent else .system

/-- `Repeated` (line 42). -/
inductive Repeated
  | repeated
  | notRepeated
  deriving DecidableEq, Repr

/-- `Repeated::into`. -/
def Repeated.toU8 : Repeated → UInt8
  | .repeated => 0
  | .notRepeated => 1

/-- `Repeated::unchecked_transmute_from`, on the values 0 and 1. -/
def Repeated.ofU8 (n : UInt8) : Repeated := if n = 1 then .notRepeated else .repeated

/-- `TpciBits` (line 144). -/
inductive TpciBits
  | six
  | eight
  deriving DecidableEq, Repr

/-- `ApciBits` (line 150). -/
inductive ApciBits
  | four
  | ten
  deriving DecidableEq, Repr

/-! ## Addresses -/

/-- `(buf[0] as u16) << 8 | buf[1] as u16` (lines 65, 117). -/
def u16OfSlice (buf : List UInt8) : Panicking UInt16 := do
  let hi ← index buf 0
  let lo ← index buf 1
  return (hi.toUInt16 <<< 8) ||| lo.toUInt16

/-- `buf[0] = (self.0 >> 8) as u8; buf[1] = (self.0 & 0xFF) as u8` with
    `buf = &mut data[off..]` (lines 58–59, 98–99). -/
def writeU16 (w : UInt16) (data : FrameVec) (off : ℕ) : Panicking FrameVec := do
  let data ← data.setAt off (w >>> 8).toUInt8
  data.setAt (off + 1) (w &&& 0xFF).toUInt8

/-- `IndividualAddress` (line 48). -/
structure IndividualAddress where
  addr : UInt16
  deriving DecidableEq, Repr

/-- `IndividualAddress::from_parts` (line 51). -/
def IndividualAddress.fromParts (n1 n2 n3 : UInt8) : IndividualAddress :=
  ⟨(n1.toUInt16 <<< 12) ||| (n2.toUInt16 <<< 8) ||| n3.toUInt16⟩

/-- `IndividualAddress::from(&[u8])` (line 64). -/
def IndividualAddress.ofSlice (buf : List UInt8) : Panicking IndividualAddress := do
  return ⟨← u16OfSlice buf⟩

/-- `GroupAddress` (line 88). -/
structure GroupAddress where
  addr : UInt16
  deriving DecidableEq, Repr

/-- `GroupAddress::from_parts` (line 91). -/
def GroupAddress.fromParts (n1 n2 n3 : UInt8) : GroupAddress :=
  ⟨(n1.toUInt16 <<< 11) ||| (n2.toUInt16 <<< 8) ||| n3.toUInt16⟩

/-- `GroupAddress::from(&[u8])` (line 116). -/
def GroupAddress.ofSlice (buf : List UInt8) : Panicking GroupAddress := do
  return ⟨← u16OfSlice buf⟩

/-- `Address` (line 128). -/
inductive Address
  | individual (addr : IndividualAddress)
  | group (addr : GroupAddress)
  deriving DecidableEq, Repr

/-- `Address::write` (line 134): `data[off..]` receives the address. -/
def Address.write (a : Address) (data : FrameVec) (off : ℕ) : Panicking FrameVec :=
  match a with
  | .individual a => writeU16 a.addr data off
  | .group a => writeU16 a.addr data off

/-- `crate::settings::ADDRESS` (`settings.rs` line 3). -/
def ownAddress : IndividualAddress := .fromParts 1 1 120

theorem u16OfSlice_cons_cons (hi lo : UInt8) (buf : List UInt8) :
    u16OfSlice (hi :: lo :: buf) = .ok ((hi.toUInt16 <<< 8) ||| lo.toUInt16) := rfl

/-- An address is read back from the two octets it is written as. -/
theorem u16OfSlice_octets (w : UInt16) (buf : List UInt8) :
    u16OfSlice ((w >>> 8).toUInt8 :: (w &&& 0xFF).toUInt8 :: buf) = .ok w := by
  rw [u16OfSlice_cons_cons, Octets.u16_of_octets]

theorem IndividualAddress.ofSlice_octets (a : IndividualAddress) (buf : List UInt8) :
    IndividualAddress.ofSlice ((a.addr >>> 8).toUInt8 :: (a.addr &&& 0xFF).toUInt8 :: buf) =
      .ok a := by
  rw [IndividualAddress.ofSlice, u16OfSlice_octets]; rfl

theorem GroupAddress.ofSlice_octets (a : GroupAddress) (buf : List UInt8) :
    GroupAddress.ofSlice ((a.addr >>> 8).toUInt8 :: (a.addr &&& 0xFF).toUInt8 :: buf) =
      .ok a := by
  rw [GroupAddress.ofSlice, u16OfSlice_octets]; rfl

end EmbassyKnx
