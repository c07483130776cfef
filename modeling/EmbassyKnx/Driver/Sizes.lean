import EmbassyKnx.Driver.Echo

/-!
# Transmission of frames of any size

A frame has up to 264 octets, but a transmit command of the chip has room for six
bits of an index: the octets from 64 on are announced with `U_L_DATA_OFFSET_REQ`,
which `send_frame` never sends. The command for octet 64 is an unknown one, and
the end command of a frame of 65 octets puts the checksum at index 0.

* `services_storeCommands`: what the chip makes of a frame of up to 64 octets.
* `sendFrame_transmits_iff`: which frames the chip transmits as they are.
-/

namespace EmbassyKnx.Driver

open Rust Octets Async

/-! ## The chip's side -/

/-- A transmit service: store an octet, or store it and transmit up to there. -/
inductive Service
  | data (index : ℕ) (octet : UInt8)
  | last (index : ℕ) (octet : UInt8)
  deriving DecidableEq, Repr

/-- The services in a stream of commands: `10iiiiii` stores its operand, `01iiiiii` is the last
    one, `U_L_DATA_OFFSET_REQ` (`0x08` to `0x0C`) sets the upper bits of the indices behind
    it. `none` if there is another command. -/
def services (offset : ℕ) : List UInt8 → Option (List Service)
  | [] => some []
  | [command] => if 0x08 ≤ command ∧ command ≤ 0x0C then some [] else none
  | command :: octet :: stream =>
    if 0x08 ≤ command ∧ command ≤ 0x0C then
      services (64 * (command - 0x08).toNat) (octet :: stream)
    else if command &&& 0xC0 = 0x80 then
      (services offset stream).map (.data (offset + (command &&& 0x3F).toNat) octet :: ·)
    else if command &&& 0xC0 = 0x40 then
      (services offset stream).map (.last (offset + (command &&& 0x3F).toNat) octet :: ·)
    else none

/-- The frames that the services put on the bus. -/
def transmitted (buffer : ℕ → UInt8) : List Service → List (List UInt8)
  | [] => []
  | .data index octet :: rest => transmitted (Function.update buffer index octet) rest
  | .last index octet :: rest =>
    (List.range (index + 1)).map (Function.update buffer index octet) ::
      transmitted (Function.update buffer index octet) rest

/-- A data service for each octet, from index `lo` on. -/
def dataServices (lo : ℕ) : List UInt8 → List Service
  | [] => []
  | octet :: octets => .data lo octet :: dataServices (lo + 1) octets

/-- One service for each octet of a frame, the last one with the checksum. -/
def frameServices (octets : List UInt8) (checksum : UInt8) : List Service :=
  dataServices 0 octets ++ [.last octets.length checksum]

section Chip

variable {i lo : ℕ} {octet : UInt8} {octets rest : List UInt8}

theorem services_store (hi : i < 64) (octet : UInt8) (rest : List UInt8) :
    services 0 ((0x80 + UInt8.ofNat i) :: octet :: rest) =
      (services 0 rest).map (.data i octet :: ·) := by
  have hcmd : ∀ i < 64, ¬(0x08 ≤ 0x80 + UInt8.ofNat i ∧ 0x80 + UInt8.ofNat i ≤ 0x0C) ∧
      (0x80 + UInt8.ofNat i) &&& 0xC0 = 0x80 ∧
      ((0x80 + UInt8.ofNat i) &&& 0x3F).toNat = i := by decide +kernel
  obtain ⟨hoffset, hstore, hindex⟩ := hcmd i hi
  rw [services, if_neg hoffset, if_pos hstore, hindex, Nat.zero_add]

/-- The end command for index 64 has the index 0. -/
theorem services_end (hi : i ≤ 64) (octet : UInt8) :
    services 0 [0x40 ||| UInt8.ofNat i, octet] = some [.last (i % 64) octet] := by
  have hcmd : ∀ i < 65, ¬(0x08 ≤ 0x40 ||| UInt8.ofNat i ∧ 0x40 ||| UInt8.ofNat i ≤ 0x0C) ∧
      ¬(0x40 ||| UInt8.ofNat i) &&& 0xC0 = 0x80 ∧ (0x40 ||| UInt8.ofNat i) &&& 0xC0 = 0x40 ∧
      ((0x40 ||| UInt8.ofNat i) &&& 0x3F).toNat = i % 64 := by decide +kernel
  obtain ⟨hoffset, hstore, hend, hindex⟩ := hcmd i (by omega)
  rw [services, if_neg hoffset, if_neg hstore, if_pos hend, hindex, Nat.zero_add, services]
  rfl

theorem services_storeCommands_append (octets rest : List UInt8) (h : lo + octets.length ≤ 64) :
    services 0 (storeCommands lo octets ++ rest) =
      (services 0 rest).map (dataServices lo octets ++ ·) := by
  induction octets generalizing lo with
  | nil =>
    rw [storeCommands, List.nil_append, dataServices]
    simp
  | cons octet octets ih =>
    simp only [List.length_cons] at h
    rw [storeCommands, List.cons_append, List.cons_append, services_store (by omega),
      ih (by omega), Option.map_map, dataServices]
    rfl

/-- What the chip makes of a frame of up to 64 octets; the end command of one more wraps
    around. -/
theorem services_storeCommands (octets : List UInt8) (checksum : UInt8) (h : octets.length ≤ 64) :
    services 0 (storeCommands 0 octets ++ [0x40 ||| UInt8.ofNat octets.length, checksum]) =
      some (dataServices 0 octets ++ [.last (octets.length % 64) checksum]) := by
  rw [services_storeCommands_append octets _ (by omega), services_end h]
  rfl

/-- The command for octet 64 is no transmit service. -/
theorem services_overflow (octets rest : List UInt8) (h : octets.length = 64) :
    services 0 (storeCommands 0 octets ++ 0xC0 :: rest) = none := by
  rw [services_storeCommands_append octets _ (by omega)]
  cases rest with
  | nil => rfl
  | cons octet rest => rfl

theorem transmitted_dataServices (buffer : ℕ → UInt8) (octets : List UInt8) (rest : List Service) :
    transmitted buffer (dataServices lo octets ++ rest) =
      transmitted (storedAt buffer lo octets) rest := by
  induction octets generalizing buffer lo with
  | nil => rw [dataServices, List.nil_append, storedAt_nil]
  | cons octet octets ih =>
    rw [dataServices, List.cons_append, transmitted, ih, storedAt_cons]

/-- One service for each octet puts the frame on the bus, of any size. -/
theorem transmitted_frameServices (buffer : ℕ → UInt8) (octets : List UInt8) (checksum : UInt8) :
    transmitted buffer (frameServices octets checksum) = [octets ++ [checksum]] := by
  rw [frameServices, transmitted_dataServices, transmitted, map_range_storedAt, transmitted]

end Chip

/-! ## The first octets of a long frame -/

/-- On a UART that takes every octet, `x` writes at least `octets`, however it ends. -/
def Begins {α : Type} (x : Task α) (octets : List UInt8) : Prop :=
  ∀ w, WritesSucceed w → w.tx ++ octets <+: (exec uart x w).world.tx

/-- What is written stays written. -/
theorem prefix_exec_tx {α : Type} (x : Task α) (w : Line) : w.tx <+: (exec uart x w).world.tx := by
  induction x generalizing w with
  | done a => exact List.prefix_rfl
  | panicked why => exact List.prefix_rfl
  | perform o resume ih =>
    have hop : ∀ r w', uart o w = some (r, w') → w.tx <+: w'.tx := by
      intro r w' h
      cases o with
      | write octet =>
        simp only [uart] at h
        split at h
        · cases h
          exact List.prefix_rfl
        · cases h
          exact List.prefix_append _ _
      | alloc => cases h; exact List.prefix_rfl
      | read =>
        obtain ⟨q, -, heq⟩ := Option.map_eq_some_iff.mp h
        cases heq
        exact List.prefix_rfl
      | readWithTimeout => cases h; exact List.prefix_rfl
      | selectReadOrRequest =>
        simp only [uart] at h
        split at h
        · cases h
        · cases h; exact List.prefix_rfl
        · cases h; exact List.prefix_rfl
        · split at h
          · cases h; exact List.prefix_rfl
          · cases h; exact List.prefix_rfl
      | frameChannelRxReceive =>
        simp only [uart] at h
        split at h
        · cases h
        · cases h; exact List.prefix_rfl
      | frameChannelTxSend frame => cases h; exact List.prefix_rfl
      | conSignal status => cases h; exact List.prefix_rfl
    rw [exec]
    cases hreply : uart o w with
    | none => exact List.prefix_rfl
    | some rw' => exact (hop rw'.1 rw'.2 hreply).trans (ih rw'.1 rw'.2)

section Begins

variable {α : Type} {x : Task (Except TransferError Unit)} {y : Task (Except TransferError α)}
  {xs ys : List UInt8}

theorem Writes.begins (hx : Writes x xs) : Begins x xs := by
  intro w hw
  obtain ⟨w', hrun, -, htx⟩ := hx w hw
  rw [hrun, ← htx]
  exact List.prefix_rfl

theorem begins_bind {β : Type} {z : Task β} {f : β → Task α} (hz : Begins z xs) :
    Begins (z >>= f) xs := by
  intro w hw
  rw [exec_bind]
  cases hrun : exec uart z w with
  | returned a w' =>
    have hfirst := hz w hw
    rw [hrun] at hfirst
    exact hfirst.trans (prefix_exec_tx (f a) w')
  | panicked why w' =>
    have hfirst := hz w hw
    rwa [hrun] at hfirst
  | pending w' =>
    have hfirst := hz w hw
    rwa [hrun] at hfirst

theorem begins_tryThen_left (hx : Begins x xs) : Begins (tryThen x y) xs := begins_bind hx

theorem begins_tryThen (hx : Writes x xs) (hy : Begins y ys) : Begins (tryThen x y) (xs ++ ys) := by
  intro w hw
  obtain ⟨w', hrun, hw', htx⟩ := hx w hw
  rw [tryThen, exec_bind, hrun, ← List.append_assoc, ← htx]
  exact hy w' hw'

theorem begins_lift {β : Type} {z : Panicking β} {b : β} {f : β → Task α} (hz : z = .ok b)
    (hf : Begins (f b) xs) : Begins (liftM z >>= f) xs := by
  subst hz
  exact hf

end Begins

/-- The loop over a long frame gets to the command for octet 64. -/
theorem begins_sendOctets (p : Profile) (buf : List UInt8) (lo n : ℕ) (hlo : lo ≤ 64)
    (hn : 64 < lo + n) (hlen : 64 ≤ buf.length) :
    Begins (forRange (sendOctet p buf) lo n)
      (storeCommands lo ((buf.drop lo).take (64 - lo)) ++ [0xC0]) := by
  induction n generalizing lo with
  | zero => omega
  | succ n ih =>
    by_cases heq : lo = 64
    · subst heq
      have hcmd : u8Add p Commands.uLDataContReq (UInt8.ofNat 64) = .ok 0xC0 :=
        u8Add_of_lt p (by decide)
      rw [Nat.sub_self, List.take_zero, storeCommands, List.nil_append]
      exact begins_tryThen_left (begins_lift hcmd
        (begins_tryThen_left (writes_writeOctet _).begins))
    · have hlt : lo < buf.length := by omega
      rw [List.drop_eq_getElem_cons hlt, show 64 - lo = 64 - (lo + 1) + 1 by omega,
        List.take_succ_cons, ← octetAt_eq_getElem hlt, storeCommands, List.cons_append,
        List.cons_append]
      exact begins_tryThen (writes_sendOctet p hlt (by omega))
        (ih (lo + 1) (by omega) (by omega))

/-- A frame of more than 65 octets begins with 64 store commands and an unknown one. -/
theorem begins_writeFrame (p : Profile) {buf : List UInt8} (checksum : UInt8)
    (hlen : 65 < buf.length) :
    Begins (writeFrame p buf checksum) (storeCommands 0 (buf.take 64) ++ [0xC0]) := by
  have hcons : buf.take 64 = octetAt buf 0 :: (buf.drop 1).take (64 - 1) := by
    rw [octetAt_eq_getElem (by omega), ← List.take_succ_cons,
      ← List.drop_eq_getElem_cons (by omega), List.drop_zero]
  have hmiddle := begins_sendOctets p buf 1 (buf.length - 2) (by decide) (by omega) (by omega)
  rw [hcons, storeCommands, List.cons_append, List.cons_append]
  exact begins_tryThen (writes_writeOctet _) (begins_lift (index_eq_octetAt (by omega))
    (begins_tryThen (writes_writeOctet _) (begins_tryThen_left hmiddle)))

/-! ## The transmission -/

/-- The chip transmits the frame as it is: `send_frame` stays within `u8`, and what it writes is
    one service for each octet, the last one with the checksum. -/
structure TransmitsWhole (p : Profile) (f : Frame) (w : Line) : Prop where
  fits : NeverPanics (writeFrame .dev f.data f.checksum)
  addressed : ∃ sent, (exec uart (sendFrame p f) w).world.tx = w.tx ++ sent ∧
    services 0 sent = some (frameServices f.data.dropLast f.checksum)
  onBus : ∀ buffer, transmitted buffer (frameServices f.data.dropLast f.checksum) = [wireOf f.data]

section TransmitsWhole

variable {p : Profile} {f : Frame} {w : Line}

theorem transmitsWhole_of_short (hsized : f.Sized) (hlt : f.data.length ≤ 64)
    (hlast : octetAt f.data (f.data.length - 1) = 0) (hw : WritesSucceed w) :
    TransmitsWhole p f w := by
  have hlen : 2 ≤ f.data.length := hsized.two_le
  have hdrop : f.data.dropLast.length = f.data.length - 1 := List.length_dropLast
  refine ⟨neverPanics_writeFrame _ (by omega) (fun _ => by omega), ?_, ?_⟩
  · refine ⟨_, exec_sendFrame_tx p f hw hlen (by omega), ?_⟩
    rw [services_storeCommands _ _ (by omega), Nat.mod_eq_of_lt (by omega), frameServices]
  · intro buffer
    rw [transmitted_frameServices, checksum_of_last_zero (by omega) hlast, wireOf]

/-- Of a frame of 65 octets the chip gets every octet, but the checksum at index 0. -/
theorem services_of_65 (hlen : f.data.length = 65) {sent : List UInt8} (hw : WritesSucceed w)
    (hsent : (exec uart (sendFrame p f) w).world.tx = w.tx ++ sent) :
    services 0 sent = some (dataServices 0 f.data.dropLast ++ [.last 0 f.checksum]) := by
  have hdrop : f.data.dropLast.length = 64 := by rw [List.length_dropLast, hlen]
  rw [exec_sendFrame_tx p f hw (by omega) (by omega)] at hsent
  rw [← List.append_cancel_left hsent, services_storeCommands _ _ (by omega), hdrop]

/-- Of a longer frame it gets an unknown command. -/
theorem services_of_long (hlen : 65 < f.data.length) {sent : List UInt8} (hw : WritesSucceed w)
    (hsent : (exec uart (sendFrame p f) w).world.tx = w.tx ++ sent) : services 0 sent = none := by
  have hbegins : Begins (sendFrame p f) _ :=
    begins_tryThen_left (begins_writeFrame p f.checksum hlen)
  obtain ⟨rest, hrest⟩ := hbegins w hw
  rw [hsent, List.append_assoc, List.append_assoc] at hrest
  rw [← List.append_cancel_left hrest]
  exact services_overflow _ _ (by rw [List.length_take]; omega)

theorem not_transmitsWhole_of_long (hlt : 64 < f.data.length) (hw : WritesSucceed w) :
    ¬TransmitsWhole p f w := by
  rintro ⟨-, ⟨sent, hsent, hservices⟩, -⟩
  by_cases h65 : f.data.length = 65
  · rw [services_of_65 h65 hw hsent, frameServices, List.length_dropLast, h65] at hservices
    have hlast := List.append_cancel_left (Option.some.inj hservices)
    simp at hlast
  · rw [services_of_long (by omega) hw hsent] at hservices
    simp at hservices

/-- The chip transmits a frame as it is iff it has up to 64 octets. -/
theorem sendFrame_transmits_iff (p : Profile) {f : Frame} {w : Line} (hsized : f.Sized)
    (hlast : octetAt f.data (f.data.length - 1) = 0) (hw : WritesSucceed w) :
    TransmitsWhole p f w ↔ f.data.length ≤ 64 := by
  constructor
  · intro h
    by_contra hlt
    exact not_transmitsWhole_of_long (by omega) hw h
  · intro hlt
    exact transmitsWhole_of_short hsized hlt hlast hw

/-- An extended frame with 57 octets behind the APCI. -/
def longFrame : Frame := .extended ⟨⟨[0x30, 0xE0, 0x11, 0x01, 0x09, 0x39, 0x39, 0x00, 0x80] ++
  List.replicate 57 0, by decide⟩⟩

theorem sendFrame_transmits_iff_longFrame :
    TransmitsWhole .release longFrame (.fresh []) ↔ longFrame.data.length ≤ 64 :=
  sendFrame_transmits_iff .release (by decide) (by decide) (fun _ => rfl)

/-- Its 66 octets are within the bounds of the type, and its length field is right. -/
theorem longFrame_not_transmits :
    longFrame.Sized ∧ longFrame.data.length = 66 ∧ longFrame.length .dev = .ok 66 ∧
      octetAt longFrame.data 65 = 0 ∧ ∀ p, ¬TransmitsWhole p longFrame (.fresh []) :=
  ⟨by decide, rfl, rfl, by decide, fun _ => not_transmitsWhole_of_long (by decide) fun _ => rfl⟩

end TransmitsWhole

end EmbassyKnx.Driver
