import PinProtocol.System.Board
import PinProtocol.System.ByteCounts
import PinProtocol.System.FailsafeMirror
import PinProtocol.System.Session

/-!
# Buffers — the requests of the driver and `BUFF_SIZE`

`connection_read` has room for `BUFF_SIZE` bytes, 612 on the host and 42 on the Atmega8.  The
largest request is the one of `set_failsafe_mask` with a value of 16 bits for every pin; on the
host there is room for 255 of them, on the Atmega8 for 16 (`requests_fit_iff`).

The same constant is how many bytes the firmware's own `read` waits for.  No request for 16 pins
has that many, so that no call of the driver ever gets an answer from it
(`embedded_never_answers`).  The host build answers all calls but one: a session comes to a deadlock
exactly when the program calls `reset` (`callers_deadlock_iff`).
-/

namespace PinProtocol

open Bits Control Relation

variable {α : Type}

/-! ## Sizes -/

/-- What `set_packet_header` has been called with, for data of `n` bytes. -/
structure Packet.Made (p : Packet) (cmdNo param : BitVec 8) (n : Nat) : Prop where
  header : p.header = cmdNo <<< 4 + param
  size : p.size = BitVec.ofNat 16 n
  data : p.data.length = n

theorem Packet.Made.size_le {p : Packet} {cmdNo param : BitVec 8} {n : Nat}
    (h : p.Made cmdNo param n) : p.size.toNat ≤ p.data.length := by
  rw [h.size, h.data, BitVec.toNat_ofNat]
  exact Nat.mod_le n _

theorem made_setPacketHeader {cmdNo param : BitVec 8} {n : Nat} {data : Buffer}
    (hdata : data.length = n) : (setPacketHeader cmdNo param n data).Made cmdNo param n :=
  ⟨rfl, rfl, hdata⟩

theorem maskNbPinsUsed_le {m : Mask} {n k : Nat} (h : maskNbPinsUsed m n = some k) : k ≤ n := by
  induction n generalizing k with
  | zero =>
      cases h
      exact Nat.le_refl 0
  | succ n ih =>
      rw [maskNbPinsUsed, List.range_succ, List.foldlM_append] at h
      obtain ⟨j, hj, hlast⟩ := Option.bind_eq_some_iff.mp h
      have hjn : j ≤ n := ih hj
      obtain ⟨k', hk', hk⟩ := Option.bind_eq_some_iff.mp hlast
      cases hk
      obtain ⟨used, -, rfl⟩ := Option.map_eq_some_iff.mp hk'
      split
      · exact (Nat.mod_le _ _).trans (Nat.succ_le_succ hjn)
      · exact Nat.le_succ_of_le hjn

theorem inPlace_writeValueList (offset : Nat) (values : List (BitVec 16)) (k : Nat) {width : Nat}
    (hwidth : width ≤ 16) : InPlace fun p => writeValueList p offset values k width := by
  intro p p' h
  obtain ⟨st, hfill, rfl⟩ := Option.map_eq_some_iff.mp h
  refine foldlM_keeps (μ := fun st : Buffer × Nat => st.1.length)
    (fun st i st' hturn => ?_) _ (p, offset) st hfill
  obtain ⟨q, hrest, rfl⟩ := Option.map_eq_some_iff.mp hturn
  obtain ⟨v, -, hwrite⟩ := Option.bind_eq_some_iff.mp hrest
  exact inPlace_writeBitValue _ v hwidth _ _ hwrite

theorem bits2bytesUnsigned_mod_le {a : Nat} (ha : a ≤ 2 ^ 32) :
    bits2bytesUnsigned a % 2 ^ 16 ≤ (a + 7) / 8 := by
  rcases Nat.eq_zero_or_pos a with rfl | hpos
  · rw [bits2bytesUnsigned_zero]
    norm_num
  · rw [bits2bytesUnsigned_eq hpos ha]
    have hmod := Nat.mod_le ((a - 1) / 8 + 1) (2 ^ 16)
    omega

/-! ## The requests of the calls -/

namespace DriverCall

/-- The command of the request. -/
def cmdNo : DriverCall → BitVec 8
  | genericRead .. | digitalRead _ | analogicRead _ | pwm8Read _ | pwm16Read _
  | readValueMask .. => cmdRead
  | genericWrite .. | digitalWrite .. | analogicWrite .. | pwm8Write .. | pwm16Write ..
  | writeValueMask .. => cmdWrite
  | getType _ | getTypeMask _ => cmdGetType
  | setType .. | setTypeMask .. => cmdSetType
  | getFailsafe _ | getFailsafeMask .. => cmdGetFailsafe
  | setFailsafe .. | setFailsafeMask .. => cmdSetFailsafe

/-- The type in the header of the request; requests about types and fallbacks have none. -/
def headerType : DriverCall → BitVec 8
  | genericRead _ mode | genericWrite _ mode _ _ => mode
  | digitalRead _ | digitalWrite .. => pinTypeDigital
  | analogicRead _ | analogicWrite .. => pinTypeAnalog16
  | pwm8Read _ | pwm8Write .. => pinTypePwm8
  | pwm16Read _ | pwm16Write .. => pinTypePwm16
  | readValueMask _ type | writeValueMask _ type _ => type
  | setFailsafe _ _ entry => entry.pinState
  | setFailsafeMask _ type _ _ => type
  | getType _ | getTypeMask _ | setType .. | setTypeMask .. | getFailsafe _
  | getFailsafeMask .. => 0

def kind : DriverCall → BitVec 8
  | readValueMask .. | writeValueMask .. | getTypeMask _ | setTypeMask .. | getFailsafeMask ..
  | setFailsafeMask .. => useMask
  | _ => usePinId

/-- `generic_write` is not part of `driver.h`; those that call it write fields of 1, 8 or 16
bits. -/
def Narrow : DriverCall → Prop
  | genericWrite _ _ _ valSize => valSize ≤ 16
  | _ => True

end DriverCall

/-- The frame of `set_failsafe_mask` with 16 bits for every pin, and that of `set_failsafe` when
there is no pin. -/
def largestRequest (nbPins : Nat) : Nat :=
  max 9 ((15 + 17 * nbPins) / 8 + 5)

theorem largestRequest_host {b : Build} (hb : b.embedded = false) (c : Connection) :
    largestRequest c.nbPins ≤ b.buffSize := by
  have hbound := c.nbPins_lt
  rw [largestRequest, Build.buffSize, hb, if_neg Bool.false_ne_true]
  omega

theorem largestRequest_few {c : Connection} (hfew : c.nbPins ≤ 16) :
    largestRequest c.nbPins < 42 := by
  rw [largestRequest]
  omega

section Requests

variable {c : Connection} {mask : Mask} {p : Packet}

theorem pinRequest_made {cmdNo param pinId : BitVec 8}
    (h : pinRequest cmdNo param pinId = some p) : p.Made cmdNo param 1 := by
  rw [pinRequest_eq] at h
  cases h
  exact made_setPacketHeader rfl

theorem genericWriteRequest_made {pinId pinMode : BitVec 8} {val : BitVec 16} {valSize : Nat}
    (hsize : valSize ≤ 16) (h : genericWriteRequest pinId pinMode val valSize = some p) :
    p.Made cmdWrite (typeParam pinMode usePinId) (bits2bytes (8 + valSize)) := by
  obtain ⟨cleared, hclear, h⟩ := Option.bind_eq_some_iff.mp h
  obtain ⟨named, hpin, h⟩ := Option.bind_eq_some_iff.mp h
  obtain ⟨data, hval, h⟩ := Option.bind_eq_some_iff.mp h
  cases h
  refine made_setPacketHeader ?_
  calc data.length
      = named.length := inPlace_writeBitValue _ _ hsize _ _ hval
    _ = cleared.length := inPlace_writeBitValue _ _ (by decide) _ _ hpin
    _ = bits2bytes (8 + valSize) := length_of_initPacket_malloc hclear

theorem readValueMaskRequest_made {type : BitVec 8}
    (h : readValueMaskRequest c mask type = some p) :
    p.Made cmdRead (typeParam type useMask) (bits2bytes c.nbPins) := by
  obtain ⟨cleared, hclear, h⟩ := Option.bind_eq_some_iff.mp h
  obtain ⟨data, hmask, h⟩ := Option.bind_eq_some_iff.mp h
  cases h
  refine made_setPacketHeader ?_
  calc data.length
      = cleared.length := inPlace_writeMask _ _ _ _ hmask
    _ = bits2bytes c.nbPins := length_of_initPacket_malloc hclear

theorem getTypeMaskRequest_made (h : getTypeMaskRequest c mask = some p) :
    p.Made cmdGetType useMask (bits2bytesUnsigned ((c.nbPins + 2 ^ 32 - 1) % 2 ^ 32)) := by
  obtain ⟨cleared, hclear, h⟩ := Option.bind_eq_some_iff.mp h
  obtain ⟨data, hmask, h⟩ := Option.bind_eq_some_iff.mp h
  cases h
  refine made_setPacketHeader ?_
  calc data.length
      = cleared.length := inPlace_writeMask _ _ _ _ hmask
    _ = _ := length_of_initPacket_malloc hclear

/-- The two requests that carry values behind a mask. -/
theorem made_maskFields {cmdNo param : BitVec 8} {values : List (BitVec 16)} {n k width : Nat}
    (hwidth : width ≤ 16)
    (h : ((initPacket (malloc n) n).bind fun data => (writeMask data mask c.nbPins).bind fun data =>
      (writeValueList data c.nbPins values k width).bind fun data =>
        some (setPacketHeader cmdNo param n data)) = some p) : p.Made cmdNo param n := by
  obtain ⟨cleared, hclear, h⟩ := Option.bind_eq_some_iff.mp h
  obtain ⟨masked, hmask, h⟩ := Option.bind_eq_some_iff.mp h
  obtain ⟨data, hvalues, h⟩ := Option.bind_eq_some_iff.mp h
  cases h
  refine made_setPacketHeader ?_
  calc data.length
      = masked.length := inPlace_writeValueList _ _ _ hwidth _ _ hvalues
    _ = cleared.length := inPlace_writeMask _ _ _ _ hmask
    _ = n := length_of_initPacket_malloc hclear

theorem writeValueMaskRequest_made {type : BitVec 8} {values : List (BitVec 16)}
    (h : writeValueMaskRequest c mask type values = some p) :
    ∃ k ≤ c.nbPins, p.Made cmdWrite (typeParam type useMask)
      (bits2bytesUnsigned (c.nbPins + k * getTypeBitsNb type)) := by
  obtain ⟨k, hk, h⟩ := Option.bind_eq_some_iff.mp h
  exact ⟨k, maskNbPinsUsed_le hk, made_maskFields (getTypeBitsNb_le type) h⟩

theorem setTypeMaskRequest_made {values : List (BitVec 16)}
    (h : setTypeMaskRequest c mask values = some p) :
    ∃ k ≤ c.nbPins, p.Made cmdSetType useMask (bits2bytes (c.nbPins + 3 * k)) := by
  obtain ⟨k, hk, h⟩ := Option.bind_eq_some_iff.mp h
  exact ⟨k, maskNbPinsUsed_le hk, made_maskFields (show 3 ≤ 16 by decide) h⟩

theorem setTypeRequest_made {pinId type : BitVec 8}
    (h : setTypeRequest pinId type = some p) : p.Made cmdSetType usePinId 2 := by
  rw [setTypeRequest_eq] at h
  cases h
  exact made_setPacketHeader (length_pinFieldData pinId 3 _)

theorem getFailsafeMaskRequest_made (h : getFailsafeMaskRequest c mask = some p) :
    ∃ k ≤ c.nbPins, p.Made cmdGetFailsafe useMask (bits2bytesUnsigned (k * 3)) := by
  obtain ⟨k, hk, h⟩ := Option.bind_eq_some_iff.mp h
  obtain ⟨cleared, hclear, h⟩ := Option.bind_eq_some_iff.mp h
  obtain ⟨data, hmask, h⟩ := Option.bind_eq_some_iff.mp h
  cases h
  refine ⟨k, maskNbPinsUsed_le hk, made_setPacketHeader ?_⟩
  calc data.length
      = cleared.length := inPlace_writeMask _ _ _ _ hmask
    _ = _ := length_of_initPacket_malloc hclear

theorem setFailsafeRequest_made {pinNo : BitVec 8} {timeout : BitVec 16} {fs : PinFailsafe}
    (h : setFailsafeRequest pinNo timeout fs = some p) :
    p.Made cmdSetFailsafe (typeParam fs.pinState usePinId)
      (3 + getTypeBitsNb fs.pinState / 8) := by
  rw [setFailsafeRequest_eq, Option.ite_none_right_eq_some] at h
  obtain ⟨-, h⟩ := h
  cases h
  exact made_setPacketHeader (length_pinFailsafeData _ _ _ _)

theorem setFailsafeMaskRequest_made {type : BitVec 8} {timeout : BitVec 16}
    {values : List (BitVec 16)} (h : setFailsafeMaskRequest c mask type timeout values = some p) :
    ∃ k ≤ c.nbPins, p.Made cmdSetFailsafe (typeParam type useMask)
      (bits2bytes (16 + c.nbPins + k * getTypeBitsNb type)) := by
  obtain ⟨k, hk, h⟩ := Option.bind_eq_some_iff.mp h
  obtain ⟨cleared, hclear, h⟩ := Option.bind_eq_some_iff.mp h
  obtain ⟨timed, htimeout, h⟩ := Option.bind_eq_some_iff.mp h
  obtain ⟨masked, hmask, h⟩ := Option.bind_eq_some_iff.mp h
  obtain ⟨data, hvalues, h⟩ := Option.bind_eq_some_iff.mp h
  cases h
  refine ⟨k, maskNbPinsUsed_le hk, made_setPacketHeader ?_⟩
  calc data.length
      = masked.length := inPlace_writeValueList _ _ _ (getTypeBitsNb_le type) _ _ hvalues
    _ = timed.length := (inPlace_writeMask mask c.nbPins).atPtr 2 _ _ hmask
    _ = cleared.length := inPlace_writeBitValue _ _ (by decide) _ _ htimeout
    _ = _ := length_of_initPacket_malloc hclear

/-- What the request of a call is made of, and how large it is. -/
theorem DriverCall.request_made {call : DriverCall} (hcall : call.Narrow)
    (h : call.request c = some p) :
    ∃ n, p.Made call.cmdNo (typeParam call.headerType call.kind) n ∧
      n % 2 ^ 16 + 4 ≤ largestRequest c.nbPins := by
  have hbound := c.nbPins_lt
  have hpins : ∀ {k : Nat} (type : BitVec 8), k ≤ c.nbPins →
      k * getTypeBitsNb type ≤ 16 * c.nbPins := by
    intro k type hk
    calc k * getTypeBitsNb type
        ≤ c.nbPins * 16 := Nat.mul_le_mul hk (getTypeBitsNb_le type)
      _ = 16 * c.nbPins := Nat.mul_comm _ _
  -- only the requests that count bits as `unsigned int` can have more bytes than they declare
  have hplain : ∀ {n : Nat}, n + 4 ≤ largestRequest c.nbPins →
      n % 2 ^ 16 + 4 ≤ largestRequest c.nbPins :=
    fun hn => (Nat.add_le_add_right (Nat.mod_le _ _) 4).trans hn
  cases call with
  | genericRead | digitalRead | analogicRead | pwm8Read | pwm16Read =>
      exact ⟨1, pinRequest_made h, hplain (by rw [largestRequest]; omega)⟩
  | getType | getFailsafe =>
      have hp := pinRequest_made h
      rw [← typeParam_zero usePinId] at hp
      exact ⟨1, hp, hplain (by rw [largestRequest]; omega)⟩
  | genericWrite pinId pinMode val valSize =>
      have hsize : valSize ≤ 16 := hcall
      refine ⟨_, genericWriteRequest_made hsize h, hplain ?_⟩
      rw [largestRequest, bits2bytes_eq]
      omega
  | digitalWrite | analogicWrite | pwm8Write | pwm16Write =>
      refine ⟨_, genericWriteRequest_made (by decide) h, hplain ?_⟩
      rw [largestRequest, bits2bytes_eq]
      omega
  | readValueMask mask type =>
      refine ⟨_, readValueMaskRequest_made h, hplain ?_⟩
      rw [largestRequest, bits2bytes_eq]
      omega
  | writeValueMask mask type values =>
      obtain ⟨k, hk, hp⟩ := writeValueMaskRequest_made h
      have htotal := hpins type hk
      have hbytes := bits2bytesUnsigned_mod_le
        (show c.nbPins + k * getTypeBitsNb type ≤ 2 ^ 32 by omega)
      refine ⟨_, hp, ?_⟩
      rw [largestRequest]
      omega
  | getTypeMask mask =>
      have hp := getTypeMaskRequest_made h
      rw [← typeParam_zero useMask] at hp
      refine ⟨_, hp, ?_⟩
      have hbytes : bits2bytesUnsigned ((c.nbPins + 2 ^ 32 - 1) % 2 ^ 32) % 2 ^ 16 ≤
          (c.nbPins + 7) / 8 := by
        rcases Nat.eq_zero_or_pos c.nbPins with hzero | hpos
        · rw [hzero]
          norm_num [bits2bytesUnsigned]
        · have hbits : (c.nbPins + 2 ^ 32 - 1) % 2 ^ 32 = c.nbPins - 1 := by omega
          rw [hbits]
          exact (bits2bytesUnsigned_mod_le (by omega)).trans (by omega)
      rw [largestRequest]
      omega
  | setType pinId type =>
      have hp := setTypeRequest_made h
      rw [← typeParam_zero usePinId] at hp
      exact ⟨2, hp, hplain (by rw [largestRequest]; omega)⟩
  | setTypeMask mask types =>
      obtain ⟨k, hk, hp⟩ := setTypeMaskRequest_made h
      rw [← typeParam_zero useMask] at hp
      refine ⟨_, hp, hplain ?_⟩
      rw [largestRequest, bits2bytes_eq]
      omega
  | getFailsafeMask mask table =>
      obtain ⟨k, hk, hp⟩ := getFailsafeMaskRequest_made h
      have hbytes := bits2bytesUnsigned_mod_le (show k * 3 ≤ 2 ^ 32 by omega)
      rw [← typeParam_zero useMask] at hp
      refine ⟨_, hp, ?_⟩
      rw [largestRequest]
      omega
  | setFailsafe pinNo timeout entry =>
      have hwidth := getTypeBitsNb_le entry.pinState
      refine ⟨_, setFailsafeRequest_made h, hplain ?_⟩
      rw [largestRequest]
      omega
  | setFailsafeMask mask type timeout values =>
      obtain ⟨k, hk, hp⟩ := setFailsafeMaskRequest_made h
      have htotal := hpins type hk
      refine ⟨_, hp, hplain ?_⟩
      rw [largestRequest, bits2bytes_eq]
      omega

end Requests

namespace ApiCall

def cmdNo : ApiCall → BitVec 8
  | getCaps => cmdGetCaps
  | ping => cmdPing
  | driver call => call.cmdNo

def headerType : ApiCall → BitVec 8
  | driver call => call.headerType
  | _ => 0

def kind : ApiCall → BitVec 8
  | driver call => call.kind
  | _ => usePinId

def Narrow : ApiCall → Prop
  | driver call => call.Narrow
  | _ => True

section Requests

variable {b : Build} {c : Connection} {call : ApiCall} {p : Packet}

theorem request_made (hcall : call.Narrow) (h : call.request c = some p) :
    ∃ n, p.Made call.cmdNo (typeParam call.headerType call.kind) n ∧
      n % 2 ^ 16 + 4 ≤ largestRequest c.nbPins := by
  cases call with
  | getCaps =>
      cases h
      exact ⟨0, made_setPacketHeader rfl, by rw [largestRequest]; omega⟩
  | ping =>
      rw [request, pingRequest] at h
      obtain ⟨cleared, hclear, h⟩ := Option.bind_eq_some_iff.mp h
      obtain ⟨data, hversion, h⟩ := Option.bind_eq_some_iff.mp h
      cases h
      have hdata : data.length = 1 :=
        (inPlace_writeBitValue _ _ (by decide) _ _ hversion).trans
          (length_of_initPacket_malloc hclear)
      exact ⟨1, made_setPacketHeader hdata, by rw [largestRequest]; omega⟩
  | driver call => exact DriverCall.request_made hcall h

theorem request_le (hcall : call.Narrow) (h : call.request c = some p) :
    p.size.toNat ≤ p.data.length ∧ p.size.toNat + 4 ≤ largestRequest c.nbPins := by
  obtain ⟨n, hp, hn⟩ := request_made hcall h
  refine ⟨hp.size_le, ?_⟩
  rw [hp.size, BitVec.toNat_ofNat]
  exact hn

end Requests

end ApiCall

namespace LibraryCall

def Narrow : LibraryCall → Prop
  | reset => True
  | api call => call.Narrow

variable {b : Build} {c : Connection} {call : LibraryCall} {p : Packet}

theorem request_le (hcall : call.Narrow) (h : call.request c = some p) :
    p.size.toNat ≤ p.data.length ∧ p.size.toNat + 4 ≤ largestRequest c.nbPins := by
  cases call with
  | reset =>
      cases h
      have hsize : resetRequest.size.toNat = 0 := rfl
      rw [hsize, largestRequest]
      omega
  | api call => exact ApiCall.request_le hcall h

theorem request_fits (hroom : largestRequest c.nbPins ≤ b.buffSize) (hcall : call.Narrow)
    (h : call.request c = some p) : p.FitsBuild b := by
  obtain ⟨hdata, hsize⟩ := request_le hcall h
  exact ⟨hdata, hsize.trans hroom⟩

end LibraryCall

/-- All pins used. -/
theorem usedPins_replicate (n : Nat) : usedPins (List.replicate n true) n = List.range n := by
  rw [usedPins, usedFrom, ← List.range_eq_range', List.filter_eq_self]
  intro pin hpin
  have hlt : pin < n := List.mem_range.mp hpin
  simp [pinUsed, hlt]

/-- Every request of the driver fits the buffer of `connection_read`, unless the device is an
Atmega8 and the driver takes it to have more than 16 pins. -/
theorem requests_fit_iff (b : Build) (c : Connection) :
    (∀ call : LibraryCall, call.Narrow → ∀ p, call.request c = some p → p.FitsBuild b) ↔
      b.embedded = false ∨ c.nbPins ≤ 16 := by
  have hbound := c.nbPins_lt
  constructor
  · intro hall
    -- From 17 pins on, SET_FAILSAFE of every pin as PWM16 exceeds the 42 bytes of the firmware.
    by_contra hmany
    obtain ⟨hb, hpins⟩ := not_or.mp hmany
    have hused : (usedPins (List.replicate c.nbPins true) c.nbPins).length = c.nbPins := by
      rw [usedPins_replicate, List.length_range]
    set mask := List.replicate c.nbPins true
    set values := List.replicate c.nbPins 0#16
    have hlen : c.nbPins ≤ mask.length := by simp [mask]
    have hbits : 0 < getTypeBitsNb pinTypePwm16 := by decide
    have hvalues : (usedPins mask c.nbPins).length ≤ values.length := by simp [mask, values, hused]
    have hrequest := setFailsafeMaskRequest_eq hlen hbits 0#16 hvalues
    have hfits := hall (.api (.driver (.setFailsafeMask _ _ _ _))) trivial _ hrequest
    have hsize := hfits.frame_le
    have hwidth : getTypeBitsNb pinTypePwm16 = 16 := rfl
    rw [hused, hwidth, List.take_of_length_le (by simp [values]), List.length_replicate,
      setPacketHeader, toNat_ofNat_size (by omega), Build.buffSize,
      if_pos (by simpa using hb)] at hsize
    omega
  · rintro (hb | hfew) call hcall p hp
    · exact LibraryCall.request_fits (largestRequest_host hb c) hcall hp
    · refine LibraryCall.request_fits ?_ hcall hp
      have hless := largestRequest_few hfew
      rw [Build.buffSize]
      split <;> omega

/-! ## Callers and the two kinds of device -/

/-- Each of the two waits for the other. -/
def Session.Deadlocked (s : Session α) : Prop :=
  (∃ resume, s.driver = .waiting resume) ∧ ∃ d, s.device = .reading d

/-- A type of three bits, which does not run into the command, and a command that the device has
been built with. -/
def ApiCall.Known (b : Build) (call : ApiCall) : Prop :=
  call.Narrow ∧ call.headerType.toNat < 8 ∧
    (b.disableFailsafe = true → call.cmdNo ≠ cmdGetFailsafe ∧ call.cmdNo ≠ cmdSetFailsafe)

def LibraryCall.Known (b : Build) : LibraryCall → Prop
  | reset => True
  | api call => call.Known b

section Callers

variable {b : Build} {nbPins : BitVec 8} {c : Connection} {call : ApiCall} {p : Packet} {d : Device}

theorem LibraryCall.Known.narrow {call : LibraryCall} (h : call.Known b) : call.Narrow := by
  cases call with
  | reset => trivial
  | api call => exact h.1

theorem ApiCall.kind_lt (call : ApiCall) : call.kind.toNat < 2 := by
  unfold ApiCall.kind DriverCall.kind
  repeat' split
  all_goals decide

theorem ApiCall.cmdNo_answered (call : ApiCall) :
    call.cmdNo ≠ cmdReset ∧ call.cmdNo.toNat ≤ 8 := by
  unfold ApiCall.cmdNo DriverCall.cmdNo
  repeat' split
  all_goals decide

theorem not_silent_request (hcall : call.Known b) (h : call.request c = some p) :
    ¬ Silent b (delivered p) := by
  obtain ⟨hnarrow, htype, hfailsafe⟩ := hcall
  obtain ⟨n, hp, -⟩ := ApiCall.request_made hnarrow h
  obtain ⟨hreset, hcode⟩ := call.cmdNo_answered
  have hcommand : (delivered p).command = call.cmdNo := by
    rw [Packet.command, header_delivered, hp.header]
    exact (header_decode call.cmdNo _ _ (by omega) htype call.kind_lt).1
  rintro (hsilent | hsilent | ⟨hb, hsilent | hsilent⟩) <;> rw [hcommand] at hsilent
  · exact hreset hsilent
  · omega
  · exact (hfailsafe hb).1 hsilent
  · exact (hfailsafe hb).2 hsilent

theorem silent_reset (b : Build) : Silent b (delivered resetRequest) :=
  .inl (by decide)

theorem resetRequest_fits (b : Build) : resetRequest.FitsBuild b :=
  FitsBuild_of_le_three b _ _ (by decide) rfl

/-- A reset is the only request of the library that gets no reply. -/
theorem eq_reset_of_silent {call : LibraryCall} (hcall : call.Known b)
    (h : call.request c = some p) (hsilent : Silent b (delivered p)) : p = resetRequest := by
  cases call with
  | reset =>
      cases h
      rfl
  | api call => exact absurd hsilent (not_silent_request hcall h)

theorem libraryClient_asks {P : Packet → Prop} {Q : LibraryCall → Prop}
    (hPQ : ∀ call, Q call → ∀ (c : Connection) (p : Packet), call.request c = some p → P p)
    (program : Program LibraryCall Answer α) (hcalls : program.Calls Q) (c : Connection) :
    (libraryClient c program).Asks P := by
  induction program generalizing c with
  | done a => trivial
  | call call resume ih =>
      refine Client.asks_operation (hPQ call hcalls.1 c) fun ret out c' => ?_
      exact ih _ (hcalls.2 _) c'

/-- A program that comes to a request without a reply ends there, together with the device. -/
theorem deadlock_of_advances (hb : b.embedded = false) (hd : Reachable b nbPins d)
    {client : Client α} {p : Packet} {resume : Packet → Client α} {d' : Device}
    (hp : p.FitsBuild b) (hsilent : Silent b (delivered p))
    (hadv : Client.Advances (deviceLink b) (client, d) (.ask p resume, d')) :
    Inevitable (Session.Step b) (· = ⟨.waiting resume, .reading d', [], []⟩)
      (.start client d) := by
  refine session_advances hb hadv (fun device hdevice => ?_) hd _ (.inl rfl)
  exact inevitable_of_request hp
    (inevitable_of_silent (fun _ _ _ => Iff.rfl) hb hp hsilent resume) hdevice

end Callers

/-- Whatever a caller of `driver.h` does with a host build of the firmware, and in whatever order
the two processes run, they come to one end; there they wait for each other if the caller has got
to a reset, and not otherwise. -/
theorem callers_deadlock_iff {b : Build} (hb : b.embedded = false) {nbPins : BitVec 8}
    {d : Device} (hd : Reachable b nbPins d) {program : Program LibraryCall Answer α}
    (hcalls : program.Calls (LibraryCall.Known b)) (c : Connection) :
    ∃ t, Inevitable (Session.Step b) (· = t) (.start (libraryClient c program) d) ∧
      Stuck (Session.Step b) t ∧
      (t.Deadlocked ↔ ∃ resume d', Client.Advances (deviceLink b) (libraryClient c program, d)
        (.ask resetRequest resume, d')) := by
  have hfits : (libraryClient c program).FitsBuild b :=
    libraryClient_asks (fun call hcall c p hp =>
      LibraryCall.request_fits (largestRequest_host hb c) hcall.narrow hp) program hcalls c
  have hreset : (libraryClient c program).Asks fun p =>
      Silent b (delivered p) → p = resetRequest :=
    libraryClient_asks (fun call hcall c p hp => eq_reset_of_silent hcall hp) program hcalls c
  obtain ⟨t, hend, hall⟩ := session_inevitable_from hb (libraryClient c program) hd hfits
  have hinev := hall _ (.inl rfl)
  refine ⟨t, hinev, hend.stuck, ?_, ?_⟩
  · rintro ⟨⟨resume, hdriver⟩, d', hdevice⟩
    cases hend with
    | completed => cases hdriver
    | driverFault => cases hdriver
    | @blocked p resume d' hadv hsilent =>
        have hp : p = resetRequest := (Client.asks_of_advances hadv hreset).1 hsilent
        exact ⟨resume, d', hp ▸ hadv⟩
    | deviceFault => cases hdevice
  · rintro ⟨resume, d', hadv⟩
    -- the run that comes to `t` has come to the deadlock
    have hblocked := deadlock_of_advances hb hd (resetRequest_fits b) (silent_reset b) hadv
    obtain ⟨u, hrun, rfl⟩ := hinev.exists_run
    have hu := hblocked.of_stuck (fun v hv => hv ▸ Session.stuck_of_none
      (Session.driverStep_empty (by simp)) (Session.deviceStep_empty (by simp))) hrun hend.stuck
    rw [hu]
    exact ⟨⟨resume, rfl⟩, d', rfl⟩

/-- A ping, and then a reset. -/
def pingAndReset : Program LibraryCall Answer Answer :=
  .call (.api .ping) fun answer => .call .reset fun _ => .done answer

theorem callers_deadlock_iff_reset :
    ∃ t, Inevitable (Session.Step hostBuild) (· = t)
        (.start (libraryClient openedConnection pingAndReset)
          (initialDevice hostBuild firmwareNbPins)) ∧ t.Deadlocked := by
  have hd : Reachable hostBuild firmwareNbPins (initialDevice hostBuild firmwareNbPins) :=
    .init (initDeviceContent_eq _ _)
  have hfailsafe : hostBuild.disableFailsafe ≠ true := Bool.false_ne_true
  have hcalls : pingAndReset.Calls (LibraryCall.Known hostBuild) :=
    ⟨⟨trivial, show 0 < 8 by decide, fun h => absurd h hfailsafe⟩, fun _ =>
      ⟨trivial, fun _ => trivial⟩⟩
  obtain ⟨t, hinev, -, hiff⟩ := callers_deadlock_iff rfl hd hcalls openedConnection
  have hserve : dispatch hostBuild (initialDevice hostBuild firmwareNbPins)
      (delivered pingPacket) = some ((initialDevice hostBuild firmwareNbPins).next,
        [frameOf (delivered (setPacketHeader cmdGetCaps 0 2 [0#8, 1#8]))]) := by decide +kernel
  have hexchange := exchange_device (pingPacket_fits hostBuild) hserve
    ⟨by decide, by decide⟩ (by decide)
  exact ⟨t, hinev, hiff.mpr ⟨_, _, .single (.ask hexchange)⟩⟩

/-- The firmware's own `read` waits until it has `BUFF_SIZE` bytes, and no request for an Atmega8
has that many: the request stays unread, and no call ever returns. -/
theorem embedded_never_answers {b : Build} (hb : b.embedded = true) {c : Connection}
    (hfew : c.nbPins ≤ 16) {call : LibraryCall} (hcall : call.Narrow) {p : Packet}
    (hp : call.request c = some p) (resume : Answer → Program LibraryCall Answer α) (d : Device) :
    Inevitable (Session.Step b)
      (fun t => Stuck (Session.Step b) t ∧ t.Deadlocked ∧ t.device = .reading d ∧
        t.toDevice = frameOf (delivered p))
      (.start (libraryClient c (.call call resume)) d) := by
  have hless := largestRequest_few hfew
  have hbuff : b.buffSize = 42 := by rw [Build.buffSize, if_pos hb]
  have hfits : p.FitsBuild b := LibraryCall.request_fits (by omega) hcall hp
  have hunread : pipeRead b (frameOf (delivered p)) = none := by
    have hlen := length_frameOf_delivered hfits.size_le
    have hsize := (LibraryCall.request_le hcall hp).2
    rw [pipeRead, hb, if_pos rfl, hbuff, if_neg (by omega)]
  simp only [libraryClient, LibraryCall.client, Client.operation, hp]
  refine inevitable_of_request hfits (.now ⟨?_, ⟨⟨_, rfl⟩, d, rfl⟩, rfl, rfl⟩) (.inl rfl)
  refine Session.stuck_of_none (Session.driverStep_empty (by simp)) ?_
  simp [Session.deviceStep, hunread, Session.driverClosed]

/-- The first call of every driver. -/
theorem embedded_never_answers_getCaps :
    Inevitable (Session.Step { embedded := true, disableFailsafe := true })
      (fun t => Stuck (Session.Step { embedded := true, disableFailsafe := true }) t ∧
        t.Deadlocked ∧
        t.device = .reading
          (initialDevice { embedded := true, disableFailsafe := true } firmwareNbPins) ∧
        t.toDevice = frameOf (delivered getCapsRequest))
      (.start (libraryClient openedConnection (.call (.api .getCaps) fun answer => .done answer))
        (initialDevice { embedded := true, disableFailsafe := true } firmwareNbPins)) := by
  have hcall : (LibraryCall.api .getCaps).Narrow := trivial
  exact embedded_never_answers (c := openedConnection) rfl (by decide)
    hcall rfl (fun answer => .done answer) _

end PinProtocol
