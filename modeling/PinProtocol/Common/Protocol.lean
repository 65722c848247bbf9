import PinProtocol.Common.BitFields

/-!
# Protocol — packets and protocol constants (`include/protocol.h`, `src/protocol.c`)

A packet is a header byte, a 16-bit size, the data and a checksum byte.  `data` is the memory that
`packet.data` points to; only its first `size` bytes belong to the packet.
-/

namespace PinProtocol

open Bits Control

/-! ## Constants -/

def overheadSize : Nat := 4

def pinTypeBitsNb : Nat := 3
def pinTypeDigital : BitVec 8 := 0
def pinTypeAnalog8 : BitVec 8 := 1
def pinTypeAnalog16 : BitVec 8 := 2
def pinTypePwm8 : BitVec 8 := 3
def pinTypePwm16 : BitVec 8 := 4
def pinTypeDisabled : BitVec 8 := 7

def cmdGetCaps : BitVec 8 := 0
def cmdReset : BitVec 8 := 1
def cmdPing : BitVec 8 := 2
def cmdRead : BitVec 8 := 3
def cmdWrite : BitVec 8 := 4
def cmdGetType : BitVec 8 := 5
def cmdSetType : BitVec 8 := 6
def cmdGetFailsafe : BitVec 8 := 7
def cmdSetFailsafe : BitVec 8 := 8

def repCodeSuccess : BitVec 8 := 0

def replyIdBitsNb : Nat := 8
def versionBitsNb : Nat := 8
def versionBytesNb : Nat := 1
def pinsNoBitsNb : Nat := 8
def pinsNoBytesNb : Nat := 1
def timeoutBitsNb : Nat := 16

def usePinId : BitVec 8 := 0
def useMask : BitVec 8 := 1

/-! ## Packets -/

structure Packet where
  header : Byte
  size : BitVec 16
  data : Buffer
  checksum : Byte
  deriving DecidableEq, Repr

def computeChecksum (p : Packet) : Option Byte :=
  let sum := p.header
  let sum := sum + p.size.setWidth 8
  let sum := sum + (p.size >>> 8).setWidth 8
  ((List.range p.size.toNat).foldlM (fun sum i => p.data[i]?.map fun b => sum + b) sum).map
    fun sum => ~~~sum

def packetValid (p : Packet) : Option Bool :=
  (computeChecksum p).map fun sum => sum == p.checksum

/-- `set_packet_header`, on a packet whose data is `data`; `send_packet` sets the checksum. -/
def setPacketHeader (cmdNo param : BitVec 8) (size : Nat) (data : Buffer) : Packet :=
  { header := cmdNo <<< 4 + param
    size := BitVec.ofNat 16 size
    data := data
    checksum := 0 }

def packetWrite (buffer : Buffer) (p : Packet) : Option Buffer := do
  let cmd ← readCmd [p.header]
  let buffer ← writeCmd buffer cmd
  let param ← readParam [p.header]
  let buffer ← writeParam buffer param
  let buffer ← writeDataSize buffer p.size
  let buffer ← writeData buffer p.data p.size.toNat
  writeChecksum buffer p.checksum p.size.toNat

def packetRead (buffer : Buffer) : Option Packet := do
  let size ← readDataSize buffer
  let header ← readHeader buffer
  let data ← readData buffer size.toNat
  let checksum ← readChecksum buffer size.toNat
  return { header, size, data, checksum }

/-- Bits of a value of the given type; 0 for an invalid mode. -/
def getTypeBitsNb (pinType : BitVec 8) : Nat :=
  match pinType.toNat with
  | 0 => 1
  | 1 => 8
  | 3 => 8
  | 2 => 16
  | 4 => 16
  | _ => 0

theorem getTypeBitsNb_le (type : BitVec 8) : getTypeBitsNb type ≤ 16 := by
  unfold getTypeBitsNb
  split <;> decide

section Types

variable {type : BitVec 8}

theorem type_cases (h : type.toNat ≤ 4) :
    type = pinTypeDigital ∨ type = pinTypeAnalog8 ∨ type = pinTypeAnalog16 ∨ type = pinTypePwm8 ∨
      type = pinTypePwm16 := by
  have hcode : pinTypeDigital.toNat = 0 ∧ pinTypeAnalog8.toNat = 1 ∧ pinTypeAnalog16.toNat = 2 ∧
      pinTypePwm8.toNat = 3 ∧ pinTypePwm16.toNat = 4 := by
    decide
  simp only [← BitVec.toNat_inj]
  omega

theorem getTypeBitsNb_digital (h : type = pinTypeDigital) : getTypeBitsNb type = 1 := by
  subst h
  rfl

/-- All the other types take one or two bytes. -/
theorem getTypeBitsNb_of_not_digital (h : type.toNat ≤ 4) (hne : type ≠ pinTypeDigital) :
    getTypeBitsNb type = 8 ∨ getTypeBitsNb type = 16 := by
  rcases type_cases h with rfl | rfl | rfl | rfl | rfl
  · exact absurd rfl hne
  · exact Or.inl rfl
  · exact Or.inr rfl
  · exact Or.inl rfl
  · exact Or.inr rfl

theorem getTypeBitsNb_pos (h : type.toNat ≤ 4) : 0 < getTypeBitsNb type := by
  rcases type_cases h with rfl | rfl | rfl | rfl | rfl <;> decide

end Types

end PinProtocol
