import PinProtocol.Common.Failsafe

/-!
# Connection — the state of one end and its frames (`src/connection.c`, `src/device_state.c`)

Driver and device keep the same `struct connection`.  A null `pins_mask_type` or `pins_state` is
the empty list (every access to it is out of range either way); a null `failsafe` is `none`.  The
file descriptors are left out: what `write` is given and what `read` delivers are explicit here.
-/

namespace PinProtocol

open Bits Control

/-- The compile-time switches `EMBEDDED` and `DISABLE_FAILSAFE`. -/
structure Build where
  embedded : Bool
  disableFailsafe : Bool
  deriving DecidableEq, Repr

/-- `BUFF_SIZE` -/
def Build.buffSize (b : Build) : Nat :=
  if b.embedded then 42 else 612

theorem buffSize_le (b : Build) : b.buffSize ≤ 612 := by
  unfold Build.buffSize
  split <;> decide

/-- A build for the host, with the failsafe. -/
def hostBuild : Build :=
  { embedded := false, disableFailsafe := false }

structure DeviceCaps where
  nbPins : BitVec 8
  pinsMaskType : List Byte
  deriving DecidableEq, Repr

structure PinState where
  pinsType : BitVec 8
  pinsVal : BitVec 16
  deriving DecidableEq, Repr

structure Connection where
  protocolVersion : BitVec 8
  caps : DeviceCaps
  pinsState : List PinState
  failsafe : Option Failsafe
  deriving DecidableEq, Repr

/-- `caps.nb_pins`, as the number it stands for. -/
def Connection.nbPins (c : Connection) : Nat :=
  c.caps.nbPins.toNat

/-- A connection as `connection_open` returns it. -/
def openedConnection : Connection :=
  { protocolVersion := 0
    caps := { nbPins := 0, pinsMaskType := [] }
    pinsState := []
    failsafe := none }

/-- An entry of a `pins_state` array that `malloc` has just returned. -/
def freshPin : PinState :=
  { pinsType := heapFill, pinsVal := heapFill ++ heapFill }

def connectionReleaseResources (b : Build) (c : Connection) : Connection :=
  { c with
    caps := { c.caps with pinsMaskType := [] }
    pinsState := []
    failsafe := if b.disableFailsafe then c.failsafe else none }

def connectionInitResources (b : Build) (c : Connection) : Option Connection := do
  let c := connectionReleaseResources b c
  let failsafe ← if b.disableFailsafe then some c.failsafe else (newFailsafe c.nbPins).map some
  let (maskType, pins) ← (List.range c.nbPins).foldlM
    (fun (st : List Byte × List PinState) pinNo => do
      let maskType ← store st.1 pinNo 0#8
      let pins ← update st.2 pinNo fun pin => { pin with pinsType := pinTypeDisabled }
      return (maskType, pins))
    -- `pins_val` is left as malloc has returned it
    (malloc c.nbPins, List.replicate c.nbPins freshPin)
  return { c with caps := { c.caps with pinsMaskType := maskType }, pinsState := pins, failsafe }

/-- `read_device_caps`: the data is parsed a second time, now with the mask types. -/
def readDeviceCaps (dc : DeviceCaps) (p : Packet) : Option DeviceCaps := do
  let nbPins ← readBitValue p.data replyIdBitsNb pinsNoBitsNb
  let nbPins := nbPins.setWidth 8
  let maskType ← (List.range nbPins.toNat).foldlM
    (fun maskType i => p.data[i + 2]?.bind fun b => store maskType i b) (malloc nbPins.toNat)
  return { dc with nbPins, pinsMaskType := maskType }

/-! ## Frames -/

/-- `connection_write`: the bytes that are handed to `write`. -/
def connectionWrite (p : Packet) : Option Buffer := do
  -- the size of the frame is a uint16_t
  let buffSize := (p.size.toNat + 4) % 2 ^ 16
  let buffer ← initPacket (malloc buffSize) (p.size.toNat + 4)
  packetWrite buffer p

def sendPacket (p : Packet) : Option Buffer := do
  let checksum ← computeChecksum p
  connectionWrite { p with checksum }

/-- Outcome of `connection_read`: `-1`, or a packet. -/
inductive Received
  | error
  | packet (p : Packet)
  deriving DecidableEq, Repr

/-- `connection_read`, when its one call of `read` delivers `chunk` (at most `BUFF_SIZE` bytes; the
empty chunk stands for a failed `read`). -/
def connectionRead (b : Build) (chunk : Buffer) : Option Received :=
  let buffer := chunk ++ zeros (b.buffSize - chunk.length)
  if chunk.length < overheadSize then some .error
  else (packetRead buffer).map .packet

end PinProtocol
