import PinProtocol.Common.Connection

/-!
# PacketProcess — the device's handlers (`firmware/src/firmware_packet_process.c`)

A handler receives a request packet and returns the device and the frames it has sent, or a fault.
Each handler builds the data of its reply first, then the header, then the reply id.

Sums that stay within their C variable (at most 255 pins of at most 19 bits) are plain sums; the
one variable that does wrap, `data_bytes` of `reply_get_failsafe`, is reduced explicitly.
-/

namespace PinProtocol

open Bits Control

/-- The device: its connection structure and the static counter of `get_reply_id`. -/
structure Device where
  conn : Connection
  nextId : BitVec 8
  deriving DecidableEq, Repr

/-- The id to use, and the counter afterwards; after 255 the counter goes on at 16. -/
def getReplyId (id : BitVec 8) : BitVec 8 × BitVec 8 :=
  (id, if id + 1 = 0 then 16 else id + 1)

/-- `p->header % 2 == USE_MASK` -/
def usesMask (p : Packet) : Bool :=
  p.header.toNat % 2 == useMask.toNat

/-! ## Sending -/

/-- The common end of a handler: put the reply id into `rep.data[0]` and send the packet. -/
def sendWithId (d : Device) (cmdNo : BitVec 8) (size : Nat) (data : Buffer) :
    Option (Device × List Buffer) := do
  let (id, nextId) := getReplyId d.nextId
  let data ← store data 0 id
  let frame ← sendPacket (setPacketHeader cmdNo repCodeSuccess size data)
  return ({ d with nextId }, [frame])

/-- A reply that consists of the id only. -/
def sendId (d : Device) (cmdNo : BitVec 8) : Option (Device × List Buffer) := do
  let (id, nextId) := getReplyId d.nextId
  let frame ← sendPacket (setPacketHeader cmdNo repCodeSuccess 1 [id])
  return ({ d with nextId }, [frame])

/-! ## Capabilities, reset, ping -/

def replyGetCaps (d : Device) : Option (Device × List Buffer) := do
  let nbPins := d.conn.nbPins
  let data ← initPacket (malloc (1 + 1 + nbPins)) (nbPins + 2)
  let data ← store data 1 d.conn.caps.nbPins
  -- memcpy( rep.data + 2, c->caps.pins_mask_type, c->caps.nb_pins )
  let data ← if nbPins ≤ d.conn.caps.pinsMaskType.length ∧ 2 + nbPins ≤ data.length then
      some (data.take 2 ++ d.conn.caps.pinsMaskType.take nbPins ++ data.drop (2 + nbPins))
    else none
  sendWithId d cmdGetCaps (nbPins + 2) data

def replyReset (d : Device) : Option (Device × List Buffer) :=
  -- the body of `reply_reset` is empty
  some (d, [])

def replyPing (d : Device) : Option (Device × List Buffer) := do
  let data ← initPacket (malloc 2) 2
  let data ← store data 1 d.conn.protocolVersion
  -- the command of a capability reply
  sendWithId d cmdGetCaps 2 data

/-! ## Reading -/

/-- The mask that a request carries from bit `offset` of its data on. -/
def requestMask (c : Connection) (data : Buffer) (offset : Nat) : Option Mask := do
  let m ← newMask c.nbPins
  readMask data offset m c.nbPins

/-- The data of the reply to a read of one pin. -/
def replyReadPin (c : Connection) (p : Packet) (valBits : Nat) : Option (Buffer × Nat) := do
  let pinId ← readBitValue p.data 0 pinsNoBitsNb
  -- `pin_id` is not compared with `nb_pins`
  let pin ← c.pinsState[(pinId.setWidth 8).toNat]?
  let dataBytes := bits2bytes (replyIdBitsNb + valBits)
  let data ← initPacket (malloc dataBytes) dataBytes
  let data ← writeBitValue data replyIdBitsNb pin.pinsVal valBits
  return (data, dataBytes)

/-- The data of the reply to a read of a set of pins. -/
def replyReadMask (c : Connection) (p : Packet) (valBits : Nat) : Option (Buffer × Nat) := do
  let m ← requestMask c p.data 0
  let nbPinsUsed ← maskNbPinsUsed m c.nbPins
  let dataBytes := bits2bytes (replyIdBitsNb + nbPinsUsed * valBits)
  let data ← initPacket (malloc dataBytes) dataBytes
  let (data, _) ← forEachPinUsed m c.nbPins
    (fun (st : Buffer × Nat) pinIndex =>
      -- the whole stored value is passed, however few bits of it are asked for
      (c.pinsState[pinIndex]?.bind fun pin => writeBitValue st.1 st.2 pin.pinsVal valBits).map
        fun data => (data, st.2 + valBits))
    (data, replyIdBitsNb)
  return (data, dataBytes)

def replyRead (d : Device) (p : Packet) : Option (Device × List Buffer) := do
  let param ← readParam [p.header]
  let pinType := param >>> 1
  let valBits := getTypeBitsNb pinType
  let (data, dataBytes) ←
    if usesMask p then replyReadMask d.conn p valBits else replyReadPin d.conn p valBits
  sendWithId d cmdRead dataBytes data

/-! ## Writing -/

/-- A single-pin write takes over the type as well as the value. -/
def treatWritePin (c : Connection) (p : Packet) (pinType : BitVec 8) (valBits : Nat) :
    Option Connection := do
  let pinId ← readBitValue p.data 0 pinsNoBitsNb
  let val ← readBitValue p.data pinsNoBitsNb valBits
  let pins ← update c.pinsState (pinId.setWidth 8).toNat
    fun _ => { pinsType := pinType, pinsVal := val }
  return { c with pinsState := pins }

/-- A masked write takes over values only, through a `uint8_t` variable. -/
def treatWriteMask (c : Connection) (p : Packet) (valBits : Nat) : Option Connection := do
  let m ← requestMask c p.data 0
  let (pins, _) ← forEachPinUsed m c.nbPins
    (fun (st : List PinState × Nat) pinIndex =>
      ((readBitValue p.data st.2 valBits).bind fun val =>
        update st.1 pinIndex fun pin => { pin with pinsVal := (val.setWidth 8).setWidth 16 }).map
        fun pins => (pins, st.2 + valBits))
    (c.pinsState, c.nbPins)
  return { c with pinsState := pins }

def treatWrite (c : Connection) (p : Packet) : Option Connection := do
  let param ← readParam [p.header]
  let pinType := param >>> 1
  let valBits := getTypeBitsNb pinType
  if usesMask p then treatWriteMask c p valBits else treatWritePin c p pinType valBits

def replyWrite (d : Device) (p : Packet) : Option (Device × List Buffer) := do
  let conn ← treatWrite d.conn p
  sendId { d with conn } cmdWrite

/-! ## Pin types -/

/-- The data of the reply to a type request for one pin. -/
def replyGetTypePin (c : Connection) (p : Packet) : Option (Buffer × Nat) := do
  let pinId ← readBitValue p.data 0 pinsNoBitsNb
  let pin ← c.pinsState[(pinId.setWidth 8).toNat]?
  let data ← initPacket (malloc 2) 2
  let data ← writeBitValue data replyIdBitsNb (pin.pinsType.setWidth 16) pinTypeBitsNb
  return (data, 1 + bits2bytes pinTypeBitsNb)

/-- The data of the reply to a type request for a set of pins; the byte count is computed on
`unsigned int` operands. -/
def replyGetTypeMask (c : Connection) (p : Packet) : Option (Buffer × Nat) := do
  let m ← requestMask c p.data 0
  let nbPinsUsed ← maskNbPinsUsed m c.nbPins
  let dataBytes := 1 + bits2bytesUnsigned (nbPinsUsed * pinTypeBitsNb)
  let data ← initPacket (malloc dataBytes) dataBytes
  let (data, _) ← forEachPinUsed m c.nbPins
    (fun (st : Buffer × Nat) pinIndex =>
      (c.pinsState[pinIndex]?.bind fun pin =>
        writeBitValue st.1 st.2 (pin.pinsType.setWidth 16) pinTypeBitsNb).map
        fun data => (data, st.2 + pinTypeBitsNb))
    (data, replyIdBitsNb)
  return (data, dataBytes)

def replyGetType (d : Device) (p : Packet) : Option (Device × List Buffer) := do
  let (data, dataBytes) ←
    if usesMask p then replyGetTypeMask d.conn p else replyGetTypePin d.conn p
  -- the command of a type change
  sendWithId d cmdSetType dataBytes data

def treatSetTypePin (c : Connection) (p : Packet) : Option Connection := do
  let pinId ← readBitValue p.data 0 pinsNoBitsNb
  let type ← readBitValue p.data pinsNoBitsNb pinTypeBitsNb
  let pins ← update c.pinsState (pinId.setWidth 8).toNat
    fun pin => { pin with pinsType := type.setWidth 8 }
  return { c with pinsState := pins }

def treatSetTypeMask (c : Connection) (p : Packet) : Option Connection := do
  let m ← requestMask c p.data 0
  let (pins, _) ← forEachPinUsed m c.nbPins
    (fun (st : List PinState × Nat) pinId =>
      ((readBitValue p.data st.2 pinTypeBitsNb).bind fun type =>
        update st.1 pinId fun pin => { pin with pinsType := type.setWidth 8 }).map
        fun pins => (pins, st.2 + pinTypeBitsNb))
    (c.pinsState, c.nbPins)
  return { c with pinsState := pins }

def treatSetType (c : Connection) (p : Packet) : Option Connection :=
  if usesMask p then treatSetTypeMask c p else treatSetTypePin c p

def replySetType (d : Device) (p : Packet) : Option (Device × List Buffer) := do
  let conn ← treatSetType d.conn p
  sendId { d with conn } cmdSetType

/-! ## Failsafe -/

/-- The data of the failsafe reply for one pin, before id and timeout are filled in. -/
def replyGetFailsafePin (f : Failsafe) (p : Packet) : Option (Buffer × Nat) := do
  let pinId ← readBitValue p.data 0 pinsNoBitsNb
  let entry ← f.pinsFailsafe[(pinId.setWidth 8).toNat]?
  let valBits := getTypeBitsNb entry.pinState
  let dataBytes := (3 + bits2bytes (pinTypeBitsNb + valBits)) % 2 ^ 8
  let data ← initPacket (malloc dataBytes) dataBytes
  let offset := replyIdBitsNb + timeoutBitsNb
  let data ← writeBitValue data offset (entry.pinState.setWidth 16) pinTypeBitsNb
  let data ← writeBitValue data (offset + pinTypeBitsNb) entry.pinValue valBits
  return (data, dataBytes)

/-- The data of the failsafe reply for a set of pins; `data_bytes` is a `uint8_t`. -/
def replyGetFailsafeMask (c : Connection) (f : Failsafe) (p : Packet) : Option (Buffer × Nat) := do
  let m ← requestMask c p.data 0
  let nbPinsUsed ← maskNbPinsUsed m c.nbPins
  let maskedFailsafe ← subFailsafe f m c.nbPins
  let additionalBits ← failsafeNbBits maskedFailsafe nbPinsUsed
  let dataBytes := (3 + bits2bytes additionalBits) % 2 ^ 8
  let data ← initPacket (malloc dataBytes) dataBytes
  let data ← writeFailsafe data (replyIdBitsNb + timeoutBitsNb) maskedFailsafe nbPinsUsed
  return (data, dataBytes)

def replyGetFailsafe (d : Device) (p : Packet) : Option (Device × List Buffer) := do
  let f ← d.conn.failsafe
  let (data, dataBytes) ←
    if usesMask p then replyGetFailsafeMask d.conn f p else replyGetFailsafePin f p
  let (id, nextId) := getReplyId d.nextId
  let data ← store data 0 id
  -- the timeout is filled in last, between the id and the entries
  let data ← writeBitValue data replyIdBitsNb f.timeout timeoutBitsNb
  -- the command of a type change
  let frame ← sendPacket (setPacketHeader cmdSetType repCodeSuccess dataBytes data)
  return ({ d with nextId }, [frame])

/-- The entries after a failsafe request for one pin; the pin number follows the timeout. -/
def treatSetFailsafePin (pins : List PinFailsafe) (p : Packet) (type : BitVec 8) (valBits : Nat) :
    Option (List PinFailsafe) := do
  let pinId ← readBitValue p.data timeoutBitsNb pinsNoBitsNb
  let val ← readBitValue p.data (timeoutBitsNb + pinsNoBitsNb) valBits
  update pins (pinId.setWidth 8).toNat fun _ => { pinState := type, pinValue := val }

/-- The entries after a failsafe request for a set of pins; the mask follows the timeout. -/
def treatSetFailsafeMask (c : Connection) (pins : List PinFailsafe) (p : Packet)
    (type : BitVec 8) (valBits : Nat) : Option (List PinFailsafe) := do
  let m ← requestMask c p.data timeoutBitsNb
  let (pins, _) ← forEachPinUsed m c.nbPins
    (fun (st : List PinFailsafe × Nat) pinIndex =>
      ((readBitValue p.data st.2 valBits).bind fun val =>
        update st.1 pinIndex fun _ => { pinState := type, pinValue := val }).map
        fun pins => (pins, st.2 + valBits))
    (pins, timeoutBitsNb + c.nbPins)
  return pins

def replySetFailsafe (d : Device) (p : Packet) : Option (Device × List Buffer) := do
  let param ← readParam [p.header]
  let type := param >>> 1
  let valBits := getTypeBitsNb type
  let f ← d.conn.failsafe
  -- one timeout for all pins, whichever the request is about
  let timeout ← readBitValue p.data 0 timeoutBitsNb
  let pins ←
    if usesMask p then treatSetFailsafeMask d.conn f.pinsFailsafe p type valBits
    else treatSetFailsafePin f.pinsFailsafe p type valBits
  let conn := { d.conn with failsafe := some { timeout, pinsFailsafe := pins } }
  -- the command of a type change
  sendId { d with conn } cmdSetType

end PinProtocol
