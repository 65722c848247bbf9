import PinProtocol.Common.Connection

/-!
# Operations — the driver (`driver/driver.c`)

Every operation builds a request, sends it, waits for one reply and stores something.  The first
and the last part are separate functions here (`…Request`, `…Apply`); what happens in between is
the business of a `Link`: it takes the frame that `send_packet` has written and delivers the
packet that `connection_read` returns.  A link that does not deliver is a driver that is blocked,
or that has left through `exit( 1 )`.
-/

namespace PinProtocol

open Bits Control

variable {W : Type}

/-- What lies between the driver and a reply; `W` is the state of the other end. -/
abbrev Link (W : Type) := Buffer → W → Option (Packet × W)

/-- A call that has returned: its result, what it stored through its pointer argument, and both
ends afterwards. -/
structure Done (W α : Type) where
  ret : Int
  out : α
  conn : Connection
  world : W

/-- `read_reply` prints what is wrong with a reply, and returns all the same. -/
def readReply (reply : Packet) : Option Unit := do
  let _replyId ← readBitValue reply.data 0 replyIdBitsNb
  let _valid ← packetValid reply
  return ()

/-- `send_packet` followed by `read_reply` -/
def exchange (link : Link W) (p : Packet) (w : W) : Option (Packet × W) := do
  let frame ← sendPacket p
  let (reply, w) ← link frame w
  readReply reply
  return (reply, w)

/-- An operation: its request, then its treatment of the reply. -/
def operation {α : Type} (link : Link W) (w : W) (request : Option Packet)
    (apply : Packet → Option (Int × α × Connection)) : Option (Done W α) := do
  let p ← request
  let (reply, w) ← exchange link p w
  let (ret, out, conn) ← apply reply
  return { ret, out, conn, world := w }

/-- Parameter of a header: the type in its upper three bits, and the kind of addressing. -/
def typeParam (type kind : BitVec 8) : BitVec 8 :=
  type <<< 1 + kind

/-- The request of the operations that send a pin number and nothing else. -/
def pinRequest (cmdNo param pinId : BitVec 8) : Option Packet := do
  let buffer ← initPacket (malloc pinsNoBytesNb) pinsNoBytesNb
  let buffer ← writeBitValue buffer 0 (pinId.setWidth 16) pinsNoBitsNb
  return setPacketHeader cmdNo param pinsNoBytesNb buffer

/-! ## Capabilities, reset, ping -/

def getCapsRequest : Packet :=
  setPacketHeader cmdGetCaps 0 0 []

def getCapsApply (c : Connection) (reply : Packet) : Option (Int × Unit × Connection) := do
  let nbPins ← readBitValue reply.data replyIdBitsNb pinsNoBitsNb
  let c := { c with caps := { c.caps with nbPins := nbPins.setWidth 8 } }
  -- the tables are allocated anew for this number of pins
  let c ← connectionInitResources hostBuild c
  let caps ← readDeviceCaps c.caps reply
  return (0, (), { c with caps })

def getCaps (link : Link W) (c : Connection) (w : W) : Option (Done W Unit) :=
  operation link w (some getCapsRequest) (getCapsApply c)

def resetRequest : Packet :=
  setPacketHeader cmdReset 0 0 []

def reset (link : Link W) (c : Connection) (w : W) : Option (Done W Unit) :=
  operation link w (some resetRequest) fun _ => some (0, (), c)

def pingRequest (c : Connection) : Option Packet := do
  let buffer ← initPacket (malloc versionBytesNb) versionBytesNb
  let buffer ← writeBitValue buffer 0 (c.protocolVersion.setWidth 16) 8
  return setPacketHeader cmdPing 0 1 buffer

def pingApply (c : Connection) (reply : Packet) : Option (Int × BitVec 8 × Connection) := do
  -- read_bit_value( reply.data + 1, … ): behind the reply id
  let version ← readBitValue (reply.data.drop 1) 0 versionBitsNb
  return (0, version.setWidth 8, c)

def ping (link : Link W) (c : Connection) (w : W) : Option (Done W (BitVec 8)) :=
  operation link w (pingRequest c) (pingApply c)

/-! ## Reading -/

def genericReadRequest (pinId pinMode : BitVec 8) : Option Packet :=
  pinRequest cmdRead (typeParam pinMode usePinId) pinId

def genericReadApply (c : Connection) (pinId pinMode : BitVec 8) (reply : Packet) :
    Option (Int × BitVec 16 × Connection) := do
  let val ← readBitValue reply.data replyIdBitsNb (getTypeBitsNb pinMode)
  -- the type in the cache stays, whatever mode was asked for
  let pins ← update c.pinsState pinId.toNat fun pin => { pin with pinsVal := val }
  return (0, val, { c with pinsState := pins })

def genericRead (link : Link W) (c : Connection) (w : W) (pinId pinMode : BitVec 8) :
    Option (Done W (BitVec 16)) :=
  operation link w (genericReadRequest pinId pinMode) (genericReadApply c pinId pinMode)

def digitalRead (link : Link W) (c : Connection) (w : W) (pinId : BitVec 8) :
    Option (Done W Bool) := do
  let r ← genericRead link c w pinId pinTypeDigital
  return { ret := 0, out := r.out != 0, conn := r.conn, world := r.world }

def analogicRead (link : Link W) (c : Connection) (w : W) (pinId : BitVec 8) :
    Option (Done W (BitVec 16)) := do
  let r ← genericRead link c w pinId pinTypeAnalog16
  return { r with ret := 0 }

def pwm8Read (link : Link W) (c : Connection) (w : W) (pinId : BitVec 8) :
    Option (Done W (BitVec 8)) := do
  let r ← genericRead link c w pinId pinTypePwm8
  -- the uint16_t value is stored through a uint8_t pointer
  return { ret := 0, out := r.out.setWidth 8, conn := r.conn, world := r.world }

def pwm16Read (link : Link W) (c : Connection) (w : W) (pinId : BitVec 8) :
    Option (Done W (BitVec 16)) := do
  let r ← genericRead link c w pinId pinTypePwm16
  return { r with ret := 0 }

def readValueMaskRequest (c : Connection) (mask : Mask) (type : BitVec 8) : Option Packet := do
  let dataBytes := bits2bytes c.nbPins
  let data ← initPacket (malloc dataBytes) dataBytes
  let data ← writeMask data mask c.nbPins
  return setPacketHeader cmdRead (typeParam type useMask) dataBytes data

/-- The values are stored from `values[0]` on, and the cache is filled along the way. -/
def readValueMaskApply (c : Connection) (mask : Mask) (type : BitVec 8) (reply : Packet) :
    Option (Int × List (BitVec 16) × Connection) := do
  let valBits := getTypeBitsNb type
  let ((values, pins), _) ← forEachPinUsed mask c.nbPins
    (fun (st : (List (BitVec 16) × List PinState) × Nat) pinIndex =>
      ((readBitValue reply.data st.2 valBits).bind fun val =>
        (update st.1.2 pinIndex fun pin => { pin with pinsVal := val }).map
          fun pins => (st.1.1 ++ [val], pins)).map
        fun r => (r, st.2 + valBits))
    (([], c.pinsState), replyIdBitsNb)
  return (0, values, { c with pinsState := pins })

def readValueMask (link : Link W) (c : Connection) (w : W) (mask : Mask) (type : BitVec 8) :
    Option (Done W (List (BitVec 16))) :=
  operation link w (readValueMaskRequest c mask type) (readValueMaskApply c mask type)

/-! ## Writing -/

def genericWriteRequest (pinId pinMode : BitVec 8) (val : BitVec 16) (valSize : Nat) :
    Option Packet := do
  let dataBytes := bits2bytes (pinsNoBitsNb + valSize)
  let buffer ← initPacket (malloc dataBytes) dataBytes
  let buffer ← writeBitValue buffer 0 (pinId.setWidth 16) pinsNoBitsNb
  let buffer ← writeBitValue buffer pinsNoBitsNb val valSize
  return setPacketHeader cmdWrite (typeParam pinMode usePinId) dataBytes buffer

def genericWriteApply (c : Connection) (pinId : BitVec 8) (val : BitVec 16) :
    Option (Int × Unit × Connection) := do
  -- the value as the caller gave it; `pin_mode` is not taken over
  let pins ← update c.pinsState pinId.toNat fun pin => { pin with pinsVal := val }
  return (0, (), { c with pinsState := pins })

def genericWrite (link : Link W) (c : Connection) (w : W) (pinId pinMode : BitVec 8)
    (val : BitVec 16) (valSize : Nat) : Option (Done W Unit) :=
  operation link w (genericWriteRequest pinId pinMode val valSize)
    fun _ => genericWriteApply c pinId val

def digitalWrite (link : Link W) (c : Connection) (w : W) (pinId : BitVec 8) (val : Bool) :
    Option (Done W Unit) :=
  genericWrite link c w pinId pinTypeDigital ((BitVec.ofBool val).setWidth 16) 1

def analogicWrite (link : Link W) (c : Connection) (w : W) (pinId : BitVec 8)
    (val : BitVec 16) : Option (Done W Unit) :=
  genericWrite link c w pinId pinTypeAnalog16 val 16

def pwm8Write (link : Link W) (c : Connection) (w : W) (pinId : BitVec 8)
    (val : BitVec 16) : Option (Done W Unit) :=
  genericWrite link c w pinId pinTypePwm8 val 8

def pwm16Write (link : Link W) (c : Connection) (w : W) (pinId : BitVec 8)
    (val : BitVec 16) : Option (Done W Unit) :=
  genericWrite link c w pinId pinTypePwm16 val 16

/-- The loop that copies `values` into the cache, one per pin used. -/
def storePerPin {α β : Type} (mask : Mask) (maskLength : Nat) (xs : List α) (values : List β)
    (f : β → α → α) : Option (List α) :=
  (forEachPinUsed mask maskLength
    (fun (st : List α × Nat) pinIndex =>
      (values[st.2]?.bind fun v => update st.1 pinIndex (f v)).map fun xs => (xs, st.2 + 1))
    (xs, 0)).map Prod.fst

def writeValueMaskRequest (c : Connection) (mask : Mask) (type : BitVec 8)
    (values : List (BitVec 16)) : Option Packet := do
  let nbPinsUsed ← maskNbPinsUsed mask c.nbPins
  let valueBits := getTypeBitsNb type
  let dataBytes := bits2bytesUnsigned (c.nbPins + nbPinsUsed * valueBits)
  let data ← initPacket (malloc dataBytes) dataBytes
  let data ← writeMask data mask c.nbPins
  -- the values start at the first bit behind the mask
  let data ← writeValueList data c.nbPins values nbPinsUsed valueBits
  return setPacketHeader cmdWrite (typeParam type useMask) dataBytes data

def writeValueMaskApply (c : Connection) (mask : Mask) (values : List (BitVec 16)) :
    Option (Int × Unit × Connection) := do
  let pins ← storePerPin mask c.nbPins c.pinsState values fun v pin => { pin with pinsVal := v }
  return (0, (), { c with pinsState := pins })

def writeValueMask (link : Link W) (c : Connection) (w : W) (mask : Mask) (type : BitVec 8)
    (values : List (BitVec 16)) : Option (Done W Unit) :=
  operation link w (writeValueMaskRequest c mask type values)
    fun _ => writeValueMaskApply c mask values

/-! ## Pin types -/

def getTypeRequest (pinId : BitVec 8) : Option Packet :=
  pinRequest cmdGetType usePinId pinId

def getTypeApply (c : Connection) (pinId : BitVec 8) (reply : Packet) :
    Option (Int × BitVec 8 × Connection) := do
  let type ← readBitValue reply.data replyIdBitsNb pinTypeBitsNb
  let pins ← update c.pinsState pinId.toNat fun pin => { pin with pinsType := type.setWidth 8 }
  return (0, type.setWidth 8, { c with pinsState := pins })

def getType (link : Link W) (c : Connection) (w : W) (pinId : BitVec 8) :
    Option (Done W (BitVec 8)) :=
  operation link w (getTypeRequest pinId) (getTypeApply c pinId)

/-- `data_bits` is one less than the number of pins; `write_mask` receives it as a `uint8_t`. -/
def getTypeMaskRequest (c : Connection) (mask : Mask) : Option Packet := do
  let dataBits := (c.nbPins + 2 ^ 32 - 1) % 2 ^ 32
  let dataBytes := bits2bytesUnsigned dataBits
  let buffer ← initPacket (malloc dataBytes) dataBytes
  let buffer ← writeMask buffer mask (dataBits % 2 ^ 8)
  return setPacketHeader cmdGetType useMask dataBytes buffer

def getTypeMaskApply (c : Connection) (mask : Mask) (reply : Packet) :
    Option (Int × List (BitVec 16) × Connection) := do
  let nbPinsUsed ← maskNbPinsUsed mask c.nbPins
  -- the reply is read for the last pin too, which the request has left out
  let types ← readValueList reply.data replyIdBitsNb nbPinsUsed pinTypeBitsNb
  let pins ← storePerPin mask c.nbPins c.pinsState types
    fun type pin => { pin with pinsType := type.setWidth 8 }
  return (1, types, { c with pinsState := pins })

def getTypeMask (link : Link W) (c : Connection) (w : W) (mask : Mask) :
    Option (Done W (List (BitVec 16))) :=
  operation link w (getTypeMaskRequest c mask) (getTypeMaskApply c mask)

def setTypeRequest (pinId type : BitVec 8) : Option Packet := do
  let dataSize := bits2bytes (pinsNoBitsNb + pinTypeBitsNb)
  let buffer ← initPacket (malloc dataSize) dataSize
  let buffer ← writeBitValue buffer 0 (pinId.setWidth 16) pinsNoBitsNb
  let buffer ← writeBitValue buffer pinsNoBitsNb (type.setWidth 16) pinTypeBitsNb
  return setPacketHeader cmdSetType usePinId dataSize buffer

def setTypeApply (c : Connection) (pinId type : BitVec 8) : Option (Int × Unit × Connection) := do
  -- all eight bits of the type, of which three were sent
  let pins ← update c.pinsState pinId.toNat fun pin => { pin with pinsType := type }
  return (1, (), { c with pinsState := pins })

def setType (link : Link W) (c : Connection) (w : W) (pinId type : BitVec 8) :
    Option (Done W Unit) :=
  operation link w (setTypeRequest pinId type) fun _ => setTypeApply c pinId type

def setTypeMaskRequest (c : Connection) (mask : Mask) (values : List (BitVec 16)) :
    Option Packet := do
  let nbValues ← maskNbPinsUsed mask c.nbPins
  let dataBytes := bits2bytes (c.nbPins + pinTypeBitsNb * nbValues)
  let data ← initPacket (malloc dataBytes) dataBytes
  let data ← writeMask data mask c.nbPins
  let data ← writeValueList data c.nbPins values nbValues pinTypeBitsNb
  return setPacketHeader cmdSetType useMask dataBytes data

def setTypeMaskApply (c : Connection) (mask : Mask) (values : List (BitVec 16)) :
    Option (Int × Unit × Connection) := do
  let pins ← storePerPin mask c.nbPins c.pinsState values
    fun v pin => { pin with pinsType := v.setWidth 8 }
  return (0, (), { c with pinsState := pins })

def setTypeMask (link : Link W) (c : Connection) (w : W) (mask : Mask)
    (values : List (BitVec 16)) : Option (Done W Unit) :=
  operation link w (setTypeMaskRequest c mask values) fun _ => setTypeMaskApply c mask values

/-! ## Failsafe -/

def getFailsafeRequest (pinId : BitVec 8) : Option Packet :=
  pinRequest cmdGetFailsafe usePinId pinId

/-- The entry goes to the caller; the driver's own table is not touched. -/
def getFailsafeApply (c : Connection) (reply : Packet) :
    Option (Int × PinFailsafe × Connection) := do
  let offset := replyIdBitsNb + timeoutBitsNb
  let pinState ← readBitValue reply.data offset pinTypeBitsNb
  let pinState := pinState.setWidth 8
  let pinValue ← readBitValue reply.data (offset + pinTypeBitsNb) (getTypeBitsNb pinState)
  return (1, { pinState, pinValue }, c)

def getFailsafe (link : Link W) (c : Connection) (w : W) (pinId : BitVec 8) :
    Option (Done W PinFailsafe) :=
  operation link w (getFailsafeRequest pinId) (getFailsafeApply c)

/-- The request is sized for the types of the pins used, and filled with the whole mask. -/
def getFailsafeMaskRequest (c : Connection) (mask : Mask) : Option Packet := do
  let nbPinsUsed ← maskNbPinsUsed mask c.nbPins
  let dataBytes := bits2bytesUnsigned (nbPinsUsed * pinTypeBitsNb)
  let data ← initPacket (malloc dataBytes) dataBytes
  let data ← writeMask data mask c.nbPins
  return setPacketHeader cmdGetFailsafe useMask dataBytes data

def getFailsafeMaskApply (c : Connection) (mask : Mask) (f : Failsafe) (reply : Packet) :
    Option (Int × Failsafe × Connection) := do
  let nbPinsUsed ← maskNbPinsUsed mask c.nbPins
  let timeout ← readBitValue reply.data replyIdBitsNb timeoutBitsNb
  let f ← readFailsafe reply.data (replyIdBitsNb + timeoutBitsNb) { f with timeout } nbPinsUsed
  -- entries go into the own table as well, the timeout does not
  let own ← c.failsafe
  let pins ← storePerPin mask c.nbPins own.pinsFailsafe f.pinsFailsafe fun entry _ => entry
  return (1, f, { c with failsafe := some { own with pinsFailsafe := pins } })

def getFailsafeMask (link : Link W) (c : Connection) (w : W) (mask : Mask) (f : Failsafe) :
    Option (Done W Failsafe) :=
  operation link w (getFailsafeMaskRequest c mask) (getFailsafeMaskApply c mask f)

/-- The size counts the pin number with `PINS_NO_BYTES_NB`, that is, as one bit. -/
def setFailsafeRequest (pinNo : BitVec 8) (timeout : BitVec 16) (fs : PinFailsafe) :
    Option Packet := do
  let typeBits := getTypeBitsNb fs.pinState
  let dataBytes := bits2bytesUnsigned (timeoutBitsNb + pinsNoBytesNb + typeBits)
  let data ← initPacket (malloc dataBytes) dataBytes
  let data ← writeBitValue data 0 timeout timeoutBitsNb
  let data ← writeBitValue data timeoutBitsNb (pinNo.setWidth 16) pinsNoBitsNb
  let data ← writeBitValue data (timeoutBitsNb + pinsNoBitsNb) fs.pinValue typeBits
  return setPacketHeader cmdSetFailsafe (typeParam fs.pinState usePinId) dataBytes data

def setFailsafeApply (c : Connection) (pinNo : BitVec 8) (timeout : BitVec 16)
    (fs : PinFailsafe) : Option (Int × Unit × Connection) := do
  let own ← c.failsafe
  let pins ← update own.pinsFailsafe pinNo.toNat fun _ => fs
  return (1, (), { c with failsafe := some { timeout, pinsFailsafe := pins } })

def setFailsafe (link : Link W) (c : Connection) (w : W) (pinNo : BitVec 8) (timeout : BitVec 16)
    (fs : PinFailsafe) : Option (Done W Unit) :=
  operation link w (setFailsafeRequest pinNo timeout fs)
    fun _ => setFailsafeApply c pinNo timeout fs

def setFailsafeMaskRequest (c : Connection) (m : Mask) (type : BitVec 8) (timeout : BitVec 16)
    (values : List (BitVec 16)) : Option Packet := do
  let nbPinsUsed ← maskNbPinsUsed m c.nbPins
  let valBits := getTypeBitsNb type
  let dataBytes := bits2bytes (timeoutBitsNb + c.nbPins + nbPinsUsed * valBits)
  let data ← initPacket (malloc dataBytes) dataBytes
  let data ← writeBitValue data 0 timeout timeoutBitsNb
  -- write_mask( p.data + 2, … )
  let data ← atPtr data 2 fun data => writeMask data m c.nbPins
  let data ← writeValueList data (timeoutBitsNb + c.nbPins) values nbPinsUsed valBits
  return setPacketHeader cmdSetFailsafe (typeParam type useMask) dataBytes data

def setFailsafeMaskApply (c : Connection) (m : Mask) (type : BitVec 8) (timeout : BitVec 16)
    (values : List (BitVec 16)) : Option (Int × Unit × Connection) := do
  let own ← c.failsafe
  let pins ← storePerPin m c.nbPins own.pinsFailsafe values
    fun v _ => { pinState := type, pinValue := v }
  return (0, (), { c with failsafe := some { timeout, pinsFailsafe := pins } })

def setFailsafeMask (link : Link W) (c : Connection) (w : W) (m : Mask) (type : BitVec 8)
    (timeout : BitVec 16) (values : List (BitVec 16)) : Option (Done W Unit) :=
  operation link w (setFailsafeMaskRequest c m type timeout values)
    fun _ => setFailsafeMaskApply c m type timeout values

end PinProtocol
