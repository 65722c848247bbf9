import PinProtocol.Firmware.PacketProcess

/-!
# Mainloop — the device's loop (`firmware/firmware.c`)

One iteration of `mainloop` reads one packet and treats it.  The loop ends when `connection_read`
fails and when a packet is not valid.
-/

namespace PinProtocol

open Bits Control

/-- `NB_PINS` -/
def firmwareNbPins : BitVec 8 := 16

/-- The mask of the five types that every pin supports. -/
def supportedTypes : Byte :=
  1#8 <<< pinTypeDigital + 1#8 <<< pinTypeAnalog8 + 1#8 <<< pinTypeAnalog16 +
    1#8 <<< pinTypePwm8 + 1#8 <<< pinTypePwm16

/-- `init_device_content`, for `nbPins` pins; the firmware has `firmwareNbPins` of them. -/
def initDeviceContent (b : Build) (nbPins : BitVec 8) : Option Device := do
  let conn ← connectionInitResources b
    { protocolVersion := 1
      caps := { nbPins, pinsMaskType := [] }
      pinsState := []
      failsafe := none }
  let (maskType, pins) ← (List.range nbPins.toNat).foldlM
    (fun (st : List Byte × List PinState) i => do
      let maskType ← store st.1 i supportedTypes
      let pins ← store st.2 i { pinsType := pinTypeDigital, pinsVal := 0 }
      return (maskType, pins))
    (conn.caps.pinsMaskType, conn.pinsState)
  let conn := { conn with caps := { conn.caps with pinsMaskType := maskType }, pinsState := pins }
  return { conn, nextId := 0 }

/-- The `switch` of `mainloop`. -/
def dispatch (b : Build) (d : Device) (p : Packet) : Option (Device × List Buffer) := do
  let cmd ← readCmd [p.header]
  match cmd.toNat with
  | 0 => replyGetCaps d
  | 1 => replyReset d
  | 2 => replyPing d
  | 3 => replyRead d p
  | 4 => replyWrite d p
  | 5 => replyGetType d p
  | 6 => replySetType d p
  -- the two cases that DISABLE_FAILSAFE leaves out
  | 7 => if b.disableFailsafe then some (d, []) else replyGetFailsafe d p
  | 8 => if b.disableFailsafe then some (d, []) else replySetFailsafe d p
  | _ => some (d, [])

inductive LoopStep
  | stopped
  | served (d : Device) (replies : List Buffer)
  deriving DecidableEq, Repr

/-- One iteration of `mainloop`, when its `read` delivers `chunk`. -/
def mainloopStep (b : Build) (d : Device) (chunk : Buffer) : Option LoopStep := do
  match ← connectionRead b chunk with
  | .error => return .stopped
  | .packet p =>
      let valid ← packetValid p
      if valid then
        let (d, replies) ← dispatch b d p
        return .served d replies
      else
        -- if ( !packet_valid(&p) ) return;
        return .stopped

/-- `mainloop`, when its reads deliver `chunks`: the device at the end of the loop, or when it
waits for more, and all frames that it has sent. -/
def mainloop (b : Build) (d : Device) : List Buffer → Option (Device × List Buffer)
  | [] => some (d, [])
  | chunk :: chunks =>
      (mainloopStep b d chunk).bind fun
        | .stopped => some (d, [])
        | .served d' replies =>
            (mainloop b d' chunks).map fun r => (r.1, replies ++ r.2)

end PinProtocol
