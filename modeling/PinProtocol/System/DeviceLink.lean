import PinProtocol.Driver.Requests
import PinProtocol.Firmware.Dispatch

/-!
# DeviceLink — driver and device joined

`deviceLink` is the link whose other end is a device: the frame of a request is what one `read` of
the device delivers, and the one frame of its reply is what one `read` of the driver delivers.

`operation_device` composes a driver operation over this link from three facts: the request that
the driver builds, the reply that the device sends, and what the driver makes of that reply.
-/

namespace PinProtocol

open Bits Control

/-- A device of build `b` at the other end of the line. -/
def deviceLink (b : Build) : Link Device := fun frame d =>
  if b.buffSize < frame.length then none
  else
    match mainloopStep b d frame with
    | some (.served d [reply]) =>
        if hostBuild.buffSize < reply.length then none
        else
          match connectionRead hostBuild reply with
          | some (.packet p) => some (p, d)
          | _ => none
    | _ => none

/-! ## One exchange -/

/-- A packet whose size is that of its data, and that one `read` of the end `b` takes. -/
structure Packet.FitsBuild (p : Packet) (b : Build) : Prop where
  size_le : p.size.toNat ≤ p.data.length
  frame_le : p.size.toNat + 4 ≤ b.buffSize

theorem Packet.FitsBuild.send {p : Packet} {b : Build} (h : p.FitsBuild b) :
    sendPacket p = some (frameOf (delivered p)) :=
  sendPacket_eq h.size_le (by have := h.frame_le; have := buffSize_le b; omega)

/-- The device treats the packet that has been sent. -/
theorem mainloopStep_delivered {b : Build} {d : Device} {p : Packet} (h : p.FitsBuild b) :
    mainloopStep b d (frameOf (delivered p)) =
      (dispatch b d (delivered p)).map fun r => .served r.1 r.2 := by
  simp only [mainloopStep, connectionRead_delivered b h.size_le, Option.bind_eq_bind,
    Option.bind_some, packetValid_delivered h.size_le, if_true]
  cases dispatch b d (delivered p) <;> rfl

theorem deviceLink_served {b : Build} {d d' : Device} {p r : Packet} (hp : p.FitsBuild b)
    (hserve : dispatch b d (delivered p) = some (d', [frameOf (delivered r)]))
    (hr : r.FitsBuild hostBuild) :
    deviceLink b (frameOf (delivered p)) d = some (delivered r, d') := by
  have hlen : ¬ b.buffSize < (frameOf (delivered p)).length := by
    rw [length_frameOf_delivered hp.size_le]
    exact Nat.not_lt.mpr hp.frame_le
  have hlen' : ¬ hostBuild.buffSize < (frameOf (delivered r)).length := by
    rw [length_frameOf_delivered hr.size_le]
    exact Nat.not_lt.mpr hr.frame_le
  simp only [deviceLink, hlen, if_false, mainloopStep_delivered hp, hserve, Option.map_some, hlen',
    connectionRead_delivered hostBuild hr.size_le]

theorem deviceLink_fault {b : Build} {d : Device} {p : Packet} (hp : p.FitsBuild b)
    (hfault : dispatch b d (delivered p) = none) :
    deviceLink b (frameOf (delivered p)) d = none := by
  simp only [deviceLink, mainloopStep_delivered hp, hfault, Option.map_none]
  split <;> rfl

/-- `read_reply` gets through as soon as the reply has an id. -/
theorem readReply_eq {reply : Packet} (hpos : 0 < reply.data.length)
    (hsize : reply.size.toNat ≤ reply.data.length) : readReply reply = some () := by
  have hfit : 0 + max 8 1 ≤ 8 * reply.data.length := by omega
  have hid : readBitValue reply.data 0 8 = _ :=
    readBitValue_eq (show 0 < 2 ^ 16 by decide) (show 8 ≤ 16 by decide)
  rw [if_pos hfit] at hid
  simp only [readReply, replyIdBitsNb, hid, packetValid_eq hsize, Option.bind_eq_bind,
    Option.bind_some]
  rfl

theorem exchange_device {b : Build} {d d' : Device} {p r : Packet} (hp : p.FitsBuild b)
    (hserve : dispatch b d (delivered p) = some (d', [frameOf (delivered r)]))
    (hr : r.FitsBuild hostBuild) (hid : 0 < r.size.toNat) :
    exchange (deviceLink b) p d = some (delivered r, d') := by
  have hdata : (delivered r).data.length = r.size.toNat := by simp [hr.size_le]
  have hreply : readReply (delivered r) = some () :=
    readReply_eq (by omega) (by rw [size_delivered, hdata])
  simp only [exchange, hp.send, Option.bind_eq_bind, Option.bind_some,
    deviceLink_served hp hserve hr, hreply]
  rfl

/-- A driver operation whose request is served by the device. -/
theorem operation_device {α : Type} {b : Build} {d d' : Device} {request : Option Packet}
    {apply : Packet → Option (Int × α × Connection)} {p r : Packet} (hrequest : request = some p)
    (hp : p.FitsBuild b)
    (hserve : dispatch b d (delivered p) = some (d', [frameOf (delivered r)]))
    (hr : r.FitsBuild hostBuild) (hid : 0 < r.size.toNat) :
    operation (deviceLink b) d request apply =
      (apply (delivered r)).map fun s =>
        { ret := s.1, out := s.2.1, conn := s.2.2, world := d' } := by
  simp only [operation, hrequest, Option.bind_eq_bind, Option.bind_some,
    exchange_device hp hserve hr hid]
  cases apply (delivered r) <;> rfl

/-- A driver operation whose request makes the device fault. -/
theorem operation_device_fault {α : Type} {b : Build} {d : Device} {request : Option Packet}
    {apply : Packet → Option (Int × α × Connection)} {p : Packet} (hrequest : request = some p)
    (hp : p.FitsBuild b) (hfault : dispatch b d (delivered p) = none) :
    operation (deviceLink b) d request apply = none := by
  simp only [operation, hrequest, Option.bind_eq_bind, Option.bind_some, exchange, hp.send,
    deviceLink_fault hp hfault, Option.bind_none]

/-- A driver operation whose request is longer than what one `read` of the device takes. -/
theorem operation_device_long {α : Type} {b : Build} {d : Device} {request : Option Packet}
    {apply : Packet → Option (Int × α × Connection)} {p : Packet} (hrequest : request = some p)
    (hsize : p.size.toNat ≤ p.data.length) (hword : p.size.toNat + 4 < 2 ^ 16)
    (hlong : b.buffSize < p.size.toNat + 4) :
    operation (deviceLink b) d request apply = none := by
  have hlink : deviceLink b (frameOf (delivered p)) d = none := by
    rw [deviceLink, if_pos (by rw [length_frameOf_delivered hsize]; exact hlong)]
  simp only [operation, hrequest, Option.bind_eq_bind, Option.bind_some, exchange,
    sendPacket_eq hsize hword, hlink, Option.bind_none]

/-! ## Replies of the device, as the driver reads them -/

theorem toNat_ofNat_size {n : Nat} (h : n < 2 ^ 16) : (BitVec.ofNat 16 n).toNat = n := by
  simp
  omega

theorem setPacketHeader_fits {b : Build} (cmdNo param : BitVec 8) {size : Nat} {data : Buffer}
    (hsize : size = data.length) (hframe : size + 4 ≤ b.buffSize) :
    (setPacketHeader cmdNo param size data).FitsBuild b := by
  have hword : (setPacketHeader cmdNo param size data).size.toNat = size :=
    toNat_ofNat_size (by have := buffSize_le b; omega)
  refine ⟨?_, ?_⟩
  · rw [hword, hsize]
    exact Nat.le_refl _
  · rw [hword]
    exact hframe

theorem le_buffSize (b : Build) : 42 ≤ b.buffSize := by
  unfold Build.buffSize
  split <;> decide

/-- The frames of single-pin requests are short enough for every build. -/
theorem FitsBuild_of_le_three (b : Build) (cmdNo param : BitVec 8) {size : Nat} {data : Buffer}
    (hsize : size ≤ 3) (hdata : size = data.length) :
    (setPacketHeader cmdNo param size data).FitsBuild b :=
  setPacketHeader_fits cmdNo param hdata (by have := le_buffSize b; omega)

theorem idReply_fits (cmdNo id : BitVec 8) : (idReply cmdNo id).FitsBuild hostBuild :=
  ⟨show 1 ≤ 1 by decide, show 1 + 4 ≤ 612 by decide⟩

theorem idReply_pos (cmdNo id : BitVec 8) : 0 < (idReply cmdNo id).size.toNat :=
  show 0 < 1 by decide

section FieldsReply

variable (cmdNo id : BitVec 8) {width : Nat} {vals : List (BitVec 16)}

theorem toNat_size_fieldsReply (h : width * vals.length ≤ 16 * 255) :
    (fieldsReply cmdNo id width vals).size.toNat = (7 + width * vals.length) / 8 + 1 :=
  toNat_ofNat_size (by omega)

theorem length_data_fieldsReply :
    (fieldsReply cmdNo id width vals).data.length = (7 + width * vals.length) / 8 + 1 := by
  simp [fieldsReply, replyPacket, setPacketHeader]

theorem fieldsReply_fits (h : width * vals.length ≤ 16 * 255) :
    (fieldsReply cmdNo id width vals).FitsBuild hostBuild := by
  refine ⟨?_, ?_⟩
  · rw [toNat_size_fieldsReply cmdNo id h, length_data_fieldsReply]
  · rw [toNat_size_fieldsReply cmdNo id h]
    show _ ≤ 612
    omega

theorem fieldsReply_pos (h : width * vals.length ≤ 16 * 255) :
    0 < (fieldsReply cmdNo id width vals).size.toNat := by
  rw [toNat_size_fieldsReply cmdNo id h]
  omega

theorem length_delivered_fieldsReply (h : width * vals.length ≤ 16 * 255) :
    (delivered (fieldsReply cmdNo id width vals)).data.length =
      (7 + width * vals.length) / 8 + 1 := by
  rw [data_delivered, List.length_take, toNat_size_fieldsReply cmdNo id h,
    length_data_fieldsReply, Nat.min_self]

/-- Behind the reply id, the data holds the pattern of the fields. -/
theorem bitAt_delivered_fieldsReply (h : width * vals.length ≤ 16 * 255) {j : Nat} (hlo : 8 ≤ j) :
    bitAt (delivered (fieldsReply cmdNo id width vals)).data j = fieldsBits 8 width vals j := by
  by_cases hin : j < 8 * ((7 + width * vals.length) / 8 + 1)
  · -- the id is in the byte in front of the fields
    have hbyte : j / 8 ≠ 0 := by omega
    have hin' : j < 8 * (zeros ((7 + width * vals.length) / 8 + 1)).length := by
      rw [length_zeros]
      exact hin
    rw [data_delivered, toNat_size_fieldsReply cmdNo id h, bitAt_take hin, fieldsReply,
      replyPacket, setPacketHeader, bitAt_set _ hbyte, bitAt_orBits, bitAt_zeros,
      decide_eq_true hin']
    simp
  · rw [fieldsBits_after (by omega)]
    exact bitAt_of_length_le (by rw [length_delivered_fieldsReply cmdNo id h]; omega)

/-- The values of a reply are those of its pattern, also past the last one. -/
theorem fieldAt_delivered_fieldsReply (h : width * vals.length ≤ 16 * 255) (i : Nat) :
    fieldAt (bitAt (delivered (fieldsReply cmdNo id width vals)).data) 8 width i =
      fieldAt (fieldsBits 8 width vals) 8 width i := by
  refine congrArg (BitVec.ofNat 16) (fieldRead_congr fun r _ => ?_)
  exact bitAt_delivered_fieldsReply cmdNo id h (by omega)

end FieldsReply

end PinProtocol
