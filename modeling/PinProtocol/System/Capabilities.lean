import PinProtocol.Firmware.Init
import PinProtocol.System.DeviceLink

/-!
# Capabilities — what the driver knows after `get_caps`

`get_caps` learns the number of pins, allocates the driver's own tables for that many pins and
copies the type masks.
-/

namespace PinProtocol

open Bits Control

/-- A loop over indices that copies one looked-up value to each index. -/
theorem copyLoop_eq {β : Type} {n : Nat} {get : Nat → Option β} {v : Nat → β}
    (hget : ∀ i < n, get i = some (v i)) {xs : List β} (hxs : xs.length = n) :
    (List.range n).foldlM (fun xs i => (get i).bind fun x => store xs i x) xs =
      some ((List.range n).map v) := by
  have hpairs : (List.range n).zipIdx = (List.range n).map fun i => (i, i) := by
    refine List.ext_getElem? fun k => ?_
    rw [List.getElem?_zipIdx, List.getElem?_map]
    by_cases hk : k < n
    · simp [hk]
    · simp [hk]
  have hcollect := collect_eq (List.range n) (fun i hi => hget i (List.mem_range.mp hi)) [] xs
    (by rw [hxs, List.length_range])
  rw [List.length_nil, hpairs, List.foldlM_map] at hcollect
  exact hcollect

section GetCaps

variable {d : Device}

theorem size_capsReply (d : Device) : (capsReply d).size.toNat = d.conn.nbPins + 2 := by
  have hbound := d.conn.nbPins_lt
  exact toNat_ofNat_size (by omega)

theorem capsReply_fits (hwf : d.conn.WellFormed) : (capsReply d).FitsBuild hostBuild := by
  have hbound := d.conn.nbPins_lt
  refine ⟨?_, ?_⟩
  · rw [size_capsReply]
    simp [capsReply, replyPacket, setPacketHeader, hwf.pinsMaskType]
  · rw [size_capsReply]
    show _ ≤ 612
    omega

theorem capsReply_pos (d : Device) : 0 < (capsReply d).size.toNat := by
  rw [size_capsReply]
  omega

/-- The data of the reply: the id, the number of pins, and one byte per pin. -/
theorem data_capsReply (hwf : d.conn.WellFormed) :
    (delivered (capsReply d)).data =
      d.nextId :: d.conn.caps.nbPins :: d.conn.caps.pinsMaskType := by
  have hlen : (d.nextId :: d.conn.caps.nbPins :: d.conn.caps.pinsMaskType).length =
      d.conn.nbPins + 2 := by
    simp [hwf.pinsMaskType]
  rw [data_delivered, size_capsReply, ← hlen]
  exact List.take_length

/-- The capabilities of the device, as the driver reads them from the reply. -/
theorem readDeviceCaps_eq (hwf : d.conn.WellFormed) (dc : DeviceCaps) :
    readDeviceCaps dc (delivered (capsReply d)) = some d.conn.caps := by
  have hmask := hwf.pinsMaskType
  have hread := readByteAt_eq (delivered (capsReply d)).data (show 1 < 2 ^ 12 by decide)
  rw [data_capsReply hwf, Nat.mul_one] at hread
  -- the number of pins is that of the device, and sets the length of the copy
  have hbyte : (d.conn.caps.nbPins.setWidth 16).setWidth 8 = d.conn.caps.nbPins := by
    simp
  have hget : ∀ i < d.conn.nbPins, d.conn.caps.pinsMaskType[i]? =
      some (d.conn.caps.pinsMaskType.getD i 0#8) := by
    intro i hi
    simp [hmask, hi]
  have hfresh : (malloc d.conn.nbPins).length = d.conn.nbPins := List.length_replicate ..
  have hcopy := copyLoop_eq hget hfresh
  have hcaps : (List.range d.conn.nbPins).map (fun i => d.conn.caps.pinsMaskType.getD i 0#8) =
      d.conn.caps.pinsMaskType := by
    refine List.ext_getElem? fun k => ?_
    by_cases hk : k < d.conn.nbPins
    · simp [hk, hmask]
    · have hout : d.conn.caps.pinsMaskType.length ≤ k := by omega
      simp [hk, hout]
  rw [hcaps] at hcopy
  simp only [readDeviceCaps, replyIdBitsNb, pinsNoBitsNb, data_capsReply hwf, hread,
    List.getElem?_cons_succ, List.getElem?_cons_zero, Option.map_some, Option.bind_eq_bind,
    Option.bind_some, hbyte]
  rw [← Connection.nbPins, hcopy]
  rfl

/-- `get_caps`: the tables of the driver are as `connection_init_resources` leaves them. -/
theorem getCaps_device (b : Build) (c : Connection) (hwf : d.conn.WellFormed) :
    getCaps (deviceLink b) c d =
      some
        { ret := 0
          out := ()
          conn :=
            { c with
              caps := d.conn.caps
              pinsState :=
                List.replicate d.conn.nbPins { freshPin with pinsType := pinTypeDisabled }
              failsafe := initialFailsafe hostBuild d.conn.nbPins }
          world := d.next } := by
  have hcmd := headerCmd_plain cmdGetCaps 0#8 (by decide) (by decide)
  have hfits : getCapsRequest.FitsBuild b :=
    FitsBuild_of_le_three b _ _ (Nat.zero_le 3) rfl
  have hserve : dispatch b d (delivered getCapsRequest) =
      some (d.next, [frameOf (delivered (capsReply d))]) := by
    rw [dispatch_getCaps hcmd, replyGetCaps_eq hwf]
  have hread := readByteAt_eq (delivered (capsReply d)).data (show 1 < 2 ^ 12 by decide)
  rw [data_capsReply hwf, Nat.mul_one] at hread
  have hbyte : (d.conn.caps.nbPins.setWidth 16).setWidth 8 = d.conn.caps.nbPins := by
    simp
  -- the driver sets its tables up for the number of pins in the reply
  have hinit := connectionInitResources_eq hostBuild
    (c := { c with caps := { c.caps with nbPins := d.conn.caps.nbPins } })
    (fun h => absurd h (by decide))
  rw [getCaps, operation_device rfl hfits hserve (capsReply_fits hwf) (capsReply_pos d)]
  simp only [getCapsApply, replyIdBitsNb, pinsNoBitsNb, data_capsReply hwf, hread,
    List.getElem?_cons_succ, List.getElem?_cons_zero, Option.map_some, Option.bind_eq_bind,
    Option.bind_some, hbyte, hinit, readDeviceCaps_eq hwf]
  rfl

end GetCaps

/-! ## The tables of the driver -/

/-- A connection of the driver that has just learned the capabilities `caps`. -/
structure KnowsCaps (c : Connection) (caps : DeviceCaps) : Prop where
  nbPins : c.caps.nbPins = caps.nbPins
  pinsMaskType : c.caps.pinsMaskType = caps.pinsMaskType
  length_pinsMaskType : c.caps.pinsMaskType.length = c.nbPins
  length_pinsState : c.pinsState.length = c.nbPins
  pinsType : ∀ pin ∈ c.pinsState, pin.pinsType = pinTypeDisabled
  failsafe : ∃ f, c.failsafe = some f ∧ f.timeout = 0 ∧ f.pinsFailsafe.length = c.nbPins ∧
    ∀ entry ∈ f.pinsFailsafe, entry.pinState = pinTypeDisabled ∧ entry.pinValue = 0

/-- Whatever the driver has allocated before, it ends with the device's capabilities and with
tables of their size, in which every pin is disabled. -/
theorem getCaps_knows (b : Build) (c : Connection) {d : Device} (hwf : d.conn.WellFormed) :
    ∃ r, getCaps (deviceLink b) c d = some r ∧ KnowsCaps r.conn d.conn.caps := by
  refine ⟨_, getCaps_device b c hwf, ?_⟩
  refine
    { nbPins := rfl
      pinsMaskType := rfl
      length_pinsMaskType := hwf.pinsMaskType
      length_pinsState := List.length_replicate
      pinsType := fun pin hpin => ?_
      failsafe := ⟨_, rfl, rfl, List.length_replicate, fun entry hentry => ?_⟩ }
  · rw [List.eq_of_mem_replicate hpin]
  · rw [List.eq_of_mem_replicate hentry]
    exact ⟨rfl, rfl⟩

theorem getCaps_knows_full :
    ∃ r, getCaps (deviceLink hostBuild) (initialDevice hostBuild 3#8).conn
        (initialDevice hostBuild 255#8) = some r ∧
      KnowsCaps r.conn (initialDevice hostBuild 255#8).conn.caps :=
  getCaps_knows hostBuild (initialDevice hostBuild 3#8).conn
    (initialDevice_wellFormed hostBuild 255#8)

end PinProtocol
