import PinProtocol.Firmware.Init
import PinProtocol.System.PinOperations

/-!
# MaskOperations — the operations on a set of pins, over the device

One equation per driver operation that takes a mask.  `usedPins mask nbPins` are the pins it is
about, in ascending order; all loops of both ends are scatters over that list.
-/

namespace PinProtocol

open Bits Control

/-! ## Two ends that know the same pins -/

/-- Driver and device after the driver has learnt how many pins there are. -/
structure Paired (c : Connection) (d : Device) : Prop where
  same : c.nbPins = d.conn.nbPins
  pos : 0 < c.nbPins
  driver : c.pinsState.length = c.nbPins
  device : d.conn.WellFormed

theorem Paired.device_length {c : Connection} {d : Device} (h : Paired c d) :
    d.conn.pinsState.length = c.nbPins :=
  h.device.pinsState.trans h.same.symm

/-- A device that has just been initialised, and a driver that knows as much as it does. -/
theorem initialDevice_paired (b : Build) {nbPins : BitVec 8} (hpos : 0 < nbPins.toNat) :
    Paired (initialDevice b nbPins).conn (initialDevice b nbPins) where
  same := rfl
  pos := hpos
  driver := (initialDevice_wellFormed b nbPins).pinsState
  device := initialDevice_wellFormed b nbPins

/-- What a scatter leaves at the `n`-th index. -/
theorem pinAt_scatter {c : Connection} {is : List Nat} (hnd : is.Nodup)
    (his : ∀ i ∈ is, i < c.pinsState.length) (upd : Nat → PinState → PinState) {n : Nat}
    (hn : n < is.length) :
    ({ c with pinsState := scatter upd is c.pinsState } : Connection).pinAt is[n] =
      upd n (c.pinAt is[n]) := by
  have hlt := his is[n] (List.getElem_mem hn)
  rw [Connection.pinAt, List.getD_eq_getElem?_getD, getElem?_scatter upd hnd hn,
    Connection.getElem?_pinsState hlt]
  rfl

/-- Pins that are not listed keep their state. -/
theorem pinAt_scatter_of_notMem {c : Connection} {is : List Nat} {pin : Nat} (hpin : pin ∉ is)
    (upd : Nat → PinState → PinState) :
    ({ c with pinsState := scatter upd is c.pinsState } : Connection).pinAt pin = c.pinAt pin := by
  rw [Connection.pinAt, List.getD_eq_getElem?_getD, getElem?_scatter_of_notMem upd hpin,
    Connection.pinAt, List.getD_eq_getElem?_getD]

/-! ## The loops of the driver -/

/-- The driver stores entry `i` of `values` for the `i`-th pin used. -/
theorem storePerPin_eq {α β : Type} {mask : Mask} {maskLength : Nat}
    (hlen : maskLength ≤ mask.length)
    {xs : List α} (hxs : maskLength ≤ xs.length) {values : List β}
    (hvalues : (usedPins mask maskLength).length ≤ values.length) (v₀ : β) (f : β → α → α) :
    storePerPin mask maskLength xs values f =
      some (scatter (fun i => f (values.getD i v₀)) (usedPins mask maskLength) xs) := by
  have hrun := forEachPinUsed_running hlen
    (fun i xs pin => values[i]?.bind fun v => update xs pin (f v)) 1 0 xs
  have hbody : ∀ p ∈ (usedPins mask maskLength).zipIdx, ∀ xs : List α,
      (values[0 + 1 * p.2]?.bind fun v => update xs p.1 (f v)) =
        if True ∧ p.1 < xs.length then some (xs.modify p.1 (f (values.getD p.2 v₀)))
        else none := by
    intro p hp xs
    have hidx : p.2 < values.length :=
      Nat.lt_of_lt_of_le (List.snd_lt_of_mem_zipIdx hp) hvalues
    have hget : values[0 + 1 * p.2]? = some (values.getD p.2 v₀) := by
      simp [hidx]
    rw [hget, Option.bind_some, update]
    simp
  have hloop := foldlM_scatter (P := fun _ => True) (fun i => f (values.getD i v₀))
    (usedPins mask maskLength) hbody xs
  have hall : ∀ p ∈ (usedPins mask maskLength).zipIdx, True ∧ p.1 < xs.length := fun p hp =>
    ⟨trivial, Nat.lt_of_lt_of_le (usedPins_lt (List.fst_mem_of_mem_zipIdx hp)) hxs⟩
  rw [if_pos hall] at hloop
  rw [storePerPin, hrun, hloop]
  rfl

/-! ## One single-pin call per pin used -/

/-- A single-pin operation, called for the pins of a list in order; it is told the position of
each pin in the list. -/
def forEachPin {W α : Type} (op : Connection → W → Nat → Nat → Option (Done W α))
    (pins : List Nat) (c : Connection) (w : W) : Option (Connection × W) :=
  pins.zipIdx.foldlM (fun st p => (op st.1 st.2 p.1 p.2).map fun r => (r.conn, r.world)) (c, w)

/-- The pin number that the driver is given. -/
theorem toNat_ofNat_pin {pin : Nat} (h : pin < 2 ^ 8) : (BitVec.ofNat 8 pin).toNat = pin := by
  simpa using h

/-- If every call updates one pin on both sides, all of them together are a scatter. -/
theorem forEachPin_eq {α : Type} (op : Connection → Device → Nat → Nat → Option (Done Device α))
    (updDriver updDevice : Nat → PinState → PinState) {pins : List Nat} {nbPins : Nat}
    (hop : ∀ p ∈ pins.zipIdx, ∀ c d, c.pinsState.length = nbPins →
      d.conn.pinsState.length = nbPins →
      ∃ r, op c d p.1 p.2 = some r ∧
        r.conn.pinsState = c.pinsState.modify p.1 (updDriver p.2) ∧
        r.world.conn.pinsState = d.conn.pinsState.modify p.1 (updDevice p.2))
    {c : Connection} {d : Device} (hc : c.pinsState.length = nbPins)
    (hd : d.conn.pinsState.length = nbPins) :
    ∃ c' d', forEachPin op pins c d = some (c', d') ∧
      c'.pinsState = scatter updDriver pins c.pinsState ∧
      d'.conn.pinsState = scatter updDevice pins d.conn.pinsState := by
  -- what is left of the loop still has to turn the current arrays into the final ones
  have hloop := foldlM_invariant
    (fun (st : Connection × Device) p =>
      (op st.1 st.2 p.1 p.2).map fun r => (r.conn, r.world))
    (I := fun l st => (∀ p ∈ l, p ∈ pins.zipIdx) ∧ st.1.pinsState.length = nbPins ∧
      st.2.conn.pinsState.length = nbPins ∧
      l.foldl (fun xs p => xs.modify p.1 (updDriver p.2)) st.1.pinsState =
        scatter updDriver pins c.pinsState ∧
      l.foldl (fun xs p => xs.modify p.1 (updDevice p.2)) st.2.conn.pinsState =
        scatter updDevice pins d.conn.pinsState)
    (by
      rintro p l ⟨c, d⟩ ⟨hmem, hc, hd, hdriver, hdevice⟩
      rcases hop p (hmem p List.mem_cons_self) c d hc hd with ⟨r, hr, hconn, hworld⟩
      refine ⟨(r.conn, r.world), by simp [hr], fun q hq => hmem q (List.mem_cons_of_mem _ hq),
        ?_, ?_, ?_, ?_⟩
      · simpa [hconn] using hc
      · simpa [hworld] using hd
      · simpa [hconn] using hdriver
      · simpa [hworld] using hdevice)
    pins.zipIdx (c, d) ⟨fun p hp => hp, hc, hd, rfl, rfl⟩
  rcases hloop with ⟨⟨c', d'⟩, hrun, _, _, _, hdriver, hdevice⟩
  exact ⟨c', d', hrun, hdriver, hdevice⟩

/-! ## Requests on the line -/

/-- A mask fits into a frame of every build. -/
theorem maskData_fits (b : Build) (cmdNo param : BitVec 8) {nbPins : Nat} (hbyte : nbPins < 2 ^ 8)
    (m : Mask) :
    (setPacketHeader cmdNo param ((nbPins - 1) / 8 + 1) (maskData nbPins m)).FitsBuild b :=
  setPacketHeader_fits cmdNo param (length_maskData nbPins m).symm
    (by have := le_buffSize b; omega)

/-- A mask with a run of values behind it fits into a frame of the host, and into one of an Atmega8
with its 16 pins. -/
theorem maskFieldsData_fits {b : Build} (cmdNo param : BitVec 8) {nbPins width : Nat}
    (hroom : b.embedded = false ∨ nbPins ≤ 16) (hbyte : nbPins < 2 ^ 8) (hwidth : width ≤ 16)
    (m : Mask) (vals : List (BitVec 16)) (hvals : vals.length ≤ nbPins) :
    (setPacketHeader cmdNo param ((nbPins + width * vals.length - 1) / 8 + 1)
      (maskFieldsData nbPins width m vals)).FitsBuild b := by
  refine setPacketHeader_fits cmdNo param (length_maskFieldsData nbPins width m vals).symm ?_
  have hbuff := le_buffSize b
  rcases hroom with hb | hfew
  · have htotal : width * vals.length ≤ 16 * 255 := Nat.mul_le_mul hwidth (by omega)
    rw [Build.buffSize, hb, if_neg Bool.false_ne_true]
    omega
  · have htotal : width * vals.length ≤ 16 * 16 := Nat.mul_le_mul hwidth (by omega)
    omega

/-! ## The operations -/

section Operations

variable {c : Connection} {d : Device} {mask : Mask}

/-- What the driver finds in a reply to a masked read. -/
theorem readValueMaskApply_eq (hlen : c.nbPins ≤ mask.length)
    (hdriver : c.pinsState.length = c.nbPins) (type : BitVec 8) (reply : Packet) :
    let field := fieldAt (bitAt reply.data) 8 (getTypeBitsNb type)
    readValueMaskApply c mask type reply =
      if Fits 8 (getTypeBitsNb type) (usedPins mask c.nbPins).length reply.data.length then
        some (0, (List.range (usedPins mask c.nbPins).length).map field,
          { c with
            pinsState := scatter (fun i pin => { pin with pinsVal := field i })
              (usedPins mask c.nbPins) c.pinsState })
      else none := by
  intro field
  have hbound := c.nbPins_lt
  have hwidth := getTypeBitsNb_le type
  have htotal : getTypeBitsNb type * c.nbPins ≤ 16 * 255 := Nat.mul_le_mul hwidth (by omega)
  have hloop := readPinFields_collect_eq hlen
    (fun v (pin : PinState) => { pin with pinsVal := v }) (Nat.le_of_eq hdriver.symm) reply.data
    (show 8 + getTypeBitsNb type * c.nbPins < 2 ^ 16 by omega) hwidth
  simp only [readValueMaskApply, replyIdBitsNb, hloop, Option.bind_eq_bind, Option.pure_def]
  split <;> rfl

/-- What the driver finds in a reply to a masked type query. -/
theorem getTypeMaskApply_eq (hlen : c.nbPins ≤ mask.length)
    (hdriver : c.pinsState.length = c.nbPins) (reply : Packet) :
    let types := fieldAt (bitAt reply.data) 8 3
    getTypeMaskApply c mask reply =
      if Fits 8 3 (usedPins mask c.nbPins).length reply.data.length then
        some (1, (List.range (usedPins mask c.nbPins).length).map types,
          { c with
            pinsState := scatter (fun i pin => { pin with pinsType := (types i).setWidth 8 })
              (usedPins mask c.nbPins) c.pinsState })
      else none := by
  intro types
  have hbound := c.nbPins_lt
  have hused := length_usedPins_le mask c.nbPins
  have hlist := readValueList_eq reply.data
    (show 8 + 3 * (usedPins mask c.nbPins).length < 2 ^ 16 by omega) (show 3 ≤ 16 by decide)
  simp only [getTypeMaskApply, maskNbPinsUsed_eq hlen hbound, replyIdBitsNb, pinTypeBitsNb, hlist,
    Option.bind_eq_bind, Option.bind_some, Option.pure_def]
  by_cases hfit : Fits 8 3 (usedPins mask c.nbPins).length reply.data.length
  · have hstore := storePerPin_eq hlen (Nat.le_of_eq hdriver.symm)
      (show (usedPins mask c.nbPins).length ≤
          ((List.range (usedPins mask c.nbPins).length).map types).length by
        rw [List.length_map, List.length_range]) 0
      (fun type (pin : PinState) => { pin with pinsType := type.setWidth 8 })
    -- the `i`-th pin gets the `i`-th entry of the list, which is the field `i` of the reply
    have hscatter : scatter
          (fun i pin => { pin with pinsType :=
            (((List.range (usedPins mask c.nbPins).length).map types).getD i 0).setWidth 8 })
          (usedPins mask c.nbPins) c.pinsState =
        scatter (fun i pin => { pin with pinsType := (types i).setWidth 8 })
          (usedPins mask c.nbPins) c.pinsState := by
      rw [scatter_eq_scatter_iff (nodup_usedPins mask c.nbPins)]
      intro i hi
      have hentry : ((List.range (usedPins mask c.nbPins).length).map types).getD i 0 =
          types i := by
        simp [hi]
      rw [hentry]
    rw [hscatter] at hstore
    rw [if_pos hfit, if_pos hfit, Option.bind_some, hstore]
    rfl
  · rw [if_neg hfit, if_neg hfit]
    rfl

theorem requestMask_maskData (h : Paired c d) (mask : Mask) :
    requestMask d.conn (maskData c.nbPins mask) 0 =
      some (maskOf (bitAt (maskData c.nbPins mask)) 0 c.nbPins) := by
  have hbound := c.nbPins_lt
  have hfit : c.nbPins = 0 ∨ 0 + c.nbPins ≤ 8 * (maskData c.nbPins mask).length :=
    Or.inr (by rw [length_maskData]; omega)
  rw [requestMask_eq d.conn _ (by rw [← h.same]; omega), ← h.same, if_pos hfit]

/-- A masked read: the caller and the cache get the fields of the reply. -/
theorem readValueMask_device (b : Build) (h : Paired c d) (hlen : c.nbPins ≤ mask.length)
    {type : BitVec 8} (htype : type.toNat < 8) (hbits : 0 < getTypeBitsNb type) :
    let used := usedPins mask c.nbPins
    let field := fieldAt
      (fieldsBits 8 (getTypeBitsNb type) (used.map fun pin => (d.conn.pinAt pin).pinsVal)) 8
      (getTypeBitsNb type)
    readValueMask (deviceLink b) c d mask type =
      some
        { ret := 0
          out := (List.range used.length).map field
          conn :=
            { c with
              pinsState := scatter (fun i pin => { pin with pinsVal := field i }) used c.pinsState }
          world := d.next } := by
  intro used field
  have hbound := c.nbPins_lt
  have hused : used.length ≤ c.nbPins := length_usedPins_le mask c.nbPins
  have hwidth := getTypeBitsNb_le type
  have hdecode := header_decode cmdRead type useMask (by decide) htype (by decide)
  have hdata := data_request cmdRead (typeParam type useMask) (length_maskData c.nbPins mask).symm
    (by omega)
  have hvals : getTypeBitsNb type * (used.map fun pin => (d.conn.pinAt pin).pinsVal).length ≤
      16 * 255 :=
    Nat.mul_le_mul hwidth (by rw [List.length_map]; omega)
  -- the device finds the same pins in the request
  have hmask := requestMask_maskData h mask
  rw [← hdata] at hmask
  have hserve := replyRead_mask (d := d)
    (usesMask_maskRequest cmdRead type ((c.nbPins - 1) / 8 + 1) (maskData c.nbPins mask))
    (congrArg getTypeBitsNb hdecode.2.1) hmask (by rw [length_maskOf, h.same])
    h.device.pinsState
  rw [hdata] at hserve
  have hcmd : (delivered (setPacketHeader cmdRead (typeParam type useMask)
      ((c.nbPins - 1) / 8 + 1) (maskData c.nbPins mask))).header >>> 4 = cmdRead := hdecode.1
  rw [← dispatch_read (b := b) hcmd, ← h.same, usedPins_maskData, if_pos (Or.inr hbits)] at hserve
  -- the reply is long enough for the fields that the driver looks for
  have hreply := length_delivered_fieldsReply cmdRead d.nextId hvals
  have hfits : Fits 8 (getTypeBitsNb type) used.length
      (delivered (fieldsReply cmdRead d.nextId (getTypeBitsNb type)
        (used.map fun pin => (d.conn.pinAt pin).pinsVal))).data.length := by
    rw [hreply, List.length_map]
    exact (fits_reply_iff used.length).mpr (Or.inr hbits)
  have hfield : fieldAt (bitAt (delivered (fieldsReply cmdRead d.nextId (getTypeBitsNb type)
      (used.map fun pin => (d.conn.pinAt pin).pinsVal))).data) 8 (getTypeBitsNb type) = field :=
    funext fun i => fieldAt_delivered_fieldsReply cmdRead d.nextId hvals i
  rw [readValueMask, operation_device (readValueMaskRequest_eq hlen type)
    (maskData_fits b _ _ hbound mask) hserve (fieldsReply_fits cmdRead d.nextId hvals)
    (fieldsReply_pos cmdRead d.nextId hvals), readValueMaskApply_eq hlen h.driver,
    if_pos hfits, hfield,
    Option.map_some]

theorem requestMask_maskFieldsData (h : Paired c d) (width : Nat) (mask : Mask)
    (values : List (BitVec 16)) :
    requestMask d.conn (maskFieldsData c.nbPins width mask values) 0 =
      some (maskOf (bitAt (maskFieldsData c.nbPins width mask values)) 0 c.nbPins) := by
  have hbound := c.nbPins_lt
  have hpos := h.pos
  have hfit : c.nbPins = 0 ∨
      0 + c.nbPins ≤ 8 * (maskFieldsData c.nbPins width mask values).length :=
    Or.inr (by rw [length_maskFieldsData]; omega)
  rw [requestMask_eq d.conn _ (by rw [← h.same]; omega), ← h.same, if_pos hfit]

/-- A masked write.  The device decodes the mask and the values from what the driver has packed;
values that spill over their fields may have changed both. -/
theorem writeValueMask_device {b : Build} (hroom : b.embedded = false ∨ c.nbPins ≤ 16)
    (h : Paired c d) (hlen : c.nbPins ≤ mask.length) {type : BitVec 8} (htype : type.toNat < 8)
    (hbits : 0 < getTypeBitsNb type) {values : List (BitVec 16)}
    (hvalues : values.length = (usedPins mask c.nbPins).length) :
    let data := maskFieldsData c.nbPins (getTypeBitsNb type) mask values
    let decoded := usedPins (maskOf (bitAt data) 0 c.nbPins) c.nbPins
    writeValueMask (deviceLink b) c d mask type values =
      if Fits c.nbPins (getTypeBitsNb type) decoded.length data.length then
        some
          { ret := 0
            out := ()
            conn :=
              { c with
                pinsState := scatter (fun i pin => { pin with pinsVal := values.getD i 0 })
                  (usedPins mask c.nbPins) c.pinsState }
            world := d.put
              { d.conn with
                pinsState := scatter
                  (fun i pin =>
                    let val := fieldAt (bitAt data) c.nbPins (getTypeBitsNb type) i
                    { pin with pinsVal := (val.setWidth 8).setWidth 16 })
                  decoded d.conn.pinsState } }
      else none := by
  intro data decoded
  have hbound := c.nbPins_lt
  have hused := length_usedPins_le mask c.nbPins
  have hwidth := getTypeBitsNb_le type
  have htotal : getTypeBitsNb type * values.length ≤ 16 * 255 := Nat.mul_le_mul hwidth (by omega)
  have hdecode := header_decode cmdWrite type useMask (by decide) htype (by decide)
  have hdata := data_request cmdWrite (typeParam type useMask)
    (length_maskFieldsData c.nbPins (getTypeBitsNb type) mask values).symm (by omega)
  have hfits := maskFieldsData_fits cmdWrite (typeParam type useMask) hroom hbound hwidth mask
    values (by omega)
  have hrequest := writeValueMaskRequest_eq h.pos hlen hbits hvalues
  -- the device decodes the mask from the data, which the values may have changed
  have hmask := requestMask_maskFieldsData h (getTypeBitsNb type) mask values
  rw [← hdata] at hmask
  have htreat := treatWrite_mask (c := d.conn)
    (usesMask_maskRequest cmdWrite type
      ((c.nbPins + getTypeBitsNb type * values.length - 1) / 8 + 1)
      (maskFieldsData c.nbPins (getTypeBitsNb type) mask values))
    (congrArg getTypeBitsNb hdecode.2.1) hmask (by rw [length_maskOf, h.same]) h.device.pinsState
  rw [hdata, ← h.same] at htreat
  have hserve := dispatch_write (b := b) (d := d) (p := delivered
    (setPacketHeader cmdWrite (typeParam type useMask)
      ((c.nbPins + getTypeBitsNb type * values.length - 1) / 8 + 1)
      (maskFieldsData c.nbPins (getTypeBitsNb type) mask values))) hdecode.1
  rw [htreat] at hserve
  -- a value that is missing for one of the decoded pins is read past the data
  by_cases hfit : Fits c.nbPins (getTypeBitsNb type) decoded.length data.length
  · rw [if_pos hfit, Option.map_some] at hserve
    rw [writeValueMask, operation_device hrequest hfits hserve (idReply_fits cmdWrite d.nextId)
      (idReply_pos cmdWrite d.nextId), if_pos hfit, writeValueMaskApply,
      storePerPin_eq hlen (Nat.le_of_eq h.driver.symm) (Nat.le_of_eq hvalues.symm) 0]
    rfl
  · rw [if_neg hfit, Option.map_none] at hserve
    rw [writeValueMask, operation_device_fault hrequest hfits hserve, if_neg hfit]

theorem allTight_types (offset : Nat) {types : List (BitVec 16)}
    (htypes : ∀ t ∈ types, t.toNat < 8) : AllTight offset 3 types :=
  allTight_of_lt offset (by decide) htypes

/-- A masked type change whose request one `read` of the device takes: both ends store the same
types for the same pins. -/
theorem setTypeMask_device {b : Build} (h : Paired c d) (hlen : c.nbPins ≤ mask.length)
    {types : List (BitVec 16)} (hcount : types.length = (usedPins mask c.nbPins).length)
    (htypes : ∀ t ∈ types, t.toNat < 8)
    (hframe : (c.nbPins + 3 * types.length - 1) / 8 + 5 ≤ b.buffSize) :
    let upd := fun i (pin : PinState) => { pin with pinsType := (types.getD i 0).setWidth 8 }
    setTypeMask (deviceLink b) c d mask types =
      some
        { ret := 0
          out := ()
          conn := { c with pinsState := scatter upd (usedPins mask c.nbPins) c.pinsState }
          world := d.put
            { d.conn with
              pinsState := scatter upd (usedPins mask c.nbPins) d.conn.pinsState } } := by
  intro upd
  have hbound := c.nbPins_lt
  have hused := length_usedPins_le mask c.nbPins
  have htight := allTight_types c.nbPins htypes
  have hcmd := headerCmd_plain cmdSetType useMask (by decide) (by decide)
  have hdata := data_request cmdSetType useMask
    (length_maskFieldsData c.nbPins 3 mask types).symm (by omega)
  have hfits := setPacketHeader_fits cmdSetType useMask
    (length_maskFieldsData c.nbPins 3 mask types).symm hframe
  have hrequest := setTypeMaskRequest_eq h.pos hlen hcount
  have hkind := usesMask_maskRequest cmdSetType 0#8 ((c.nbPins + 3 * types.length - 1) / 8 + 1)
    (maskFieldsData c.nbPins 3 mask types)
  rw [typeParam_zero] at hkind
  have hmask := requestMask_maskFieldsData h 3 mask types
  rw [← hdata] at hmask
  have htreat := treatSetTypeMask_eq (c := d.conn) hmask (by rw [length_maskOf, h.same])
    h.device.pinsState
  have hfit : Fits c.nbPins 3 (usedPins mask c.nbPins).length
      (maskFieldsData c.nbPins 3 mask types).length :=
    fits_of_le (by decide) (by rw [length_maskFieldsData]; omega)
  rw [hdata, ← h.same, usedPins_maskFieldsData h.pos htight, if_pos hfit] at htreat
  -- every type is in its field, and has three bits
  have hfield : ∀ i < types.length,
      (fieldAt (bitAt (maskFieldsData c.nbPins 3 mask types)) c.nbPins 3 i).setWidth 8 =
        (types.getD i 0).setWidth 8 := by
    intro i hi
    have hlt := htypes types[i] (List.getElem_mem hi)
    have hmod : types[i].toNat % 2 ^ 3 = types[i].toNat := Nat.mod_eq_of_lt hlt
    rw [fieldAt_maskFieldsData hi, htight.fieldAt_eq (by decide) (fun _ _ _ => rfl) hi (by omega),
      hmod, BitVec.ofNat_toNat, BitVec.setWidth_eq, List.getD_eq_getElem _ _ hi]
  have hscatter := (scatter_eq_scatter_iff (nodup_usedPins mask c.nbPins) d.conn.pinsState).mpr
    fun i hi => congrArg (fun t => (d.conn.pinsState[(usedPins mask c.nbPins)[i]]?).map
      fun pin : PinState => { pin with pinsType := t }) (hfield i (by omega))
  rw [hscatter] at htreat
  have hserve := dispatch_setType (b := b) (d := d) (p := delivered
    (setPacketHeader cmdSetType useMask ((c.nbPins + 3 * types.length - 1) / 8 + 1)
      (maskFieldsData c.nbPins 3 mask types))) hcmd
  rw [treatSetType, if_pos hkind, htreat, Option.map_some] at hserve
  rw [setTypeMask, operation_device hrequest hfits hserve (idReply_fits cmdSetType d.nextId)
    (idReply_pos cmdSetType d.nextId), setTypeMaskApply,
    storePerPin_eq hlen (Nat.le_of_eq h.driver.symm) (Nat.le_of_eq hcount.symm) 0]
  rfl

/-- A masked type change whose request is longer than the buffer of the device. -/
theorem setTypeMask_long {b : Build} (h : Paired c d) (hlen : c.nbPins ≤ mask.length)
    {types : List (BitVec 16)} (hcount : types.length = (usedPins mask c.nbPins).length)
    (hlong : b.buffSize < (c.nbPins + 3 * types.length - 1) / 8 + 5) :
    setTypeMask (deviceLink b) c d mask types = none := by
  have hbound := c.nbPins_lt
  have hused := length_usedPins_le mask c.nbPins
  have hsize : (setPacketHeader cmdSetType useMask ((c.nbPins + 3 * types.length - 1) / 8 + 1)
      (maskFieldsData c.nbPins 3 mask types)).size.toNat =
        (c.nbPins + 3 * types.length - 1) / 8 + 1 := toNat_ofNat_size (by omega)
  refine operation_device_long (setTypeMaskRequest_eq h.pos hlen hcount) ?_ ?_ ?_
  · rw [hsize]
    exact Nat.le_of_eq (length_maskFieldsData c.nbPins 3 mask types).symm
  · rw [hsize]
    omega
  · rw [hsize]
    exact hlong

/-- A masked type query.  The device is not told about the last pin; the driver looks for an answer
about it all the same. -/
theorem getTypeMask_device (b : Build) (h : Paired c d) (hlen : c.nbPins ≤ mask.length)
    (hboundary : c.nbPins % 8 ≠ 1) :
    let used := usedPins mask c.nbPins
    let asked := usedPins mask (c.nbPins - 1)
    let types := fieldAt
      (fieldsBits 8 3 (asked.map fun pin => (d.conn.pinAt pin).pinsType.setWidth 16)) 8 3
    getTypeMask (deviceLink b) c d mask =
      if Fits 8 3 used.length ((7 + 3 * asked.length) / 8 + 1) then
        some
          { ret := 1
            out := (List.range used.length).map types
            conn :=
              { c with
                pinsState := scatter (fun i pin => { pin with pinsType := (types i).setWidth 8 })
                  used c.pinsState }
            world := d.next }
      else none := by
  intro used asked types
  have hpos := h.pos
  have hbound := c.nbPins_lt
  have hused : used.length ≤ c.nbPins := length_usedPins_le mask c.nbPins
  have hasked : asked.length ≤ c.nbPins - 1 := length_usedPins_le mask (c.nbPins - 1)
  have hlenData : (maskData (c.nbPins - 1) mask).length = (c.nbPins - 2) / 8 + 1 := by
    rw [length_maskData]
    omega
  have hdata := data_request cmdGetType useMask hlenData.symm (by omega)
  have hfitsBuild : (setPacketHeader cmdGetType useMask ((c.nbPins - 2) / 8 + 1)
      (maskData (c.nbPins - 1) mask)).FitsBuild b :=
    setPacketHeader_fits _ _ hlenData.symm (by have := le_buffSize b; omega)
  have hkind := usesMask_maskRequest cmdGetType 0#8 ((c.nbPins - 2) / 8 + 1)
    (maskData (c.nbPins - 1) mask)
  rw [typeParam_zero] at hkind
  -- off the boundary the bytes of the request still cover the mask of the device
  have hmask : requestMask d.conn (maskData (c.nbPins - 1) mask) 0 =
      some (maskOf (bitAt (maskData (c.nbPins - 1) mask)) 0 c.nbPins) := by
    have hfit : c.nbPins = 0 ∨ 0 + c.nbPins ≤ 8 * (maskData (c.nbPins - 1) mask).length :=
      Or.inr (by rw [hlenData]; omega)
    rw [requestMask_eq d.conn _ (by rw [← h.same]; omega), ← h.same, if_pos hfit]
  have hpins : usedPins (maskOf (bitAt (maskData (c.nbPins - 1) mask)) 0 c.nbPins) c.nbPins =
      asked := by
    have hpred : c.nbPins - 1 + 1 = c.nbPins := by omega
    have hbits : ∀ i < c.nbPins,
        pinUsed (maskOf (bitAt (maskData (c.nbPins - 1) mask)) 0 c.nbPins) i =
          maskBits mask (c.nbPins - 1) i := by
      intro i hi
      rw [pinUsed_maskOf hi, Nat.zero_add, bitAt_maskData]
    have hlast := hbits (c.nbPins - 1) (by omega)
    have hsplit := usedPins_succ (maskOf (bitAt (maskData (c.nbPins - 1) mask)) 0 c.nbPins)
      (c.nbPins - 1)
    rw [hpred, hlast] at hsplit
    have hothers : usedPins (maskOf (bitAt (maskData (c.nbPins - 1) mask)) 0 c.nbPins)
        (c.nbPins - 1) = asked :=
      usedPins_congr fun i hi => by
        rw [hbits i (by omega), maskBits, decide_eq_true hi, Bool.true_and]
    rw [hsplit, hothers]
    simp [maskBits]
  rw [← hdata] at hmask
  have hserve := replyGetType_mask hkind hmask (by rw [length_maskOf, h.same])
    h.device.pinsState
  have hcmd : (delivered (setPacketHeader cmdGetType useMask ((c.nbPins - 2) / 8 + 1)
      (maskData (c.nbPins - 1) mask))).header >>> 4 = cmdGetType :=
    headerCmd_plain cmdGetType useMask (by decide) (by decide)
  rw [hdata, ← dispatch_getType (b := b) hcmd, ← h.same, hpins] at hserve
  have hvals : 3 * (asked.map fun pin => (d.conn.pinAt pin).pinsType.setWidth 16).length ≤
      16 * 255 := by
    rw [List.length_map]
    omega
  have hreply := length_delivered_fieldsReply cmdSetType d.nextId hvals
  rw [List.length_map] at hreply
  have htypes : fieldAt (bitAt (delivered (fieldsReply cmdSetType d.nextId 3
      (asked.map fun pin => (d.conn.pinAt pin).pinsType.setWidth 16))).data) 8 3 = types :=
    funext fun i => fieldAt_delivered_fieldsReply cmdSetType d.nextId hvals i
  rw [getTypeMask, operation_device (getTypeMaskRequest_eq (by omega) hlen) hfitsBuild hserve
    (fieldsReply_fits cmdSetType d.nextId hvals) (fieldsReply_pos cmdSetType d.nextId hvals),
    getTypeMaskApply_eq hlen h.driver, hreply, htypes]
  split <;> rfl

end Operations

end PinProtocol
