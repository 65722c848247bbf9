import PinProtocol.System.Board
import PinProtocol.System.Capabilities
import PinProtocol.System.FailsafeMirror
import PinProtocol.System.MaskedValues

/-!
# BoardCalls — each call against the board

A device shows a board when its tables hold what the board says (`Linked`).  Every call that the
board supports gets the board's answer from the device, and leaves a device that shows the board
after the call.
-/

namespace PinProtocol

open Bits Control

/-- The state of a pin, in terms of the board. -/
def PinState.ShowsType (pin : PinState) (type : BitVec 3) : Prop :=
  pin.pinsType = type.setWidth 8

def PinState.ShowsVal (pin : PinState) (val : BitVec 16) : Prop :=
  pin.pinsVal = val

/-- The tables of the device are those of the board. -/
structure Board.ShownBy (nbPins : Nat) (board : Board) (d : Device) : Prop where
  version : d.conn.protocolVersion = board.version
  type : ∀ q < nbPins, (d.conn.pinAt q).ShowsType (board.type q)
  val : ∀ q < nbPins, (d.conn.pinAt q).ShowsVal (board.val q)
  table : ∃ f, d.conn.failsafe = some f ∧ f.timeout = board.timeout ∧
    ∀ q < nbPins, f.entryAt q = board.fallback q

/-- Driver and device know the same `nbPins` pins, and the device shows the board. -/
structure Linked (nbPins : Nat) (board : Board) (c : Connection) (d : Device) : Prop
    extends board.ShownBy nbPins d where
  paired : Paired c d
  count : c.nbPins = nbPins
  own : ∃ own, c.failsafe = some own ∧ own.pinsFailsafe.length = nbPins

/-! ## What leaves the board alone -/

section Frame

variable {nbPins : Nat} {board : Board} {c : Connection} {d : Device}

theorem Linked.next (h : Linked nbPins board c d) : Linked nbPins board c d.next :=
  { h with paired := { h.paired with device := h.paired.device } }

/-- What the driver caches does not matter. -/
theorem Linked.cache (h : Linked nbPins board c d) (pins : List PinState)
    (hpins : pins.length = c.pinsState.length) :
    Linked nbPins board { c with pinsState := pins } d :=
  { h with paired := { h.paired with driver := hpins.trans h.paired.driver } }

theorem Linked.cacheTable (h : Linked nbPins board c d) {own : Failsafe}
    (hown : own.pinsFailsafe.length = nbPins) :
    Linked nbPins board { c with failsafe := some own } d :=
  { h with paired := { h.paired with }, own := ⟨own, rfl, hown⟩ }

theorem Linked.driver_length (h : Linked nbPins board c d) : c.pinsState.length = nbPins :=
  h.paired.driver.trans h.count

theorem Linked.device_length (h : Linked nbPins board c d) : d.conn.pinsState.length = nbPins :=
  h.paired.device_length.trans h.count

theorem Linked.device_nbPins (h : Linked nbPins board c d) : d.conn.nbPins = nbPins :=
  h.paired.same.symm.trans h.count

/-! ## Updates -/

variable {is : List Nat} {upd : Nat → PinState → PinState}

/-- The device updates the listed pins; afterwards it shows other types and values. -/
theorem Linked.scatterPins (h : Linked nbPins board c d) {type : Nat → BitVec 3}
    {val : Nat → BitVec 16}
    (htype : ∀ q < nbPins,
      ((scatter upd is d.conn.pinsState).getD q freshPin).ShowsType (type q))
    (hval : ∀ q < nbPins, ((scatter upd is d.conn.pinsState).getD q freshPin).ShowsVal (val q)) :
    Linked nbPins { board with type, val } c
      (d.put { d.conn with pinsState := scatter upd is d.conn.pinsState }) :=
  { h with
    paired :=
      { h.paired with
        device := ⟨(length_scatter ..).trans h.paired.device.pinsState,
          h.paired.device.pinsMaskType, h.paired.device.failsafe⟩ }
    type := htype
    val := hval }

variable (upd) (hnd : is.Nodup) (his : ∀ i ∈ is, i < nbPins)

include hnd his

theorem Linked.setTypes (h : Linked nbPins board c d) {t : Nat → BitVec 3}
    (htype : ∀ i x, (upd i x).ShowsType (t i)) (hval : ∀ i x, (upd i x).pinsVal = x.pinsVal) :
    Linked nbPins { board with type := assign is t board.type } c
      (d.put { d.conn with pinsState := scatter upd is d.conn.pinsState }) := by
  have hlt : ∀ i ∈ is, i < d.conn.pinsState.length := fun i hi => h.device_length ▸ his i hi
  refine h.scatterPins (fun q hq => ?_) fun q hq => ?_
  · exact shows_scatter_set PinState.ShowsType htype hnd hlt (h.type q hq)
  · exact shows_scatter_keep (fun i x hx => (hval i x).trans hx) hnd hlt (h.val q hq)

theorem Linked.setVals (h : Linked nbPins board c d) {v : Nat → BitVec 16}
    (htype : ∀ i x, (upd i x).pinsType = x.pinsType) (hval : ∀ i x, (upd i x).ShowsVal (v i)) :
    Linked nbPins { board with val := assign is v board.val } c
      (d.put { d.conn with pinsState := scatter upd is d.conn.pinsState }) := by
  have hlt : ∀ i ∈ is, i < d.conn.pinsState.length := fun i hi => h.device_length ▸ his i hi
  refine h.scatterPins (fun q hq => ?_) fun q hq => ?_
  · exact shows_scatter_keep (fun i x hx => (htype i x).trans hx) hnd hlt (h.type q hq)
  · exact shows_scatter_set PinState.ShowsVal hval hnd hlt (h.val q hq)

theorem Linked.setBoth (h : Linked nbPins board c d) {t : Nat → BitVec 3} {v : Nat → BitVec 16}
    (htype : ∀ i x, (upd i x).ShowsType (t i)) (hval : ∀ i x, (upd i x).ShowsVal (v i)) :
    Linked nbPins { board with type := assign is t board.type, val := assign is v board.val } c
      (d.put { d.conn with pinsState := scatter upd is d.conn.pinsState }) := by
  have hlt : ∀ i ∈ is, i < d.conn.pinsState.length := fun i hi => h.device_length ▸ his i hi
  refine h.scatterPins (fun q hq => ?_) fun q hq => ?_
  · exact shows_scatter_set PinState.ShowsType htype hnd hlt (h.type q hq)
  · exact shows_scatter_set PinState.ShowsVal hval hnd hlt (h.val q hq)

/-- The device takes over a timeout, and entries for the listed pins. -/
theorem Linked.setEntries (h : Linked nbPins board c d) {f : Failsafe}
    (hf : d.conn.failsafe = some f) (timeout : BitVec 16) (e : Nat → PinFailsafe) :
    Linked nbPins { board with timeout, fallback := assign is e board.fallback } c
      (d.putFailsafe timeout (scatter (fun i _ => e i) is f.pinsFailsafe)) := by
  have hlen : f.pinsFailsafe.length = nbPins :=
    (h.paired.device.failsafe f hf).trans h.device_nbPins
  obtain ⟨f', hf', -, hentry⟩ := h.table
  rw [hf] at hf'
  cases hf'
  refine
    { h with
      table := ⟨_, rfl, rfl, fun q hq => ?_⟩
      paired := { h.paired with device := ⟨h.paired.device.pinsState,
        h.paired.device.pinsMaskType, fun g hg => ?_⟩ } }
  · have hlt : ∀ i ∈ is, i < f.pinsFailsafe.length := fun i hi => hlen.symm ▸ his i hi
    have hset : ∀ (i : Nat) (x : PinFailsafe), (fun i (_ : PinFailsafe) => e i) i x = e i :=
      fun _ _ => rfl
    exact shows_scatter_set Eq hset hnd hlt (hentry q hq)
  · cases hg
    show (scatter (fun i _ => e i) is f.pinsFailsafe).length = d.conn.nbPins
    rw [length_scatter, hlen, h.device_nbPins]

end Frame

/-! ## Calls for one pin -/

theorem lowBits_full (v : BitVec 16) : lowBits v 16 = v := by
  rw [lowBits, Nat.mod_eq_of_lt v.isLt, BitVec.ofNat_toNat, BitVec.setWidth_eq]

theorem setWidth_lowBits (v : BitVec 16) : (lowBits v 8).setWidth 8 = v.setWidth 8 := by
  refine BitVec.eq_of_toNat_eq ?_
  simp [lowBits]

/-- A type of three bits goes through a byte. -/
theorem setWidth_type {t : BitVec 8} (h : t.toNat < 8) : (t.setWidth 3).setWidth 8 = t := by
  refine BitVec.eq_of_toNat_eq ?_
  simp
  omega

section OnePin

variable {nbPins : Nat} {board : Board} {c : Connection} {d : Device} {pin : BitVec 8}

theorem genericRead_board (h : Linked nbPins board c d) (hpin : pin.toNat < nbPins)
    (mode : BitVec 8) (hmode : mode.toNat ≤ 4) :
    ∃ c', genericRead (deviceLink hostBuild) c d pin mode =
        some
          { ret := 0
            out := lowBits (board.val pin.toNat) (getTypeBitsNb mode)
            conn := c'
            world := d.next } ∧
      Linked nbPins board c' d.next := by
  have hread := genericRead_device hostBuild c d (by omega) (getTypeBitsNb_pos hmode)
    (by rw [h.device_length]; exact hpin) (by rw [h.driver_length]; exact hpin)
  have hval : (d.conn.pinAt pin.toNat).pinsVal = board.val pin.toNat := h.val _ hpin
  rw [hval] at hread
  exact ⟨_, hread, (h.cache _ (List.length_modify ..)).next⟩

theorem genericWrite_board (h : Linked nbPins board c d) (hpin : pin.toNat < nbPins)
    (mode : BitVec 8) (hmode : mode.toNat ≤ 4) (val : BitVec 16) :
    ∃ c' d', genericWrite (deviceLink hostBuild) c d pin mode val (getTypeBitsNb mode) =
        some { ret := 0, out := (), conn := c', world := d' } ∧
      Linked nbPins (board.write pin mode (lowBits val (getTypeBitsNb mode))) c' d' := by
  have hwrite := genericWrite_device hostBuild c d (show mode.toNat < 8 by omega) rfl
    (getTypeBitsNb_pos hmode) (by rw [h.device_length]; exact hpin)
    (by rw [h.driver_length]; exact hpin) val
  refine ⟨_, _, hwrite, ?_⟩
  have htype : (mode.setWidth 3).setWidth 8 = mode := setWidth_type (by omega)
  have hset := h.setBoth
    (fun _ _ => { pinsType := mode, pinsVal := lowBits val (getTypeBitsNb mode) })
    (List.nodup_singleton pin.toNat) (by simpa using hpin) (t := fun _ => mode.setWidth 3)
    (v := fun _ => lowBits val (getTypeBitsNb mode)) (fun _ _ => htype.symm) (fun _ _ => rfl)
  exact hset.cache _ (List.length_modify ..)

theorem getType_board (h : Linked nbPins board c d) (hpin : pin.toNat < nbPins) :
    ∃ c', getType (deviceLink hostBuild) c d pin =
        some
          { ret := 0
            out := (board.type pin.toNat).setWidth 8
            conn := c'
            world := d.next } ∧
      Linked nbPins board c' d.next := by
  have hget := getType_device hostBuild c d
    (show pin.toNat < d.conn.pinsState.length by rw [h.device_length]; exact hpin)
    (by rw [h.driver_length]; exact hpin)
  have htype : (d.conn.pinAt pin.toNat).pinsType = (board.type pin.toNat).setWidth 8 :=
    h.type _ hpin
  have hout : BitVec.ofNat 8 ((d.conn.pinAt pin.toNat).pinsType.toNat % 2 ^ 3) =
      (board.type pin.toNat).setWidth 8 := by
    have hlt := (board.type pin.toNat).isLt
    rw [htype]
    refine BitVec.eq_of_toNat_eq ?_
    simp
    omega
  rw [hout] at hget
  exact ⟨_, hget, (h.cache _ (List.length_modify ..)).next⟩

theorem setType_board (h : Linked nbPins board c d) (hpin : pin.toNat < nbPins) {type : BitVec 8}
    (htype : type.toNat < 8) :
    ∃ c' d', setType (deviceLink hostBuild) c d pin type =
        some { ret := 1, out := (), conn := c', world := d' } ∧
      Linked nbPins
        { board with type := assign [pin.toNat] (fun _ => type.setWidth 3) board.type } c' d' := by
  have hset := setType_device hostBuild c d htype
    (show pin.toNat < d.conn.pinsState.length by rw [h.device_length]; exact hpin)
    (by rw [h.driver_length]; exact hpin)
  refine ⟨_, _, hset, ?_⟩
  have hshow : (type.setWidth 3).setWidth 8 = type := setWidth_type htype
  have hlinked := h.setTypes (fun _ x => { x with pinsType := type })
    (List.nodup_singleton pin.toNat) (by simpa using hpin) (t := fun _ => type.setWidth 3)
    (fun _ _ => hshow.symm) (fun _ _ => rfl)
  exact hlinked.cache _ (List.length_modify ..)

end OnePin

/-! ## Calls for a set of pins -/

section ManyPins

variable {nbPins : Nat} {board : Board} {c : Connection} {d : Device} {mask : Mask}

/-- Stored values do not run into each other, unless they are read as digital ones. -/
theorem allTight_stored {type : BitVec 8} (htype : type.toNat ≤ 4) {vals : List (BitVec 16)}
    (hdigital : type = pinTypeDigital → ∀ v ∈ vals, v.toNat < 2) :
    AllTight 8 (getTypeBitsNb type) vals := by
  by_cases h : type = pinTypeDigital
  · rw [getTypeBitsNb_digital h]
    exact allTight_of_lt 8 (by decide) (hdigital h)
  · refine allTight_aligned (by decide) ?_ vals
    rcases getTypeBitsNb_of_not_digital htype h with hbits | hbits <;> rw [hbits]

theorem span_stored {type : BitVec 8} (htype : type.toNat ≤ 4) (i : Nat) :
    (8 + getTypeBitsNb type * i) % 8 + getTypeBitsNb type ≤ 16 := by
  by_cases h : type = pinTypeDigital
  · rw [getTypeBitsNb_digital h]
    omega
  · rcases getTypeBitsNb_of_not_digital htype h with hbits | hbits <;> rw [hbits] <;> omega

theorem readValueMask_board (h : Linked nbPins board c d) (hlen : nbPins ≤ mask.length)
    {type : BitVec 8} (htype : type.toNat ≤ 4)
    (hdigital : type = pinTypeDigital → ∀ pin ∈ usedPins mask nbPins, (board.val pin).toNat < 2) :
    ∃ c', readValueMask (deviceLink hostBuild) c d mask type =
        some
          { ret := 0
            out := (usedPins mask nbPins).map fun pin =>
              lowBits (board.val pin) (getTypeBitsNb type)
            conn := c'
            world := d.next } ∧
      Linked nbPins board c' d.next := by
  have hmask : c.nbPins ≤ mask.length := h.count ▸ hlen
  have hread := readValueMask_device hostBuild h.paired hmask
    (show type.toNat < 8 by omega) (getTypeBitsNb_pos htype)
  simp only [h.count] at hread
  -- what the device has stored is what the board says
  have hvals : ((usedPins mask nbPins).map fun pin => (d.conn.pinAt pin).pinsVal) =
      (usedPins mask nbPins).map board.val :=
    List.map_congr_left fun pin hpin => h.val pin (usedPins_lt hpin)
  have htight : AllTight 8 (getTypeBitsNb type) ((usedPins mask nbPins).map board.val) := by
    refine allTight_stored htype fun hd v hv => ?_
    obtain ⟨pin, hpin, rfl⟩ := List.mem_map.mp hv
    exact hdigital hd pin hpin
  have hout : (List.range (usedPins mask nbPins).length).map
        (fieldAt (fieldsBits 8 (getTypeBitsNb type) ((usedPins mask nbPins).map board.val)) 8
          (getTypeBitsNb type)) =
      (usedPins mask nbPins).map fun pin => lowBits (board.val pin) (getTypeBitsNb type) := by
    refine List.ext_getElem (by simp) fun i hi _ => ?_
    rw [List.length_map, List.length_range] at hi
    rw [List.getElem_map, List.getElem_range, htight.fieldAt_eq (getTypeBitsNb_le type)
      (fun _ _ _ => rfl) (by simpa using hi) (span_stored htype i), List.getElem_map,
      List.getElem_map]
    rfl
  rw [hvals, hout] at hread
  exact ⟨_, hread, (h.cache _ (length_scatter ..)).next⟩

theorem writeValueMask_board (h : Linked nbPins board c d) (hlen : nbPins ≤ mask.length)
    {type : BitVec 8} (htype : type.toNat ≤ 4) {values : List (BitVec 16)}
    (hcount : values.length = (usedPins mask nbPins).length)
    (hvalues : ∀ v ∈ values, v.toNat < 2 ^ getTypeBitsNb type ∧ v.toNat < 2 ^ 8) :
    ∃ c' d', writeValueMask (deviceLink hostBuild) c d mask type values =
        some { ret := 0, out := (), conn := c', world := d' } ∧
      Linked nbPins
        { board with val := assign (usedPins mask nbPins) (values.getD · 0) board.val } c' d' := by
  have hpos := h.paired.pos
  have hbits := getTypeBitsNb_pos htype
  have hmask : c.nbPins ≤ mask.length := h.count ▸ hlen
  have hwrite := writeValueMask_device (b := hostBuild) (.inl rfl) h.paired hmask
    (show type.toNat < 8 by omega) hbits (h.count ▸ hcount)
  simp only [h.count] at hwrite
  rw [h.count] at hpos
  have htight : AllTight nbPins (getTypeBitsNb type) values := by
    intro i hi
    obtain ⟨hfits, hlow⟩ := hvalues values[i] (List.getElem_mem hi)
    exact Or.inr ⟨hfits, by omega⟩
  have hfit : Fits nbPins (getTypeBitsNb type) (usedPins mask nbPins).length
      (maskFieldsData nbPins (getTypeBitsNb type) mask values).length :=
    fits_of_le hbits (by rw [length_maskFieldsData, ← hcount]; omega)
  rw [usedPins_maskFieldsData hpos htight, if_pos hfit] at hwrite
  -- each value comes through the `uint8_t` as it is
  have hlow : ∀ i < values.length,
      ((fieldAt (bitAt (maskFieldsData nbPins (getTypeBitsNb type) mask values)) nbPins
        (getTypeBitsNb type) i).setWidth 8).setWidth 16 = values.getD i 0 := by
    intro i hi
    obtain ⟨hfits, hbyte⟩ := hvalues values[i] (List.getElem_mem hi)
    rw [fieldAt_maskFieldsData hi, htight.fieldAt_low (getTypeBitsNb_le type) hi hfits,
      List.getD_eq_getElem _ _ hi]
    refine BitVec.eq_of_toNat_eq ?_
    rw [BitVec.toNat_setWidth, BitVec.toNat_setWidth]
    omega
  have hnd := nodup_usedPins mask nbPins
  have hscatter := (scatter_eq_scatter_iff hnd d.conn.pinsState).mpr
    fun i hi => congrArg (fun v => (d.conn.pinsState[(usedPins mask nbPins)[i]]?).map
      fun pin : PinState => { pin with pinsVal := v }) (hlow i (by rw [hcount]; exact hi))
  rw [hscatter] at hwrite
  refine ⟨_, _, hwrite, ?_⟩
  have hlinked := h.setVals (fun i pin => { pin with pinsVal := values.getD i 0 }) hnd
    (fun pin hpin => usedPins_lt hpin) (fun _ _ => rfl) (fun _ _ => rfl)
  exact hlinked.cache _ (length_scatter ..)

/-- A query for the types of pins among which the last one is not. -/
theorem getTypeMask_board (h : Linked nbPins board c d) (hlen : nbPins ≤ mask.length)
    (hboundary : nbPins % 8 ≠ 1) (hlast : pinUsed mask (nbPins - 1) = false) :
    ∃ c', getTypeMask (deviceLink hostBuild) c d mask =
        some
          { ret := 1
            out := (usedPins mask nbPins).map fun pin => (board.type pin).setWidth 16
            conn := c'
            world := d.next } ∧
      Linked nbPins board c' d.next := by
  have hpos := h.paired.pos
  have hmask : c.nbPins ≤ mask.length := h.count ▸ hlen
  have hget := getTypeMask_device hostBuild h.paired hmask
    (h.count ▸ hboundary)
  simp only [h.count] at hget
  rw [h.count] at hpos
  -- The request drops the bit of the last pin, which `hlast` leaves unused: no pin is lost.
  have hasked : usedPins mask (nbPins - 1) = usedPins mask nbPins := by
    have hsplit := usedPins_succ mask (nbPins - 1)
    rw [Nat.sub_add_cancel hpos, hlast] at hsplit
    simpa using hsplit.symm
  have hvals : ((usedPins mask nbPins).map fun pin => (d.conn.pinAt pin).pinsType.setWidth 16) =
      (usedPins mask nbPins).map fun pin => (board.type pin).setWidth 16 := by
    refine List.map_congr_left fun pin hpin => ?_
    have htype : (d.conn.pinAt pin).pinsType = (board.type pin).setWidth 8 :=
      h.type pin (usedPins_lt hpin)
    have hlt := (board.type pin).isLt
    rw [htype]
    refine BitVec.eq_of_toNat_eq ?_
    simp
  rw [hasked, hvals] at hget
  have hfit : Fits 8 3 (usedPins mask nbPins).length
      ((7 + 3 * (usedPins mask nbPins).length) / 8 + 1) :=
    (fits_reply_iff _).mpr (Or.inr (by decide))
  -- Every type of a board takes three bits, so the packed reply is exact and reads back whole.
  have hsmall : ∀ v ∈ (usedPins mask nbPins).map fun pin => (board.type pin).setWidth 16,
      v.toNat < 2 ^ 3 := by
    intro v hv
    obtain ⟨pin, -, rfl⟩ := List.mem_map.mp hv
    have hlt := (board.type pin).isLt
    rw [BitVec.toNat_setWidth]
    omega
  have htight := allTight_of_lt 8 (show 3 ≤ 15 by decide) hsmall
  have hout : (List.range (usedPins mask nbPins).length).map
        (fieldAt (fieldsBits 8 3
          ((usedPins mask nbPins).map fun pin => (board.type pin).setWidth 16)) 8 3) =
      (usedPins mask nbPins).map fun pin => (board.type pin).setWidth 16 := by
    refine List.ext_getElem (by simp) fun i hi hi' => ?_
    rw [List.getElem_map, List.getElem_range,
      htight.fieldAt_eq (by decide) (fun _ _ _ => rfl) hi' (by omega),
      Nat.mod_eq_of_lt (hsmall _ (List.getElem_mem hi')), BitVec.ofNat_toNat, BitVec.setWidth_eq]
  rw [if_pos hfit, hout] at hget
  exact ⟨_, hget, (h.cache _ (length_scatter ..)).next⟩

theorem setTypeMask_board (h : Linked nbPins board c d) (hlen : nbPins ≤ mask.length)
    {types : List (BitVec 16)} (hcount : types.length = (usedPins mask nbPins).length)
    (htypes : ∀ t ∈ types, t.toNat < 8) :
    ∃ c' d', setTypeMask (deviceLink hostBuild) c d mask types =
        some { ret := 0, out := (), conn := c', world := d' } ∧
      Linked nbPins
        { board with
          type := assign (usedPins mask nbPins) (fun i => (types.getD i 0).setWidth 3)
            board.type } c' d' := by
  have hbound := c.nbPins_lt
  have hused := length_usedPins_le mask nbPins
  have hmask : c.nbPins ≤ mask.length := h.count ▸ hlen
  have hset := setTypeMask_device h.paired hmask (h.count ▸ hcount)
    htypes (b := hostBuild) (by rw [h.count] at hbound ⊢; show _ ≤ 612; omega)
  simp only [h.count] at hset
  refine ⟨_, _, hset, ?_⟩
  have hshow : ∀ i, ((types.getD i 0).setWidth 3).setWidth 8 = (types.getD i 0).setWidth 8 := by
    intro i
    have hlt : (types.getD i 0).toNat < 8 := by
      rcases Nat.lt_or_ge i types.length with hi | hi
      · rw [List.getD_eq_getElem _ _ hi]
        exact htypes _ (List.getElem_mem hi)
      · rw [List.getD_eq_default _ _ hi]
        decide
    refine BitVec.eq_of_toNat_eq ?_
    simp only [BitVec.toNat_setWidth]
    omega
  have hlinked := h.setTypes (fun i pin => { pin with pinsType := (types.getD i 0).setWidth 8 })
    (nodup_usedPins mask nbPins) (fun pin hpin => usedPins_lt hpin)
    (t := fun i => (types.getD i 0).setWidth 3) (fun i _ => (hshow i).symm) (fun _ _ => rfl)
  exact hlinked.cache _ (length_scatter ..)

end ManyPins

/-! ## Calls about the failsafe table -/

section FailsafeTable

variable {nbPins : Nat} {board : Board} {c : Connection} {d : Device} {pin : BitVec 8}
  {mask : Mask}

theorem setFailsafe_board (h : Linked nbPins board c d) (hpin : pin.toNat < nbPins)
    (timeout : BitVec 16) {e : PinFailsafe} (hstate : e.pinState.toNat ≤ 4)
    (hdigital : e.pinState ≠ pinTypeDigital)
    (hvalue : e.pinValue.toNat < 2 ^ getTypeBitsNb e.pinState) :
    ∃ c' d', setFailsafe (deviceLink hostBuild) c d pin timeout e =
        some { ret := 1, out := (), conn := c', world := d' } ∧
      Linked nbPins
        { board with
          timeout
          fallback := assign [pin.toNat] (fun _ => e) board.fallback } c' d' := by
  obtain ⟨own, hown, hlen⟩ := h.own
  obtain ⟨f, hf, -⟩ := h.table
  have hset := setFailsafe_device (b := hostBuild) rfl h.paired.device hf
    (by rw [h.device_nbPins]; exact hpin) hown (by rw [hlen]; exact hpin) timeout
    (Nat.lt_of_le_of_lt hstate (by decide)) (getTypeBitsNb_of_not_digital hstate hdigital) hvalue
  refine ⟨_, _, hset, ?_⟩
  have hlinked := h.setEntries (List.nodup_singleton pin.toNat) (by simpa using hpin) hf timeout
    (fun _ => e)
  exact hlinked.cacheTable ((List.length_modify ..).trans hlen)

theorem getFailsafe_board (h : Linked nbPins board c d) (hpin : pin.toNat < nbPins)
    (hvalid : (board.fallback pin.toNat).Valid)
    (hreadable : EntryReadable 24 (board.fallback pin.toNat)) :
    getFailsafe (deviceLink hostBuild) c d pin =
        some { ret := 1, out := board.fallback pin.toNat, conn := c, world := d.next } ∧
      Linked nbPins board c d.next := by
  obtain ⟨f, hf, -, hentry⟩ := h.table
  have hget := getFailsafe_device (b := hostBuild) (c := c) rfl h.paired.device hf
    (show pin.toNat < d.conn.nbPins by rw [h.device_nbPins]; exact hpin)
  rw [hentry _ hpin] at hget
  obtain ⟨a', hread⟩ := (readEntry_reply_iff d f hvalid hreadable.1).mpr hreadable
  rw [hread] at hget
  exact ⟨hget, h.next⟩

theorem getFailsafeMask_board (h : Linked nbPins board c d) {table : Failsafe}
    (hfew : nbPins ≤ 16) (hlen : nbPins ≤ mask.length)
    (hroom : (usedPins mask nbPins).length ≤ table.pinsFailsafe.length)
    (hsome : usedPins mask nbPins ≠ [])
    (hsize : (3 * (usedPins mask nbPins).length - 1) / 8 = (nbPins - 1) / 8)
    (hvalid : ∀ pin ∈ usedPins mask nbPins, (board.fallback pin).Valid)
    (hreadable : Readable 24 ((usedPins mask nbPins).map board.fallback)) :
    ∃ c', getFailsafeMask (deviceLink hostBuild) c d mask table =
        some
          { ret := 1
            out :=
              { timeout := board.timeout
                pinsFailsafe := (usedPins mask nbPins).map board.fallback ++
                  table.pinsFailsafe.drop (usedPins mask nbPins).length }
            conn := c'
            world := d.next } ∧
      Linked nbPins board c' d.next := by
  obtain ⟨own, hown, htable⟩ := h.own
  obtain ⟨f, hf, htimeout, hentry⟩ := h.table
  have hused := length_usedPins_le mask nbPins
  have hentries : f.entriesAt (usedPins mask nbPins) = (usedPins mask nbPins).map board.fallback :=
    List.map_congr_left fun pin hpin => hentry pin (usedPins_lt hpin)
  obtain ⟨es, hes⟩ : ∃ es, (usedPins mask nbPins).map board.fallback = es := ⟨_, rfl⟩
  have hcount : es.length = (usedPins mask nbPins).length := by rw [← hes, List.length_map]
  have hall : ∀ e ∈ es, e.InRange := by
    intro e he
    rw [← hes, List.mem_map] at he
    obtain ⟨pin, hpin, rfl⟩ := he
    exact (hvalid pin hpin).inRange
  have hmask : c.nbPins ≤ mask.length := h.count ▸ hlen
  have hget := getFailsafeMask_device (b := hostBuild) (g := table) rfl h.paired.device hf
    h.paired.same (h.count ▸ hfew) hmask (h.count ▸ hsome) (h.count ▸ hsize)
  have happly := fun (reply : Packet) (htime : readBitValue reply.data 8 16 = some f.timeout) =>
    getFailsafeMaskApply_eq (c := c) (f := f) (g := table) hmask hown (by rw [htable, h.count])
      (h.count ▸ hroom) htime
  simp only [h.count, hentries, hes] at hget happly
  obtain ⟨a', hread⟩ := (readEntries_reply_iff d f (by omega) hall).mpr (hes ▸ hreadable)
  rw [hcount, entriesReplyData] at hread
  rw [happly _ (timeout_entriesReplyData d f (by omega)), hread, Option.map_some, Option.map_some,
    htimeout, ← hes] at hget
  refine ⟨_, hget, (h.cacheTable ?_).next⟩
  simpa using htable

/-- The driver's own table takes no part in what the device makes of the request. -/
theorem setFailsafeMask_board (h : Linked nbPins board c d) (hlen : nbPins ≤ mask.length)
    (halign : nbPins % 8 = 0) {type : BitVec 8} (htype : type.toNat ≤ 4) (timeout : BitVec 16)
    {values : List (BitVec 16)} (hcount : (usedPins mask nbPins).length ≤ values.length)
    (hvalues : ∀ v ∈ values, v.toNat < 2 ^ getTypeBitsNb type) :
    ∃ c' d', setFailsafeMask (deviceLink hostBuild) c d mask type timeout values =
        some { ret := 0, out := (), conn := c', world := d' } ∧
      Linked nbPins
        { board with
          timeout
          fallback := assign (usedPins mask nbPins)
            (fun i => { pinState := type, pinValue := values.getD i 0 }) board.fallback }
        c' d' := by
  obtain ⟨own, hown, htable⟩ := h.own
  obtain ⟨f, hf, -⟩ := h.table
  have hbound : nbPins < 2 ^ 8 := h.count ▸ c.nbPins_lt
  obtain ⟨call, hcall⟩ : ∃ call : FailsafeMaskCall, call = ⟨mask, type, timeout, values⟩ :=
    ⟨_, rfl⟩
  have hin : call.InRange nbPins := by
    rw [hcall]
    exact ⟨hlen, htype, hcount, hvalues⟩
  -- The device stores its part of the table when it serves the request…
  have hserve := dispatch_maskFailsafe (b := hostBuild) rfl h.device_nbPins h.paired.device hf
    halign hin
  have hmask : c.nbPins ≤ mask.length := h.count ▸ hlen
  have hrequest := setFailsafeMaskRequest_eq hmask (getTypeBitsNb_pos htype) timeout
    (h.count ▸ hcount)
  have hframe := call.dataBytes_le (b := hostBuild) hbound halign (.inl rfl)
  simp only [h.count, List.length_take, Nat.min_eq_left hcount] at hrequest
  rw [hcall] at hserve hframe
  simp only [FailsafeMaskCall.dataBytes] at hserve hframe
  have hsize : (16 + nbPins + getTypeBitsNb type * (usedPins mask nbPins).length - 1) / 8 + 1 =
      (maskFailsafeData nbPins timeout mask (getTypeBitsNb type)
        (values.take (usedPins mask nbPins).length)).length := by
    rw [length_maskFailsafeData, List.length_take, Nat.min_eq_left hcount]
  -- …and the driver the same entries in its own once the reply is there.
  have hstore := storePerPin_eq hlen (Nat.le_of_eq htable.symm) hcount 0
    fun v _ => ({ pinState := type, pinValue := v } : PinFailsafe)
  have happly : setFailsafeMaskApply c mask type timeout values =
      some (0, (),
        { c with
          failsafe := some
            { timeout
              pinsFailsafe := scatter (fun i _ => { pinState := type, pinValue := values.getD i 0 })
                (usedPins mask nbPins) own.pinsFailsafe } }) := by
    simp only [setFailsafeMaskApply, hown, h.count, hstore, Option.bind_eq_bind, Option.bind_some,
      Option.pure_def]
  have hset : setFailsafeMask (deviceLink hostBuild) c d mask type timeout values = _ :=
    operation_device hrequest (setPacketHeader_fits _ _ hsize hframe) hserve
      (idReply_fits cmdSetType d.nextId) (idReply_pos cmdSetType d.nextId)
  rw [happly, Option.map_some] at hset
  refine ⟨_, _, hset, ?_⟩
  have hlinked := h.setEntries (nodup_usedPins mask nbPins) (fun pin hpin => usedPins_lt hpin) hf
    timeout fun i => { pinState := type, pinValue := values.getD i 0 }
  refine hlinked.cacheTable ?_
  simpa using htable

end FailsafeTable

/-! ## All calls -/

section Calls

variable {nbPins : Nat} {board : Board} {c : Connection} {d : Device}

/-- `get_caps` gives the driver fresh tables, for the pins that the device has. -/
theorem getCaps_board (hshown : board.ShownBy nbPins d) (hwf : d.conn.WellFormed)
    (hnb : d.conn.nbPins = nbPins) (hpos : 0 < nbPins) (c : Connection) :
    ∃ c', getCaps (deviceLink hostBuild) c d =
        some { ret := 0, out := (), conn := c', world := d.next } ∧
      Linked nbPins board c' d.next := by
  refine ⟨_, getCaps_device hostBuild c hwf, ?_⟩
  exact
    { version := hshown.version
      type := hshown.type
      val := hshown.val
      table := hshown.table
      paired := ⟨rfl, hnb ▸ hpos, List.length_replicate, hwf⟩
      count := hnb
      own := ⟨_, rfl, List.length_replicate.trans hnb⟩ }

theorem ping_board (h : Linked nbPins board c d) :
    ping (deviceLink hostBuild) c d =
        some { ret := 0, out := board.version, conn := c, world := d.next } ∧
      Linked nbPins board c d.next := by
  have hclear : initPacket (malloc 1) 1 = some [0#8] := initPacket_malloc (by decide)
  have hrequest : pingRequest c = some (setPacketHeader cmdPing 0 1 [c.protocolVersion]) := by
    simp only [pingRequest, versionBytesNb, hclear, Option.bind_eq_bind, Option.bind_some,
      writeByte_zero]
    rfl
  have hcmd : (delivered (setPacketHeader cmdPing 0 1 [c.protocolVersion])).header >>> 4 =
      cmdPing := headerCmd_plain cmdPing 0#8 (by decide) (by decide)
  have hserve : dispatch hostBuild d (delivered (setPacketHeader cmdPing 0 1 [c.protocolVersion])) =
      some (d.next, [frameOf (delivered (pingReply d))]) := by
    rw [dispatch_ping hcmd, replyPing_eq]
  have hping : ping (deviceLink hostBuild) c d = _ := operation_device hrequest
    (FitsBuild_of_le_three hostBuild _ _ (by decide) rfl) hserve
    ⟨show 2 ≤ 2 by decide, show 2 + 4 ≤ 612 by decide⟩ (show 0 < 2 by decide)
  have hdata : (delivered (pingReply d)).data.drop 1 = [d.conn.protocolVersion] := rfl
  have happly : pingApply c (delivered (pingReply d)) =
      some (0, (d.conn.protocolVersion.setWidth 16).setWidth 8, c) := by
    simp only [pingApply, hdata, versionBitsNb, readByte_eq, Option.bind_eq_bind, Option.bind_some,
      Option.pure_def]
  have hbyte : (d.conn.protocolVersion.setWidth 16).setWidth 8 = board.version := by
    rw [h.version]
    simp
  rw [happly, Option.map_some, hbyte] at hping
  exact ⟨hping, h.next⟩

/-- Every call that the board supports is answered as the board answers it. -/
theorem Linked.driver (h : Linked nbPins board c d) {call : DriverCall}
    (hcall : board.SupportsDriver nbPins call) :
    ∃ c' d', call.answer (deviceLink hostBuild) c d =
        some ((board.serveDriver nbPins call).1, c', d') ∧
      Linked nbPins (board.serveDriver nbPins call).2 c' d' := by
  cases call with
  | genericRead pinId pinMode =>
      obtain ⟨c', hread, hlinked⟩ := genericRead_board h hcall.1 pinMode hcall.2
      exact ⟨c', _, by rw [DriverCall.answer, hread]; rfl, hlinked⟩
  | digitalRead pinId =>
      obtain ⟨c', hread, hlinked⟩ := genericRead_board h hcall pinTypeDigital (by decide)
      exact ⟨c', _, by rw [DriverCall.answer, digitalRead, hread]; rfl, hlinked⟩
  | analogicRead pinId =>
      obtain ⟨c', hread, hlinked⟩ := genericRead_board h hcall pinTypeAnalog16 (by decide)
      have hbits : getTypeBitsNb pinTypeAnalog16 = 16 := rfl
      rw [hbits, lowBits_full] at hread
      exact ⟨c', _, by rw [DriverCall.answer, analogicRead, hread]; rfl, hlinked⟩
  | pwm8Read pinId =>
      obtain ⟨c', hread, hlinked⟩ := genericRead_board h hcall pinTypePwm8 (by decide)
      have hbyte := setWidth_lowBits (board.val pinId.toNat)
      refine ⟨c', _, ?_, hlinked⟩
      rw [DriverCall.answer, pwm8Read, hread, Board.serveDriver, ← hbyte]
      rfl
  | pwm16Read pinId =>
      obtain ⟨c', hread, hlinked⟩ := genericRead_board h hcall pinTypePwm16 (by decide)
      have hbits : getTypeBitsNb pinTypePwm16 = 16 := rfl
      rw [hbits, lowBits_full] at hread
      exact ⟨c', _, by rw [DriverCall.answer, pwm16Read, hread]; rfl, hlinked⟩
  | readValueMask mask type =>
      obtain ⟨hlen, htype, hdigital⟩ := hcall
      obtain ⟨c', hread, hlinked⟩ := readValueMask_board h hlen htype hdigital
      exact ⟨c', _, by rw [DriverCall.answer, hread]; rfl, hlinked⟩
  | genericWrite pinId pinMode val valSize =>
      obtain ⟨hpin, hmode, rfl⟩ := hcall
      obtain ⟨c', d', hwrite, hlinked⟩ := genericWrite_board h hpin pinMode hmode val
      exact ⟨c', d', by rw [DriverCall.answer, hwrite]; rfl, hlinked⟩
  | digitalWrite pinId val =>
      obtain ⟨c', d', hwrite, hlinked⟩ := genericWrite_board h hcall pinTypeDigital
        (by decide) ((BitVec.ofBool val).setWidth 16)
      have hbit : lowBits ((BitVec.ofBool val).setWidth 16) (getTypeBitsNb pinTypeDigital) =
          (BitVec.ofBool val).setWidth 16 := by
        cases val <;> rfl
      rw [hbit] at hlinked
      exact ⟨c', d', by rw [DriverCall.answer, digitalWrite]; exact congrArg _ hwrite, hlinked⟩
  | analogicWrite pinId val =>
      obtain ⟨c', d', hwrite, hlinked⟩ := genericWrite_board h hcall pinTypeAnalog16
        (by decide) val
      have hbits : getTypeBitsNb pinTypeAnalog16 = 16 := rfl
      rw [hbits, lowBits_full] at hlinked
      exact ⟨c', d', by rw [DriverCall.answer, analogicWrite]; exact congrArg _ hwrite, hlinked⟩
  | pwm8Write pinId val =>
      obtain ⟨c', d', hwrite, hlinked⟩ := genericWrite_board h hcall pinTypePwm8
        (by decide) val
      exact ⟨c', d', by rw [DriverCall.answer, pwm8Write]; exact congrArg _ hwrite, hlinked⟩
  | pwm16Write pinId val =>
      obtain ⟨c', d', hwrite, hlinked⟩ := genericWrite_board h hcall pinTypePwm16
        (by decide) val
      have hbits : getTypeBitsNb pinTypePwm16 = 16 := rfl
      rw [hbits, lowBits_full] at hlinked
      exact ⟨c', d', by rw [DriverCall.answer, pwm16Write]; exact congrArg _ hwrite, hlinked⟩
  | writeValueMask mask type values =>
      obtain ⟨hlen, htype, hcount, hvalues⟩ := hcall
      obtain ⟨c', d', hwrite, hlinked⟩ := writeValueMask_board h hlen htype hcount hvalues
      exact ⟨c', d', by rw [DriverCall.answer, hwrite]; rfl, hlinked⟩
  | getType pinId =>
      obtain ⟨c', hget, hlinked⟩ := getType_board h hcall
      exact ⟨c', _, by rw [DriverCall.answer, hget]; rfl, hlinked⟩
  | getTypeMask mask =>
      obtain ⟨hlen, hboundary, hlast⟩ := hcall
      obtain ⟨c', hget, hlinked⟩ := getTypeMask_board h hlen hboundary hlast
      exact ⟨c', _, by rw [DriverCall.answer, hget]; rfl, hlinked⟩
  | setType pinId type =>
      obtain ⟨c', d', hset, hlinked⟩ := setType_board h hcall.1 hcall.2
      exact ⟨c', d', by rw [DriverCall.answer, hset]; rfl, hlinked⟩
  | setTypeMask mask types =>
      obtain ⟨hlen, hcount, htypes⟩ := hcall
      obtain ⟨c', d', hset, hlinked⟩ := setTypeMask_board h hlen hcount htypes
      exact ⟨c', d', by rw [DriverCall.answer, hset]; rfl, hlinked⟩
  | getFailsafe pinId =>
      obtain ⟨hpin, hvalid, hreadable⟩ := hcall
      obtain ⟨hget, hlinked⟩ := getFailsafe_board h hpin hvalid hreadable
      exact ⟨c, _, by rw [DriverCall.answer, hget]; rfl, hlinked⟩
  | getFailsafeMask mask table =>
      obtain ⟨hfew, hlen, hroom, hsome, hsize, hvalid, hreadable⟩ := hcall
      obtain ⟨c', hget, hlinked⟩ := getFailsafeMask_board h hfew hlen hroom hsome hsize hvalid
        hreadable
      exact ⟨c', _, by rw [DriverCall.answer, hget]; rfl, hlinked⟩
  | setFailsafe pinNo timeout entry =>
      obtain ⟨hpin, hstate, hdigital, hvalue⟩ := hcall
      obtain ⟨c', d', hset, hlinked⟩ := setFailsafe_board h hpin timeout hstate hdigital hvalue
      exact ⟨c', d', by rw [DriverCall.answer, hset]; rfl, hlinked⟩
  | setFailsafeMask mask type timeout values =>
      obtain ⟨hlen, halign, htype, hcount, hvalues⟩ := hcall
      obtain ⟨c', d', hset, hlinked⟩ := setFailsafeMask_board h hlen halign htype timeout hcount
        hvalues
      exact ⟨c', d', by rw [DriverCall.answer, hset]; rfl, hlinked⟩

/-- The driver and its device answer like a board. -/
theorem simulates_board :
    Simulates (fun (t : Connection × Device) board => Linked nbPins board t.1 t.2)
      (fun call t => ApiCall.answer (deviceLink hostBuild) t.1 t.2 call) (Board.serve nbPins)
      (Board.Supports nbPins) := by
  rintro ⟨c, d⟩ board call hlinked hcall
  cases call with
  | getCaps =>
      obtain ⟨c', hget, hlinked'⟩ := getCaps_board hlinked.toShownBy hlinked.paired.device
        hlinked.device_nbPins (hlinked.count ▸ hlinked.paired.pos) c
      exact ⟨(c', d.next), by simp only [ApiCall.answer, hget]; rfl, hlinked'⟩
  | ping =>
      obtain ⟨hping, hlinked'⟩ := ping_board hlinked
      exact ⟨(c, d.next), by simp only [ApiCall.answer, hping]; rfl, hlinked'⟩
  | driver call =>
      obtain ⟨c', d', hanswer, hlinked'⟩ := hlinked.driver hcall
      exact ⟨(c', d'), hanswer, hlinked'⟩

end Calls

end PinProtocol
