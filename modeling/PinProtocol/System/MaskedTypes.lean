import PinProtocol.System.MaskOperations

/-!
# MaskedTypes — types of a set of pins

`set_type_mask` against one `set_type` per pin, and what a caller of `get_type_mask` gets.  The
request of the latter leaves out the last pin of the mask (`getTypeMaskRequest_eq`); whether the
caller notices is decided by `TypesAnswered`.
-/

namespace PinProtocol

open Bits Control

section SetType

variable {c : Connection} {d : Device} {mask : Mask} {types : List (BitVec 16)}

/-- One `set_type` per pin used, in ascending order. -/
def setTypeEach (b : Build) (c : Connection) (d : Device) (mask : Mask)
    (types : List (BitVec 16)) : Option (Connection × Device) :=
  forEachPin
    (fun c d pin i => setType (deviceLink b) c d (BitVec.ofNat 8 pin)
      ((types.getD i 0).setWidth 8))
    (usedPins mask c.nbPins) c d

/-- The update that both ends make for the `i`-th pin. -/
def typeUpdate (types : List (BitVec 16)) (i : Nat) (pin : PinState) : PinState :=
  { pin with pinsType := (types.getD i 0).setWidth 8 }

theorem setTypeEach_eq (b : Build) (h : Paired c d)
    (hcount : types.length = (usedPins mask c.nbPins).length)
    (htypes : ∀ t ∈ types, t.toNat < 8) :
    ∃ c' d', setTypeEach b c d mask types = some (c', d') ∧
      c'.pinsState = scatter (typeUpdate types) (usedPins mask c.nbPins) c.pinsState ∧
      d'.conn.pinsState = scatter (typeUpdate types) (usedPins mask c.nbPins) d.conn.pinsState := by
  refine forEachPin_eq _ _ _ (fun p hp c' d' hc' hd' => ?_) h.driver h.device_length
  have hpin : p.1 < c.nbPins := usedPins_lt (List.fst_mem_of_mem_zipIdx hp)
  have hidx : p.2 < types.length := by rw [hcount]; exact List.snd_lt_of_mem_zipIdx hp
  have hbyte := toNat_ofNat_pin (Nat.lt_trans hpin c.nbPins_lt)
  have htype : ((types.getD p.2 0).setWidth 8).toNat < 8 := by
    have hlt := htypes types[p.2] (List.getElem_mem hidx)
    rw [List.getD_eq_getElem _ _ hidx, BitVec.toNat_setWidth]
    omega
  refine ⟨_, setType_device b c' d' htype (by rw [hbyte, hd']; exact hpin)
    (by rw [hbyte, hc']; exact hpin), ?_, ?_⟩
  · rw [hbyte]
    rfl
  · rw [hbyte]
    rfl

/-- A masked type change does what the single ones do, leaves the other pins alone, and leaves
both ends with the same types. -/
theorem setTypeMask_agrees (b : Build) (c : Connection) (d : Device) (mask : Mask)
    (types : List (BitVec 16)) (hroom : b.embedded = false ∨ c.nbPins ≤ 16) (h : Paired c d)
    (hlen : c.nbPins ≤ mask.length) (hcount : types.length = (usedPins mask c.nbPins).length)
    (htypes : ∀ t ∈ types, t.toNat < 8) :
    ∃ r c' d', setTypeMask (deviceLink b) c d mask types = some r ∧
      setTypeEach b c d mask types = some (c', d') ∧
      r.world.conn.pinsState = d'.conn.pinsState ∧
      (∀ pin, pin ∉ usedPins mask c.nbPins → r.world.conn.pinAt pin = d.conn.pinAt pin) ∧
      ∀ pin ∈ usedPins mask c.nbPins,
        (r.conn.pinAt pin).pinsType = (r.world.conn.pinAt pin).pinsType := by
  rcases setTypeEach_eq b h hcount htypes with ⟨c', d', hsingle, _, hdevice⟩
  -- 255 types of three bits fit the buffer of the host, and 16 that of an Atmega8
  have hframe : (c.nbPins + 3 * types.length - 1) / 8 + 5 ≤ b.buffSize := by
    have hbound := c.nbPins_lt
    have hused := length_usedPins_le mask c.nbPins
    have hbuff := le_buffSize b
    rcases hroom with hb | hfew
    · rw [Build.buffSize, hb, if_neg Bool.false_ne_true]
      omega
    · omega
  refine ⟨_, c', d', setTypeMask_device h hlen hcount htypes hframe, hsingle, ?_, ?_, ?_⟩
  · rw [hdevice]
    rfl
  · intro pin hpin
    exact pinAt_scatter_of_notMem hpin _
  · intro pin hpin
    rcases List.getElem_of_mem hpin with ⟨n, hn, rfl⟩
    have hnd := nodup_usedPins mask c.nbPins
    have hdriver := pinAt_scatter (c := c) hnd
      (fun i hi => by rw [h.driver]; exact usedPins_lt hi) (typeUpdate types) hn
    have hdev := pinAt_scatter (c := d.conn) hnd
      (fun i hi => by rw [h.device_length]; exact usedPins_lt hi) (typeUpdate types) hn
    calc _ = (types.getD n 0).setWidth 8 := congrArg PinState.pinsType hdriver
      _ = _ := (congrArg PinState.pinsType hdev).symm

end SetType

/-- Three pins of ten; the entry of the second one straddles two bytes. -/
theorem setTypeMask_agrees_ten :
    ∃ r c' d',
      setTypeMask (deviceLink hostBuild) (initialDevice hostBuild 10).conn
        (initialDevice hostBuild 10)
        [true, false, false, true, false, false, false, false, false, true] [7, 2, 4] = some r ∧
      setTypeEach hostBuild (initialDevice hostBuild 10).conn (initialDevice hostBuild 10)
        [true, false, false, true, false, false, false, false, false, true] [7, 2, 4] =
          some (c', d') ∧
      r.world.conn.pinsState = d'.conn.pinsState := by
  rcases setTypeMask_agrees hostBuild (initialDevice hostBuild 10).conn
      (initialDevice hostBuild 10)
      [true, false, false, true, false, false, false, false, false, true] [7, 2, 4] (.inl rfl)
      (initialDevice_paired hostBuild (by decide)) (by decide +kernel) (by decide +kernel)
      (by simp) with ⟨r, c', d', hmask, heach, hsame, _⟩
  exact ⟨r, c', d', hmask, heach, hsame⟩

/-! ## `get_type_mask` -/

section GetType

variable {c : Connection} {d : Device} {mask : Mask}

/-- What a caller of `get_type_mask` expects: the device is sent the whole mask, the types of the
pins used arrive in order, and the cache has them for exactly these pins. -/
structure TypesAnswered (b : Build) (c : Connection) (d : Device) (mask : Mask) : Prop where
  request : ∃ p, getTypeMaskRequest c mask = some p ∧ c.nbPins ≤ 8 * p.size.toNat
  answer : ∃ r, getTypeMask (deviceLink b) c d mask = some r ∧
    (∀ i (h : i < (usedPins mask c.nbPins).length),
      r.out[i]? = some ((d.conn.pinAt (usedPins mask c.nbPins)[i]).pinsType.setWidth 16)) ∧
    ∀ pin < c.nbPins, r.conn.pinAt pin =
      if pin ∈ usedPins mask c.nbPins then
        { c.pinAt pin with pinsType := (d.conn.pinAt pin).pinsType }
      else c.pinAt pin

/-- A request whose bytes cover the mask is not at the boundary of a byte. -/
theorem boundary_of_request (hpos : 0 < c.nbPins) (hlen : c.nbPins ≤ mask.length) {p : Packet}
    (hp : getTypeMaskRequest c mask = some p) (hbytes : c.nbPins ≤ 8 * p.size.toNat) :
    c.nbPins % 8 ≠ 1 := by
  intro hboundary
  have hbound := c.nbPins_lt
  by_cases hone : c.nbPins = 1
  · rw [getTypeMaskRequest_one hone hp] at hbytes
    simp at hbytes
    omega
  · have htwo : 2 ≤ c.nbPins := by omega
    rw [getTypeMaskRequest_eq htwo hlen] at hp
    cases hp
    have hsize : (setPacketHeader cmdGetType useMask ((c.nbPins - 2) / 8 + 1)
        (maskData (c.nbPins - 1) mask)).size.toNat = (c.nbPins - 2) / 8 + 1 :=
      toNat_ofNat_size (by omega)
    omega

/-- The fields of the reply are the types of the pins that the device was asked about. -/
theorem askedType_eq (pins : List Nat) (typeOf : Nat → BitVec 8)
    (htypes : ∀ pin ∈ pins, (typeOf pin).toNat < 8) {i : Nat} (hi : i < pins.length) :
    fieldAt (fieldsBits 8 3 (pins.map fun pin => (typeOf pin).setWidth 16)) 8 3 i =
      (typeOf pins[i]).setWidth 16 := by
  have hwide : ∀ t ∈ pins.map (fun pin => (typeOf pin).setWidth 16), t.toNat < 8 := by
    intro t ht
    rcases List.mem_map.mp ht with ⟨pin, hpin, rfl⟩
    have hlt := htypes pin hpin
    rw [BitVec.toNat_setWidth]
    omega
  have hi' : i < (pins.map fun pin => (typeOf pin).setWidth 16).length := by
    rw [List.length_map]
    exact hi
  have hmod := Nat.mod_eq_of_lt (show _ < 2 ^ 3 from hwide _ (List.getElem_mem hi'))
  rw [(allTight_types 8 hwide).fieldAt_eq (by decide) (fun _ _ _ => rfl) hi' (by omega), hmod,
    BitVec.ofNat_toNat, BitVec.setWidth_eq, List.getElem_map]

/-- The pins used are those that the device is asked about, and perhaps the last one. -/
theorem usedPins_asked (hpos : 0 < c.nbPins) (mask : Mask) :
    usedPins mask c.nbPins = usedPins mask (c.nbPins - 1) ++
      if pinUsed mask (c.nbPins - 1) then [c.nbPins - 1] else [] := by
  have hsucc : c.nbPins - 1 + 1 = c.nbPins := by omega
  have hsplit := usedPins_succ mask (c.nbPins - 1)
  rwa [hsucc] at hsplit

theorem last_mem_usedPins (hpos : 0 < c.nbPins) :
    c.nbPins - 1 ∈ usedPins mask c.nbPins ↔ pinUsed mask (c.nbPins - 1) = true := by
  rw [mem_usedPins]
  exact ⟨And.right, fun hused => ⟨by omega, hused⟩⟩

/-- What the driver makes of the reply for the `i`-th pin used: a pin that the device was not asked
about is reported with type 0. -/
theorem answer_eq (hpos : 0 < c.nbPins)
    (htypes : ∀ pin < c.nbPins, (d.conn.pinAt pin).pinsType.toNat < 8)
    (hlast : c.nbPins - 1 ∈ usedPins mask c.nbPins →
      (d.conn.pinAt (c.nbPins - 1)).pinsType = pinTypeDigital)
    {i : Nat} (hi : i < (usedPins mask c.nbPins).length) :
    fieldAt (fieldsBits 8 3 ((usedPins mask (c.nbPins - 1)).map
      fun pin => (d.conn.pinAt pin).pinsType.setWidth 16)) 8 3 i =
        (d.conn.pinAt (usedPins mask c.nbPins)[i]).pinsType.setWidth 16 := by
  have hsplit := usedPins_asked hpos mask
  -- the reply has the types of the pins of the mask below the last pin
  by_cases hasked : i < (usedPins mask (c.nbPins - 1)).length
  · have hget : (usedPins mask c.nbPins)[i] = (usedPins mask (c.nbPins - 1))[i] := by
      rw [List.getElem_of_eq hsplit, List.getElem_append_left hasked]
    rw [hget]
    exact askedType_eq (usedPins mask (c.nbPins - 1)) (fun pin => (d.conn.pinAt pin).pinsType)
      (fun pin hpin => htypes pin (by have := usedPins_lt hpin; omega)) hasked
  · -- only the last pin can be the one that was left out
    have hused : pinUsed mask (c.nbPins - 1) = true := by
      by_contra hnot
      rw [if_neg hnot, List.append_nil] at hsplit
      rw [hsplit] at hi
      exact hasked hi
    rw [if_pos hused] at hsplit
    have hlen : (usedPins mask c.nbPins).length = (usedPins mask (c.nbPins - 1)).length + 1 := by
      rw [hsplit, List.length_append, List.length_singleton]
    have hget : (usedPins mask c.nbPins)[i] = c.nbPins - 1 := by
      rw [List.getElem_of_eq hsplit, List.getElem_append_right (by omega)]
      simp
    rw [hget, hlast ((last_mem_usedPins hpos).mpr hused),
      fieldAt_fieldsBits_past (by rw [List.length_map]; omega)]
    rfl

/-- The answers are right exactly when the bytes of the request happen to cover the last pin of the
mask as well, and the caller either does not ask about that pin or asks about a digital one whose
missing answer still lies inside the padding of the reply. -/
theorem typesAnswered_iff (b : Build) (c : Connection) (d : Device) (mask : Mask)
    (h : Paired c d) (hlen : c.nbPins ≤ mask.length)
    (htypes : ∀ pin < c.nbPins, (d.conn.pinAt pin).pinsType.toNat < 8) :
    TypesAnswered b c d mask ↔
      c.nbPins % 8 ≠ 1 ∧
        (c.nbPins - 1 ∈ usedPins mask c.nbPins →
          (d.conn.pinAt (c.nbPins - 1)).pinsType = pinTypeDigital ∧
          3 * (usedPins mask c.nbPins).length ≤
            8 * ((7 + 3 * ((usedPins mask c.nbPins).length - 1)) / 8)) := by
  have hpos := h.pos
  have hsplit := usedPins_asked hpos mask
  constructor
  · rintro ⟨⟨p, hp, hbytes⟩, r, hr, hout, _⟩
    have hboundary := boundary_of_request hpos hlen hp hbytes
    refine ⟨hboundary, fun hlast => ?_⟩
    rw [if_pos ((last_mem_usedPins hpos).mp hlast)] at hsplit
    have hcount : (usedPins mask c.nbPins).length = (usedPins mask (c.nbPins - 1)).length + 1 := by
      rw [hsplit, List.length_append, List.length_singleton]
    rw [getTypeMask_device b h hlen hboundary] at hr
    by_cases hfit : Fits 8 3 (usedPins mask c.nbPins).length
        ((7 + 3 * (usedPins mask (c.nbPins - 1)).length) / 8 + 1)
    · rw [if_pos hfit] at hr
      cases hr
      have hanswer := hout (usedPins mask (c.nbPins - 1)).length (by omega)
      have hget : (usedPins mask c.nbPins)[(usedPins mask (c.nbPins - 1)).length] =
          c.nbPins - 1 := by
        rw [List.getElem_of_eq hsplit, List.getElem_append_right (Nat.le_refl _)]
        simp
      -- the field of the last pin lies past the fields of the reply
      have hpast : fieldAt (fieldsBits 8 3 ((usedPins mask (c.nbPins - 1)).map
          fun pin => (d.conn.pinAt pin).pinsType.setWidth 16)) 8 3
          (usedPins mask (c.nbPins - 1)).length = 0#16 :=
        fieldAt_fieldsBits_past (by rw [List.length_map])
      have hzero : 0#16 = (d.conn.pinAt (c.nbPins - 1)).pinsType.setWidth 16 := by
        rw [hget, List.getElem?_map, List.getElem?_range (by omega), Option.map_some, hpast]
          at hanswer
        exact Option.some.inj hanswer
      refine ⟨?_, ?_⟩
      · have hnat := congrArg BitVec.toNat hzero
        rw [BitVec.toNat_setWidth] at hnat
        refine BitVec.eq_of_toNat_eq ?_
        have hlt := (d.conn.pinAt (c.nbPins - 1)).pinsType.isLt
        simp at hnat
        simp [pinTypeDigital]
        omega
      · have hroom := (fits_iff (by decide)).mp hfit
        have hback : (usedPins mask c.nbPins).length - 1 =
            (usedPins mask (c.nbPins - 1)).length := by omega
        rw [hback]
        omega
    · rw [if_neg hfit] at hr
      cases hr
  · rintro ⟨hboundary, hlast⟩
    have hbound := c.nbPins_lt
    have hfit : Fits 8 3 (usedPins mask c.nbPins).length
        ((7 + 3 * (usedPins mask (c.nbPins - 1)).length) / 8 + 1) := by
      by_cases hused : pinUsed mask (c.nbPins - 1) = true
      · have hroom := (hlast ((last_mem_usedPins hpos).mpr hused)).2
        rw [if_pos hused] at hsplit
        have hback : (usedPins mask c.nbPins).length - 1 =
            (usedPins mask (c.nbPins - 1)).length := by
          rw [hsplit, List.length_append, List.length_singleton, Nat.add_sub_cancel]
        rw [hback] at hroom
        exact fits_of_le (by decide) (by omega)
      · rw [if_neg hused, List.append_nil] at hsplit
        rw [hsplit]
        exact (fits_reply_iff _).mpr (Or.inr (by decide))
    -- without the last pin, the reply has a field for every used pin
    have hanswers : ∀ i (hi : i < (usedPins mask c.nbPins).length), _ := fun i hi =>
      answer_eq hpos htypes (fun hmem => (hlast hmem).1) hi
    have hdevice := (getTypeMask_device b h hlen hboundary).trans (if_pos hfit)
    refine ⟨⟨_, getTypeMaskRequest_eq (by omega) hlen, ?_⟩, _, hdevice, fun i hi => ?_,
      fun pin hpin => ?_⟩
    · have hsize : (setPacketHeader cmdGetType useMask ((c.nbPins - 2) / 8 + 1)
          (maskData (c.nbPins - 1) mask)).size.toNat = (c.nbPins - 2) / 8 + 1 :=
        toNat_ofNat_size (by omega)
      omega
    · rw [List.getElem?_map, List.getElem?_range hi, Option.map_some, hanswers i hi]
    · by_cases hmem : pin ∈ usedPins mask c.nbPins
      · rcases List.getElem_of_mem hmem with ⟨n, hn, rfl⟩
        rw [if_pos hmem, pinAt_scatter (nodup_usedPins mask c.nbPins)
          (fun i hi => by rw [h.driver]; exact usedPins_lt hi) _ hn, hanswers n hn]
        simp
      · rw [if_neg hmem, pinAt_scatter_of_notMem hmem]

end GetType

/-- Sixteen pins of which the last one is an `ANALOG16` pin. -/
def lastAnalog : Device :=
  { initialDevice hostBuild 16 with
    conn :=
      { (initialDevice hostBuild 16).conn with
        pinsState := (initialDevice hostBuild 16).conn.pinsState.modify 15
          fun pin => { pin with pinsType := pinTypeAnalog16 } } }

/-- A query for all sixteen pins says that the last one is digital. -/
theorem not_typesAnswered_lastAnalog :
    ¬ TypesAnswered hostBuild (initialDevice hostBuild 16).conn lastAnalog
      (List.replicate 16 true) := by
  rintro ⟨_, r, hr, hout, _⟩
  have hzero : (getTypeMask (deviceLink hostBuild) (initialDevice hostBuild 16).conn lastAnalog
      (List.replicate 16 true)).map (fun r => r.out[15]?) = some (some 0) := by
    decide +kernel
  have hlen : 15 < (usedPins (List.replicate 16 true)
      (initialDevice hostBuild 16).conn.nbPins).length := by
    decide +kernel
  have htwo : (lastAnalog.conn.pinAt (usedPins (List.replicate 16 true)
      (initialDevice hostBuild 16).conn.nbPins)[15]).pinsType = pinTypeAnalog16 := rfl
  rw [hr, Option.map_some, hout 15 hlen, htwo] at hzero
  revert hzero
  decide

/-- Two digital pins of ten, the last one included: the missing answer is the right one. -/
theorem typesAnswered_ten :
    TypesAnswered hostBuild (initialDevice hostBuild 10).conn (initialDevice hostBuild 10)
      [true, false, false, false, false, false, false, false, false, true] := by
  refine (typesAnswered_iff hostBuild (initialDevice hostBuild 10).conn (initialDevice hostBuild 10)
    [true, false, false, false, false, false, false, false, false, true]
    (initialDevice_paired hostBuild (by decide)) (by decide +kernel) fun pin hpin => ?_).mpr
    (by decide +kernel)
  have hpinAt : (initialDevice hostBuild 10).conn.pinAt pin = _ :=
    initialDevice_pinAt hostBuild hpin
  rw [hpinAt]
  decide

end PinProtocol
