import PinProtocol.System.MaskOperations

/-!
# MaskedValues — values of a set of pins

The masked read and the masked write against one single-pin operation per pin used.  Neither agrees
with it in general:

* the reply to a masked read packs whole stored values, so digital fields run into each other
  (`readsAgree_iff`);
* a masked write leaves the types alone and goes through a `uint8_t` (`writesAgree_iff`).
-/

namespace PinProtocol

open Bits Control

section Read

variable {c : Connection} {d : Device} {mask : Mask} {type : BitVec 8}

/-! ## Reading -/

/-- A masked read gives the caller and the cache what single reads would give. -/
def ReadsAgree (b : Build) (c : Connection) (d : Device) (mask : Mask) (type : BitVec 8) : Prop :=
  ∃ r, readValueMask (deviceLink b) c d mask type = some r ∧
    ∀ i (h : i < (usedPins mask c.nbPins).length),
      ∃ s, genericRead (deviceLink b) c d (BitVec.ofNat 8 (usedPins mask c.nbPins)[i]) type =
          some s ∧
        r.out[i]? = some s.out ∧
        (r.conn.pinAt (usedPins mask c.nbPins)[i]).pinsVal = s.out

/-- A single read, in the terms of a masked one. -/
theorem genericRead_used (b : Build) (h : Paired c d) (htype : type.toNat ≤ 4) {pin : Nat}
    (hpin : pin < c.nbPins) :
    ∃ s, genericRead (deviceLink b) c d (BitVec.ofNat 8 pin) type = some s ∧
      s.out = BitVec.ofNat 16
        ((d.conn.pinAt pin).pinsVal.toNat % 2 ^ getTypeBitsNb type) := by
  have hbyte : (BitVec.ofNat 8 pin).toNat = pin := by
    have hbound := c.nbPins_lt
    simp
    omega
  have hread : genericRead (deviceLink b) c d (BitVec.ofNat 8 pin) type = _ :=
    genericRead_device b c d (by omega) (getTypeBitsNb_pos htype)
      (by rw [hbyte, h.device_length]; exact hpin) (by rw [hbyte, h.driver]; exact hpin)
  refine ⟨_, hread, ?_⟩
  rw [hbyte]

/-- The values agree as soon as the fields of the reply hold the stored values. -/
theorem readsAgree_iff_fields (b : Build) (h : Paired c d) (hlen : c.nbPins ≤ mask.length)
    (htype : type.toNat ≤ 4) :
    ReadsAgree b c d mask type ↔
      ∀ i (_ : i < (usedPins mask c.nbPins).length),
        fieldAt (fieldsBits 8 (getTypeBitsNb type) ((usedPins mask c.nbPins).map
          fun pin => (d.conn.pinAt pin).pinsVal)) 8 (getTypeBitsNb type) i =
            BitVec.ofNat 16 ((d.conn.pinAt (usedPins mask c.nbPins)[i]).pinsVal.toNat %
              2 ^ getTypeBitsNb type) := by
  have hmask := readValueMask_device b h hlen (show type.toNat < 8 by omega)
    (getTypeBitsNb_pos htype)
  constructor
  · rintro ⟨r, hr, hagree⟩ i hi
    rcases hagree i hi with ⟨s, hs, hout, _⟩
    rcases genericRead_used b h htype (usedPins_lt (List.getElem_mem hi)) with ⟨s', hs', hval⟩
    rw [hs] at hs'
    cases hs'
    rw [hmask] at hr
    cases hr
    rw [List.getElem?_map, List.getElem?_range hi, Option.map_some, hval] at hout
    exact Option.some.inj hout
  · intro hfields
    refine ⟨_, hmask, fun i hi => ?_⟩
    rcases genericRead_used b h htype (usedPins_lt (List.getElem_mem hi)) with ⟨s, hs, hval⟩
    refine ⟨s, hs, ?_, ?_⟩
    · rw [List.getElem?_map, List.getElem?_range hi, Option.map_some, hfields i hi, hval]
    · rw [pinAt_scatter (nodup_usedPins mask c.nbPins)
        (fun i hi => by rw [h.driver]; exact usedPins_lt hi) _ hi, hval]
      exact hfields i hi

/-- The digital fields of a reply: the bits of later values of the same byte come on top. -/
theorem fieldsBits_digital (vals : List (BitVec 16)) (i : Nat) :
    fieldsBits 8 1 vals (8 + i) = true ↔
      ∃ k, ∃ h : k < vals.length, i ≤ k ∧ i / 8 = k / 8 ∧ vals[k].getLsbD (k - i) = true := by
  rw [fieldsBits_eq_true_iff]
  refine exists_congr fun k => exists_congr fun hk => ?_
  have hpos : 8 + 1 * k = 8 + k := by omega
  have hidx : 8 + k + 1 - 1 - (8 + i) = k - i := by omega
  rw [hpos, fieldBits, hidx]
  by_cases hin : i ≤ k ∧ i / 8 = k / 8
  · have hlo : 8 * ((8 + k) / 8) ≤ 8 + i := by omega
    have hhi : 8 + i < 8 + k + 1 := by omega
    have hshort : k - i < 16 := by omega
    rw [decide_eq_true hlo, decide_eq_true hhi, intBit, if_pos hshort]
    simp [hin]
  · have hout : ¬ (8 * ((8 + k) / 8) ≤ 8 + i ∧ 8 + i < 8 + k + 1) := by omega
    rw [← Bool.decide_and, decide_eq_false hout]
    simp
    intro h1 h2
    exact absurd ⟨h1, h2⟩ hin

/-- A digital field is right when no later value of its byte adds a bit to it. -/
theorem fieldAt_digital_iff (vals : List (BitVec 16)) {i : Nat} (hi : i < vals.length) :
    fieldAt (fieldsBits 8 1 vals) 8 1 i = BitVec.ofNat 16 (vals[i].toNat % 2 ^ 1) ↔
      ∀ k (h : k < vals.length), i < k → i / 8 = k / 8 → vals[k].getLsbD (k - i) = true →
        vals[i].getLsbD 0 = true := by
  -- a field of one bit is the bit itself, with what later values or-ed into it
  have hfield : fieldAt (fieldsBits 8 1 vals) 8 1 i =
      BitVec.ofNat 16 (fieldsBits 8 1 vals (8 + i)).toNat := by
    have hspan : (8 + 1 * i) % 8 + 1 ≤ 16 := by omega
    rw [fieldAt, fieldRead, if_pos hspan, window_succ, window_zero, Nat.one_mul]
    simp
  have hbit : vals[i].toNat % 2 ^ 1 = (vals[i].getLsbD 0).toNat := by
    rw [← BitVec.testBit_toNat, Nat.testBit_zero, Nat.pow_one]
    rcases Nat.mod_two_eq_zero_or_one vals[i].toNat with h | h <;> simp [h]
  have hinj : ∀ x y : Bool,
      BitVec.ofNat 16 x.toNat = BitVec.ofNat 16 y.toNat ↔ (x = true ↔ y = true) := by
    decide
  rw [hfield, hbit, hinj, fieldsBits_digital]
  constructor
  · intro h k hk hik hbyte hset
    exact h.mp ⟨k, hk, Nat.le_of_lt hik, hbyte, hset⟩
  · intro h
    constructor
    · rintro ⟨k, hk, hik, hbyte, hset⟩
      rcases Nat.eq_or_lt_of_le hik with heq | hlt
      · subst heq
        rwa [Nat.sub_self] at hset
      · exact h k hk hlt hbyte hset
    · intro hset
      exact ⟨i, hi, Nat.le_refl i, rfl, by rwa [Nat.sub_self]⟩

/-- A masked read agrees with single reads unless it is a digital one and some stored value, shifted
to the place of an earlier pin in the same byte of the reply, adds a bit that this pin does not
have. -/
theorem readsAgree_iff (b : Build) (c : Connection) (d : Device) (mask : Mask) (type : BitVec 8)
    (h : Paired c d) (hlen : c.nbPins ≤ mask.length) (htype : type.toNat ≤ 4) :
    ReadsAgree b c d mask type ↔
      type ≠ pinTypeDigital ∨
        ∀ i k (hik : i < k) (hk : k < (usedPins mask c.nbPins).length), i / 8 = k / 8 →
          (d.conn.pinAt (usedPins mask c.nbPins)[k]).pinsVal.getLsbD (k - i) = true →
            (d.conn.pinAt (usedPins mask c.nbPins)[i]).pinsVal.getLsbD 0 = true := by
  rw [readsAgree_iff_fields b h hlen htype]
  by_cases hdigital : type = pinTypeDigital
  · rw [getTypeBitsNb_digital hdigital]
    have hvals : ∀ i (hi : i < (usedPins mask c.nbPins).length), _ := fun i hi =>
      fieldAt_digital_iff ((usedPins mask c.nbPins).map fun pin => (d.conn.pinAt pin).pinsVal)
        (show i < _ by rw [List.length_map]; exact hi)
    simp only [List.getElem_map, List.length_map] at hvals
    constructor
    · intro hfields
      refine Or.inr fun i k hik hk hbyte hset => ?_
      have hi : i < (usedPins mask c.nbPins).length := Nat.lt_trans hik hk
      exact (hvals i hi).mp (hfields i hi) k hk hik hbyte hset
    · rintro (hne | hbits) i hi
      · exact absurd hdigital hne
      · exact (hvals i hi).mpr fun k hk hik hbyte hset => hbits i k hik hk hbyte hset
  · refine iff_of_true (fun i hi => ?_) (Or.inl hdigital)
    -- fields of whole bytes do not overlap
    have hwidth : getTypeBitsNb type % 8 = 0 := by
      rcases getTypeBitsNb_of_not_digital htype hdigital with h | h <;> rw [h]
    have htight := allTight_aligned (show 8 % 8 = 0 by decide) hwidth
      ((usedPins mask c.nbPins).map fun pin => (d.conn.pinAt pin).pinsVal)
    have hmul : getTypeBitsNb type * i % 8 = 0 := by
      rw [Nat.mul_mod, hwidth, Nat.zero_mul, Nat.zero_mod]
    have hle := getTypeBitsNb_le type
    rw [htight.fieldAt_eq hle (fun _ _ _ => rfl) (by rw [List.length_map]; exact hi) (by omega),
      List.getElem_map]

end Read

/-- Two fresh pins, after `analogic_write` has put 2 into the second one. -/
def secondAnalog : Device :=
  { conn :=
      { (initialDevice hostBuild 2).conn with
        pinsState := [⟨pinTypeDigital, 0⟩, ⟨pinTypeAnalog16, 2⟩] }
    nextId := 1 }

/-- The second pin adds its bit 1 to the field of the first one. -/
theorem not_readsAgree_secondAnalog :
    ((initDeviceContent hostBuild 2).bind fun d =>
        analogicWrite (deviceLink hostBuild) d.conn d 1 2).map (fun r => r.world) =
      some secondAnalog ∧
    ¬ ReadsAgree hostBuild secondAnalog.conn secondAnalog [true, true] pinTypeDigital := by
  refine ⟨by decide +kernel, ?_⟩
  rintro ⟨r, hr, hagree⟩
  have hlen : 0 < (usedPins [true, true] secondAnalog.conn.nbPins).length := by decide +kernel
  rcases hagree 0 hlen with ⟨s, hs, hout, _⟩
  have hfirst : (usedPins [true, true] secondAnalog.conn.nbPins)[0]? = some 0 := by
    decide +kernel
  rw [List.getElem?_eq_getElem hlen] at hfirst
  rw [Option.some.inj hfirst] at hs
  have hmask : (readValueMask (deviceLink hostBuild) secondAnalog.conn secondAnalog [true, true]
      pinTypeDigital).map (fun r => r.out[0]?) = some (some 1) := by decide +kernel
  have hsingle : (genericRead (deviceLink hostBuild) secondAnalog.conn secondAnalog
      (BitVec.ofNat 8 0) pinTypeDigital).map (fun s => s.out) = some 0 := by decide +kernel
  rw [hr, Option.map_some, hout] at hmask
  rw [hs, Option.map_some] at hsingle
  rw [Option.some.inj hsingle] at hmask
  revert hmask
  decide

/-- The same pins as `ANALOG16` pins. -/
theorem readsAgree_secondAnalog :
    ReadsAgree hostBuild secondAnalog.conn secondAnalog [true, true] pinTypeAnalog16 :=
  (readsAgree_iff hostBuild secondAnalog.conn secondAnalog [true, true] pinTypeAnalog16
    ⟨rfl, by decide, rfl, ⟨rfl, rfl, fun f hf => by cases hf; rfl⟩⟩ (by decide) (by decide)).mpr
    (Or.inl (by decide))

/-! ## Writing -/

section Write

variable {c : Connection} {d : Device} {mask : Mask} {type : BitVec 8}
  {values : List (BitVec 16)}

/-- One single-pin write per pin used, in ascending order. -/
def genericWriteEach (b : Build) (c : Connection) (d : Device) (mask : Mask) (type : BitVec 8)
    (values : List (BitVec 16)) : Option (Connection × Device) :=
  forEachPin
    (fun c d pin i => genericWrite (deviceLink b) c d (BitVec.ofNat 8 pin) type (values.getD i 0)
      (getTypeBitsNb type))
    (usedPins mask c.nbPins) c d

/-- A masked write leaves the device with the pins that single writes would leave it with. -/
def WritesAgree (b : Build) (c : Connection) (d : Device) (mask : Mask) (type : BitVec 8)
    (values : List (BitVec 16)) : Prop :=
  ∃ r c' d', writeValueMask (deviceLink b) c d mask type values = some r ∧
    genericWriteEach b c d mask type values = some (c', d') ∧
    r.world.conn.pinsState = d'.conn.pinsState

theorem genericWriteEach_eq (b : Build) (h : Paired c d) (htype : type.toNat ≤ 4)
    (mask : Mask) (values : List (BitVec 16)) :
    ∃ c' d', genericWriteEach b c d mask type values = some (c', d') ∧
      d'.conn.pinsState = scatter
        (fun i _ =>
          { pinsType := type
            pinsVal := BitVec.ofNat 16 ((values.getD i 0).toNat % 2 ^ getTypeBitsNb type) })
        (usedPins mask c.nbPins) d.conn.pinsState := by
  have hloop : ∃ c' d', genericWriteEach b c d mask type values = some (c', d') ∧ _ ∧ _ :=
    forEachPin_eq _ (fun i pin => { pin with pinsVal := values.getD i 0 })
      (fun i _ =>
        { pinsType := type
          pinsVal := BitVec.ofNat 16 ((values.getD i 0).toNat % 2 ^ getTypeBitsNb type) })
      (fun p hp c' d' hc' hd' => ?_) h.driver h.device_length
  · rcases hloop with ⟨c', d', hrun, _, hdevice⟩
    exact ⟨c', d', hrun, hdevice⟩
  · -- one turn of the loop is a single write to its pin
    have hpin : p.1 < c.nbPins := usedPins_lt (List.fst_mem_of_mem_zipIdx hp)
    have hbyte := toNat_ofNat_pin (Nat.lt_trans hpin c.nbPins_lt)
    refine ⟨_, genericWrite_device b c' d' (by omega) rfl (getTypeBitsNb_pos htype)
      (by rw [hbyte, hd']; exact hpin) (by rw [hbyte, hc']; exact hpin) _, ?_, ?_⟩
    · rw [hbyte]
    · rw [hbyte]
      rfl

/-- The device decodes at least the pins that the driver has named. -/
theorem mem_decoded {nbPins pin : Nat} (width : Nat) (values : List (BitVec 16))
    (h : pin ∈ usedPins mask nbPins) :
    pin ∈ usedPins (maskOf (bitAt (maskFieldsData nbPins width mask values)) 0 nbPins) nbPins := by
  rcases mem_usedPins.mp h with ⟨hlt, hused⟩
  refine mem_usedPins.mpr ⟨hlt, ?_⟩
  have hin : pin < 8 * ((nbPins + width * values.length - 1) / 8 + 1) := by omega
  rw [pinUsed_maskOf hlt, Nat.zero_add, bitAt_maskFieldsData, decide_eq_true hin]
  simp [maskBits, hlt, hused]

/-- A masked write agrees with single writes exactly when the pins have the type already and all
values are small enough for the `uint8_t` that they go through. -/
theorem writesAgree_iff (b : Build) (c : Connection) (d : Device) (mask : Mask) (type : BitVec 8)
    (values : List (BitVec 16)) (hroom : b.embedded = false ∨ c.nbPins ≤ 16) (h : Paired c d)
    (hlen : c.nbPins ≤ mask.length) (htype : type.toNat ≤ 4)
    (hcount : values.length = (usedPins mask c.nbPins).length)
    (hvalues : ∀ v ∈ values, v.toNat < 2 ^ getTypeBitsNb type) :
    WritesAgree b c d mask type values ↔
      (∀ pin ∈ usedPins mask c.nbPins, (d.conn.pinAt pin).pinsType = type) ∧
        ∀ v ∈ values, v.toNat < 2 ^ 8 := by
  have hbits := getTypeBitsNb_pos htype
  have hwidth := getTypeBitsNb_le type
  have hnd := nodup_usedPins mask c.nbPins
  have hmask := writeValueMask_device hroom h hlen (show type.toNat < 8 by omega) hbits hcount
  rcases genericWriteEach_eq b h htype mask values with
    ⟨c', d', heach, hdevice⟩
  have hmod : ∀ v ∈ values, BitVec.ofNat 16 (v.toNat % 2 ^ getTypeBitsNb type) = v := by
    intro v hv
    rw [Nat.mod_eq_of_lt (hvalues v hv), BitVec.ofNat_toNat, BitVec.setWidth_eq]
  constructor
  · rintro ⟨r, c'', d'', hr, heach', hsame⟩
    rw [heach] at heach'
    cases heach'
    rw [hmask] at hr
    by_cases hfit : Fits c.nbPins (getTypeBitsNb type)
        (usedPins (maskOf (bitAt (maskFieldsData c.nbPins (getTypeBitsNb type) mask values)) 0
          c.nbPins) c.nbPins).length
        (maskFieldsData c.nbPins (getTypeBitsNb type) mask values).length
    · rw [if_pos hfit] at hr
      cases hr
      rw [hdevice] at hsame
      have hpins : ∀ i (hi : i < (usedPins mask c.nbPins).length),
          (d.conn.pinAt (usedPins mask c.nbPins)[i]).pinsType = type ∧
            (values.getD i 0).toNat < 2 ^ 8 := by
        intro i hi
        have hmem := List.getElem_mem hi
        -- the device has given the pin some byte, and no type
        rcases List.getElem_of_mem (mem_decoded (getTypeBitsNb type) values
          hmem) with ⟨n, hn, hpin⟩
        have hboth := congrArg (fun xs => ({ d.conn with pinsState := xs } : Connection).pinAt
          (usedPins mask c.nbPins)[i]) hsame
        have hin : ∀ (m : Mask), ∀ pin ∈ usedPins m c.nbPins, pin < d.conn.pinsState.length :=
          fun m pin hpin => by rw [h.device_length]; exact usedPins_lt hpin
        dsimp only [Device.conn_put] at hboth
        rw [pinAt_scatter hnd (hin mask) _ hi, ← hpin,
          pinAt_scatter (nodup_usedPins _ c.nbPins) (hin _) _ hn, hpin] at hboth
        have hi' : i < values.length := by rw [hcount]; exact hi
        have htype := congrArg PinState.pinsType hboth
        have hval := congrArg (fun pin => pin.pinsVal.toNat) hboth
        dsimp only at htype hval
        refine ⟨htype, ?_⟩
        rw [List.getD_eq_getElem _ _ hi', hmod values[i] (List.getElem_mem hi')] at hval
        rw [List.getD_eq_getElem _ _ hi', ← hval, BitVec.toNat_setWidth, BitVec.toNat_setWidth]
        omega
      refine ⟨fun pin hpin => ?_, fun v hv => ?_⟩
      · rcases List.getElem_of_mem hpin with ⟨i, hi, rfl⟩
        exact (hpins i hi).1
      · rcases List.getElem_of_mem hv with ⟨i, hi, rfl⟩
        have hlt := (hpins i (by rw [← hcount]; exact hi)).2
        rwa [List.getD_eq_getElem _ _ hi] at hlt
    · rw [if_neg hfit] at hr
      cases hr
  · rintro ⟨htypes, hsmall⟩
    have htight : AllTight c.nbPins (getTypeBitsNb type) values := by
      intro i hi
      have hlt := hsmall values[i] (List.getElem_mem hi)
      exact Or.inr ⟨hvalues values[i] (List.getElem_mem hi), by omega⟩
    have hdecoded := usedPins_maskFieldsData (m := mask) h.pos htight
    have hfit : Fits c.nbPins (getTypeBitsNb type) (usedPins mask c.nbPins).length
        (maskFieldsData c.nbPins (getTypeBitsNb type) mask values).length :=
      fits_of_le hbits (by rw [length_maskFieldsData, ← hcount]; omega)
    simp only [hdecoded] at hmask
    rw [if_pos hfit] at hmask
    refine ⟨_, c', d', hmask, heach, ?_⟩
    rw [hdevice]
    dsimp only [Device.conn_put]
    refine (scatter_eq_scatter_iff hnd _).mpr fun i hi => ?_
    have hi' : i < values.length := by rw [hcount]; exact hi
    have hpin : (usedPins mask c.nbPins)[i] < d.conn.pinsState.length := by
      rw [h.device_length]
      exact usedPins_lt (List.getElem_mem hi)
    have hlow := hsmall values[i] (List.getElem_mem hi')
    have hval : (((fieldAt (bitAt (maskFieldsData c.nbPins (getTypeBitsNb type) mask values))
        c.nbPins (getTypeBitsNb type) i).setWidth 8).setWidth 16) = values[i] := by
      rw [fieldAt_maskFieldsData hi', htight.fieldAt_low hwidth hi'
        (hvalues values[i] (List.getElem_mem hi'))]
      refine BitVec.eq_of_toNat_eq ?_
      rw [BitVec.toNat_setWidth, BitVec.toNat_setWidth]
      omega
    have hvalue := hmod values[i] (List.getElem_mem hi')
    rw [Connection.getElem?_pinsState hpin, Option.map_some, Option.map_some, hval,
      htypes _ (List.getElem_mem hi), List.getD_eq_getElem _ _ hi', hvalue]

end Write

/-- Two fresh pins, written together as `ANALOG8` pins, are still digital. -/
theorem not_writesAgree_fresh :
    ¬ WritesAgree hostBuild (initialDevice hostBuild 2).conn (initialDevice hostBuild 2)
      [true, true] pinTypeAnalog8 [5, 6] := by
  rintro ⟨r, c', d', hr, heach, hsame⟩
  have hmask : (writeValueMask (deviceLink hostBuild) (initialDevice hostBuild 2).conn
      (initialDevice hostBuild 2) [true, true] pinTypeAnalog8 [5, 6]).map
        (fun r => r.world.conn.pinsState) =
      some [⟨pinTypeDigital, 5⟩, ⟨pinTypeDigital, 6⟩] := by decide +kernel
  have hsingle : (genericWriteEach hostBuild (initialDevice hostBuild 2).conn
      (initialDevice hostBuild 2) [true, true] pinTypeAnalog8 [5, 6]).map
        (fun st => st.2.conn.pinsState) =
      some [⟨pinTypeAnalog8, 5⟩, ⟨pinTypeAnalog8, 6⟩] := by decide +kernel
  rw [hr, Option.map_some, hsame] at hmask
  rw [heach, Option.map_some] at hsingle
  rw [Option.some.inj hsingle] at hmask
  revert hmask
  decide

/-- Two fresh pins, written together as the digital pins that they are. -/
theorem writesAgree_fresh :
    WritesAgree hostBuild (initialDevice hostBuild 2).conn (initialDevice hostBuild 2) [true, true]
      pinTypeDigital [1, 0] := by
  refine (writesAgree_iff hostBuild (initialDevice hostBuild 2).conn (initialDevice hostBuild 2)
    [true, true] pinTypeDigital [1, 0] (.inl rfl) (initialDevice_paired hostBuild (by decide))
    (by decide +kernel) (by decide) (by decide +kernel)
    (by simp [getTypeBitsNb, pinTypeDigital])).mpr ⟨fun pin hpin => ?_, by simp⟩
  have hpinAt : (initialDevice hostBuild 2).conn.pinAt pin = _ :=
    initialDevice_pinAt hostBuild (usedPins_lt hpin)
  rw [hpinAt]

end PinProtocol
