import PinProtocol.Firmware.Invariant
import PinProtocol.System.PinOperations

/-!
# Queries — what the device makes of a call that only asks

`set_packet_header` adds the parameter to the command without cutting it to its four bits, so a
type from 8 on changes the command that the device finds: a masked read can arrive as a masked
write.  `query_keeps_iff` says which queries leave the device as it is.
-/

namespace PinProtocol

open Bits Control

/-! ## Packets that leave the device as it is -/

/-- The device treats the packet, and its pins, capabilities and failsafe are what they were. -/
def Keeps (b : Build) (d : Device) (p : Packet) : Prop :=
  ∃ d' rs, dispatch b d p = some (d', rs) ∧ d'.conn = d.conn

section Keeps

variable {b : Build} {d : Device} {p : Packet}

theorem Keeps.accepts (hd : d.Ready b) (h : Keeps b d p) : Accepts b d p := by
  obtain ⟨d', rs, hrun, _⟩ := h
  refine (dispatch_isSome_iff hd).mp ?_
  rw [hrun]
  rfl

/-- What is asked of a packet, command by command. -/
theorem accepts_iff :
    Accepts b d p ↔
      (p.command.toNat = 3 → AcceptsRead d.conn p) ∧
      (p.command.toNat = 4 → AcceptsWrite d.conn p) ∧
      (p.command.toNat = 5 → AcceptsGetType d.conn p) ∧
      (p.command.toNat = 6 → AcceptsSetType d.conn p) ∧
      (p.command.toNat = 7 → b.disableFailsafe = true ∨ AcceptsGetFailsafe d.conn p) ∧
      (p.command.toNat = 8 → b.disableFailsafe = true ∨ AcceptsSetFailsafe d.conn p) := by
  unfold Accepts
  split <;> simp_all

/-- A packet of another command than the three that write is kept if it is accepted. -/
theorem keeps_iff_accepts (hd : d.Ready b) (hwrite : p.command.toNat ≠ 4)
    (hset : p.command.toNat ≠ 6) (hsafe : p.command.toNat = 8 → b.disableFailsafe = true) :
    Keeps b d p ↔ Accepts b d p := by
  refine ⟨fun h => h.accepts hd, fun hacc => ?_⟩
  obtain ⟨⟨d', rs⟩, hrun⟩ := Option.isSome_iff_exists.mp ((dispatch_isSome_iff hd).mpr hacc)
  refine ⟨d', rs, hrun, ?_⟩
  rcases dispatch_serves hd hrun with ⟨r, hserves, _⟩
  cases hserves with
  | getCaps | ping | readPin | readMask | getTypePin | getTypeMask | getFailsafePin
  | getFailsafeMask | reset | noFailsafe | unknown => rfl
  | writePin hcmd | writeMask hcmd => exact absurd (congrArg BitVec.toNat hcmd) hwrite
  | setTypePin hcmd | setTypeMask hcmd => exact absurd (congrArg BitVec.toNat hcmd) hset
  | setFailsafePin hcmd hb | setFailsafeMask hcmd hb =>
      rw [hsafe (congrArg BitVec.toNat hcmd)] at hb
      cases hb

/-- A packet that updates a list of pins is kept if it is treated and updates them to what they
are. -/
theorem keeps_scatter_iff {P : Prop} [Decidable P] {upd : Nat → PinState → PinState}
    {is : List Nat} (hnd : is.Nodup) (his : ∀ i ∈ is, i < d.conn.pinsState.length)
    {replies : List Buffer}
    (hrun : dispatch b d p =
      (if P then some { d.conn with pinsState := scatter upd is d.conn.pinsState }
        else none).map fun conn => (d.put conn, replies)) :
    Keeps b d p ↔
      P ∧ ∀ n (hn : n < is.length), upd n (d.conn.pinAt is[n]) = d.conn.pinAt is[n] := by
  rw [Keeps, hrun]
  by_cases hacc : P
  · rw [if_pos hacc, Option.map_some]
    have hpins : ∀ n (hn : n < is.length),
        d.conn.pinsState[is[n]]? = some (d.conn.pinAt is[n]) := fun n hn =>
      Connection.getElem?_pinsState (his _ (List.getElem_mem hn))
    -- nothing changes if and only if no pin of the list does
    have hsame : scatter upd is d.conn.pinsState = d.conn.pinsState ↔ _ :=
      scatter_eq_self_iff hnd d.conn.pinsState
    refine ⟨fun h => ⟨hacc, fun n hn => ?_⟩, fun h => ⟨_, _, rfl, ?_⟩⟩
    · obtain ⟨d', rs, hrun', hconn⟩ := h
      cases hrun'
      have hn' := hsame.mp (congrArg Connection.pinsState hconn) n hn
      rw [hpins n hn] at hn'
      exact Option.some.inj hn'
    · refine congrArg (fun pins => { d.conn with pinsState := pins }) (hsame.mpr fun n hn => ?_)
      rw [hpins n hn, Option.map_some, h.2 n hn]
  · rw [if_neg hacc, Option.map_none]
    refine iff_of_false ?_ fun h => hacc h.1
    rintro ⟨d', rs, hrun', _⟩
    cases hrun'

end Keeps

/-! ## What the device finds in a header -/

/-- The command that a request of `cmdRead` arrives with: from `type` on, bit 3 and the bits above
it are added to the command. -/
def arrivingCommand (type : BitVec 8) : Nat :=
  (3 + type.toNat % 128 / 8) % 16

section Header

variable (type kind : BitVec 8) (size : Nat) (data : Buffer)

theorem command_readRequest (hkind : kind.toNat < 2) :
    (delivered (setPacketHeader cmdRead (typeParam type kind) size data)).command.toNat =
      arrivingCommand type := by
  have hread : cmdRead.toNat = 3 := rfl
  rw [Packet.command, toNat_headerCmd, header_delivered, setPacketHeader, toNat_header, hread,
    arrivingCommand]
  omega

theorem toNat_lowBits : (type &&& 7#8).toNat = type.toNat % 8 := by
  have h := Nat.and_two_pow_sub_one_eq_mod type.toNat 3
  simpa using h

theorem type_readRequest (hkind : kind.toNat < 2) :
    (delivered (setPacketHeader cmdRead (typeParam type kind) size data)).type =
      type &&& 7#8 := by
  have hread : cmdRead.toNat = 3 := rfl
  refine BitVec.eq_of_toNat_eq ?_
  rw [Packet.type, toNat_headerType, header_delivered, setPacketHeader, toNat_header, hread,
    toNat_lowBits]
  omega

end Header

/-- The types with value bits are those that the protocol names. -/
theorem getTypeBitsNb_pos_iff {type : BitVec 8} (h : type.toNat < 8) :
    0 < getTypeBitsNb type ↔ type.toNat ≤ 4 := by
  refine ⟨fun hpos => ?_, getTypeBitsNb_pos⟩
  by_contra hlarge
  have hcases : type.toNat = 5 ∨ type.toNat = 6 ∨ type.toNat = 7 := by omega
  rcases hcases with h | h | h <;> simp [getTypeBitsNb, h] at hpos

/-! ## Queries -/

/-- The operations of the driver that ask the device for something. -/
inductive Query
  | getCaps
  | ping
  | genericRead (pinId pinMode : BitVec 8)
  | readValueMask (mask : Mask) (type : BitVec 8)
  | getType (pinId : BitVec 8)
  | getTypeMask (mask : Mask)
  | getFailsafe (pinId : BitVec 8)
  | getFailsafeMask (mask : Mask)

/-- The request that the driver sends. -/
def Query.request (c : Connection) : Query → Option Packet
  | .getCaps => some getCapsRequest
  | .ping => pingRequest c
  | .genericRead pinId pinMode => genericReadRequest pinId pinMode
  | .readValueMask mask type => readValueMaskRequest c mask type
  | .getType pinId => getTypeRequest pinId
  | .getTypeMask mask => getTypeMaskRequest c mask
  | .getFailsafe pinId => getFailsafeRequest pinId
  | .getFailsafeMask mask => getFailsafeMaskRequest c mask

/-- Pin numbers are those of pins, masks have one entry per pin. -/
def Query.InRange (nbPins : Nat) : Query → Prop
  | .getCaps | .ping => True
  | .genericRead pinId _ | .getType pinId | .getFailsafe pinId => pinId.toNat < nbPins
  | .readValueMask mask _ | .getTypeMask mask | .getFailsafeMask mask => mask.length = nbPins

/-- A read of one pin: the type has a width if the command is still that of a read, and does not
turn it into one of those that write. -/
def ReadHarmless (b : Build) (mode : BitVec 8) : Prop :=
  (arrivingCommand mode = 3 → mode.toNat % 8 ≤ 4) ∧ arrivingCommand mode ≠ 4 ∧
    arrivingCommand mode ≠ 6 ∧ (arrivingCommand mode = 8 → b.disableFailsafe = true)

/-- A read of a set of pins.  Where it arrives as a masked write, the bits behind the mask are the
values, and all of them are zero. -/
def ReadMaskHarmless (b : Build) (c : Connection) (mask : Mask) (type : BitVec 8) : Prop :=
  let used := usedPins mask c.nbPins
  let room := (c.nbPins - 1) / 8 + 1
  (arrivingCommand type = 3 → used = [] ∨ type.toNat % 8 ≤ 4) ∧
    (arrivingCommand type = 4 →
      Fits c.nbPins (getTypeBitsNb (type &&& 7#8)) used.length room ∧
        ∀ pin ∈ used, (c.pinAt pin).pinsVal = 0) ∧
    (arrivingCommand type = 6 →
      Fits c.nbPins 3 used.length room ∧ ∀ pin ∈ used, (c.pinAt pin).pinsType = 0) ∧
    (arrivingCommand type = 7 →
      b.disableFailsafe = true ∨ 16 + used.length + failsafeBits c used ≤ 2016) ∧
    (arrivingCommand type = 8 → b.disableFailsafe = true)

/-- The query of the failsafes of a set of pins: the bytes that the driver sends have room for the
mask, and the reply for the entries. -/
def GetFailsafeMaskHarmless (b : Build) (c : Connection) (mask : Mask) : Prop :=
  let used := usedPins mask c.nbPins
  (used = [] → b.disableFailsafe = true ∨ c.nbPins = 0) ∧
    (used ≠ [] → c.nbPins ≤ 8 * ((3 * used.length - 1) / 8 + 1) ∧
      (b.disableFailsafe = true ∨ 16 + used.length + failsafeBits c used ≤ 2016))

/-- The queries that leave a device with the connection `c` as it is. -/
def Query.Harmless (b : Build) (c : Connection) : Query → Prop
  | .getCaps | .ping | .getType _ | .getFailsafe _ => True
  | .genericRead _ pinMode => ReadHarmless b pinMode
  | .readValueMask mask type => ReadMaskHarmless b c mask type
  | .getTypeMask _ => 2 ≤ c.nbPins ∧ c.nbPins % 8 ≠ 1
  | .getFailsafeMask mask => GetFailsafeMaskHarmless b c mask

section Packets

variable {b : Build} {c : Connection} {d : Device}

/-- A pin number that is one of a pin is found in the data. -/
theorem namesPin_request (cmdNo param : BitVec 8) {pin : BitVec 8}
    (hpin : pin.toNat < c.nbPins) :
    NamesPin c (delivered (setPacketHeader cmdNo param 1 [pin])) 0 :=
  ⟨Nat.one_pos, hpin⟩

/-- A request that names one pin and nothing else is accepted by the commands that ask. -/
theorem genericRead_keeps_iff (hd : d.Ready b) {pin : BitVec 8} (hpin : pin.toNat < d.conn.nbPins)
    (mode : BitVec 8) :
    Keeps b d (delivered (setPacketHeader cmdRead (typeParam mode usePinId) 1 [pin])) ↔
      ReadHarmless b mode := by
  have hcommand := command_readRequest mode usePinId 1 [pin] (by decide)
  have htype := type_readRequest mode usePinId 1 [pin] (by decide)
  have hkind := usesMask_pinRequest cmdRead mode 1 [pin]
  have hdata : (delivered (setPacketHeader cmdRead (typeParam mode usePinId) 1 [pin])).data =
      [pin] := rfl
  obtain ⟨p, hp⟩ :
      ∃ p, delivered (setPacketHeader cmdRead (typeParam mode usePinId) 1 [pin]) = p := ⟨_, rfl⟩
  have hnames := namesPin_request cmdRead (typeParam mode usePinId) hpin
  rw [hp] at hcommand htype hkind hdata hnames ⊢
  have hshort : p.data.length = 1 := by rw [hdata]; rfl
  have hnames2 : ¬ NamesPin d.conn p 2 := by
    intro h
    have := h.1
    omega
  have hwidth : 0 < p.width ↔ mode.toNat % 8 ≤ 4 := by
    rw [Packet.width, htype, getTypeBitsNb_pos_iff (by rw [toNat_lowBits]; omega), toNat_lowBits]
  have haccepts := accepts_iff (b := b) (d := d) (p := p)
  -- one byte of data is too short for a write of any kind
  have hwrite : ¬ 8 + max p.width 1 ≤ 8 * p.data.length := by omega
  have hset : ¬ 8 + 3 ≤ 8 * p.data.length := by omega
  simp only [hcommand, AcceptsRead, AcceptsWrite, AcceptsGetType, AcceptsSetType,
    AcceptsGetFailsafe, AcceptsSetFailsafe, hkind, Bool.false_eq_true, if_false, hnames, hwidth,
    hwrite, hset, hnames2, true_and, and_false, false_and, or_true, or_false, implies_true,
    imp_false] at haccepts
  rw [ReadHarmless]
  constructor
  · exact fun h => haccepts.mp (h.accepts hd)
  · intro h
    refine (keeps_iff_accepts hd ?_ ?_ ?_).mpr (haccepts.mpr h)
    · rw [hcommand]
      exact h.2.1
    · rw [hcommand]
      exact h.2.2.1
    · rw [hcommand]
      exact h.2.2.2

/-- Behind the mask of a request there is nothing but zeros. -/
theorem fieldAt_maskData (nbPins width i : Nat) (mask : Mask) :
    fieldAt (bitAt (maskData nbPins mask)) nbPins width i = 0#16 := by
  have hzero : fieldRead (bitAt (maskData nbPins mask)) (nbPins + width * i) width = 0 := by
    refine fieldRead_eq_zero fun r _ => ?_
    have hout : ¬ nbPins + width * i + r < nbPins := by omega
    rw [bitAt_maskData, maskBits, decide_eq_false hout, Bool.false_and]
  rw [fieldAt, hzero]

/-- A request that holds a mask and nothing else.  Arriving as a write, it writes the zeros behind
the mask, as far as they reach. -/
theorem readValueMask_keeps_iff (hd : d.Ready b) (mask : Mask) (type : BitVec 8) :
    Keeps b d (delivered (setPacketHeader cmdRead (typeParam type useMask)
        ((d.conn.nbPins - 1) / 8 + 1) (maskData d.conn.nbPins mask))) ↔
      ReadMaskHarmless b d.conn mask type := by
  have hwf := hd.wellFormed
  have hbound := d.conn.nbPins_lt
  have hcommand := command_readRequest type useMask ((d.conn.nbPins - 1) / 8 + 1)
    (maskData d.conn.nbPins mask) (by decide)
  have htype := type_readRequest type useMask ((d.conn.nbPins - 1) / 8 + 1)
    (maskData d.conn.nbPins mask) (by decide)
  have hkind := usesMask_maskRequest cmdRead type ((d.conn.nbPins - 1) / 8 + 1)
    (maskData d.conn.nbPins mask)
  have hdata := data_request cmdRead (typeParam type useMask)
    (length_maskData d.conn.nbPins mask).symm (by omega)
  obtain ⟨p, hp⟩ : ∃ p, delivered (setPacketHeader cmdRead (typeParam type useMask)
      ((d.conn.nbPins - 1) / 8 + 1) (maskData d.conn.nbPins mask)) = p := ⟨_, rfl⟩
  rw [hp] at hcommand htype hkind hdata ⊢
  have hlen : p.data.length = (d.conn.nbPins - 1) / 8 + 1 := by rw [hdata, length_maskData]
  have hholds : HoldsMask d.conn p 0 := Or.inr (by rw [hlen]; omega)
  have hused : maskedPins d.conn p 0 = usedPins mask d.conn.nbPins := by
    rw [maskedPins, hdata, usedPins_maskData]
  have hwidth : p.width = getTypeBitsNb (type &&& 7#8) := by rw [Packet.width, htype]
  have hzero : ∀ width i, fieldAt (bitAt p.data) d.conn.nbPins width i = 0#16 := by
    intro width i
    rw [hdata]
    exact fieldAt_maskData _ _ _ _
  have hnd := nodup_usedPins mask d.conn.nbPins
  have hpins : ∀ pin ∈ usedPins mask d.conn.nbPins, pin < d.conn.pinsState.length :=
    fun pin hpin => by
      rw [hwf.pinsState]
      exact usedPins_lt hpin
  by_cases hwrite : arrivingCommand type = 4
  · have hcmd : p.header >>> 4 = cmdWrite :=
      BitVec.eq_of_toNat_eq (hcommand.trans hwrite)
    have htreat := treatWrite_mask_eq hwf hkind
    rw [hused] at htreat
    have hkeeps := keeps_scatter_iff (b := b) hnd hpins
      ((dispatch_write hcmd).trans (congrArg (Option.map _) htreat))
    simp only [hzero, hwidth, hlen] at hkeeps
    rw [hkeeps, ReadMaskHarmless]
    have hval : ∀ pin : PinState,
        { pin with pinsVal := ((0#16).setWidth 8).setWidth 16 } = pin ↔ pin.pinsVal = 0 := by
      intro pin
      refine ⟨fun h => (congrArg PinState.pinsVal h).symm, fun h => ?_⟩
      cases pin
      cases h
      rfl
    have hall := (List.forall_mem_iff_forall_getElem (l := usedPins mask d.conn.nbPins)
      (P := fun pin => (d.conn.pinAt pin).pinsVal = 0)).symm
    simp only [hval, hwrite, hholds, true_and, hall]
    simp
  by_cases hset : arrivingCommand type = 6
  · have hcmd : p.header >>> 4 = cmdSetType := BitVec.eq_of_toNat_eq (hcommand.trans hset)
    have htreat := treatSetType_mask_eq hwf hkind
    rw [hused] at htreat
    have hkeeps := keeps_scatter_iff (b := b) hnd hpins
      ((dispatch_setType hcmd).trans (congrArg (Option.map _) htreat))
    simp only [hzero, hlen] at hkeeps
    rw [hkeeps, ReadMaskHarmless]
    have htypes : ∀ pin : PinState,
        { pin with pinsType := (0#16).setWidth 8 } = pin ↔ pin.pinsType = 0 := by
      intro pin
      refine ⟨fun h => (congrArg PinState.pinsType h).symm, fun h => ?_⟩
      cases pin
      cases h
      rfl
    have hall := (List.forall_mem_iff_forall_getElem (l := usedPins mask d.conn.nbPins)
      (P := fun pin => (d.conn.pinAt pin).pinsType = 0)).symm
    simp only [htypes, hset, hholds, true_and, hall]
    simp
  -- all the other commands ask, or do not find the timeout that they are looking for
  have hlow : 0 < p.width ↔ type.toNat % 8 ≤ 4 := by
    rw [hwidth, getTypeBitsNb_pos_iff (by rw [toNat_lowBits]; omega), toNat_lowBits]
  have hsafe : ¬ (2 ≤ (d.conn.nbPins - 1) / 8 + 1 ∧ HoldsMask d.conn p 16 ∧
      Fits (16 + d.conn.nbPins) p.width (maskedPins d.conn p 16).length
        ((d.conn.nbPins - 1) / 8 + 1)) := by
    rintro ⟨hroom, hmask, _⟩
    rcases hmask with hnone | hfit
    · omega
    · rw [hlen] at hfit
      omega
  have haccepts := accepts_iff (b := b) (d := d) (p := p)
  simp only [hcommand, AcceptsRead, AcceptsGetType, AcceptsGetFailsafe, AcceptsSetFailsafe, hkind,
    if_true, hholds, hused, hlow, hlen, hsafe, hwrite, hset, true_and, or_false, implies_true,
    false_implies] at haccepts
  have hharmless : ReadMaskHarmless b d.conn mask type ↔ Accepts b d p := by
    rw [haccepts, ReadMaskHarmless]
    simp only [hwrite, hset, false_implies, true_and]
  rw [hharmless]
  refine ⟨fun h => h.accepts hd, fun h => (keeps_iff_accepts hd ?_ ?_ ?_).mpr h⟩
  · rw [hcommand]
    exact hwrite
  · rw [hcommand]
    exact hset
  · rw [hcommand]
    exact (haccepts.mp h).2.2

/-! ## The other requests -/

/-- A header that is made without a type arrives as it was made. -/
theorem command_plain {cmdNo kind : BitVec 8} (hcmd : cmdNo.toNat < 16) (hkind : kind.toNat < 2)
    (size : Nat) (data : Buffer) :
    (delivered (setPacketHeader cmdNo kind size data)).command = cmdNo :=
  headerCmd_plain cmdNo kind hcmd hkind

theorem usesMask_plainPin (cmdNo : BitVec 8) (size : Nat) (data : Buffer) :
    usesMask (delivered (setPacketHeader cmdNo usePinId size data)) = false := by
  have h := usesMask_pinRequest cmdNo 0#8 size data
  rw [typeParam_zero] at h
  exact h

theorem usesMask_plainMask (cmdNo : BitVec 8) (size : Nat) (data : Buffer) :
    usesMask (delivered (setPacketHeader cmdNo useMask size data)) = true := by
  have h := usesMask_maskRequest cmdNo 0#8 size data
  rw [typeParam_zero] at h
  exact h

/-- The commands below that of a read ask for nothing that the packet could lack. -/
theorem keeps_of_low (hd : d.Ready b) {p : Packet} (hlow : p.command.toNat < 3) : Keeps b d p := by
  refine (keeps_iff_accepts hd (by omega) (by omega) fun h => ?_).mpr (accepts_iff.mpr ?_)
  · omega
  · refine ⟨?_, ?_, ?_, ?_, ?_, ?_⟩ <;> intro h <;> omega

/-- What is asked of the commands for a type and a failsafe. -/
theorem getType_keeps_iff (hd : d.Ready b) {p : Packet} (hcmd : p.command = cmdGetType) :
    Keeps b d p ↔ AcceptsGetType d.conn p := by
  have hcode : p.command.toNat = 5 := congrArg BitVec.toNat hcmd
  have haccepts := accepts_iff (b := b) (d := d) (p := p)
  simp only [hcode, Nat.reduceEqDiff, false_implies, true_implies, true_and, and_true]
    at haccepts
  rw [keeps_iff_accepts hd (by omega) (by omega) (fun h => absurd (hcode.symm.trans h) (by decide)),
    haccepts]

theorem getFailsafe_keeps_iff (hd : d.Ready b) {p : Packet} (hcmd : p.command = cmdGetFailsafe) :
    Keeps b d p ↔ b.disableFailsafe = true ∨ AcceptsGetFailsafe d.conn p := by
  have hcode : p.command.toNat = 7 := congrArg BitVec.toNat hcmd
  have haccepts := accepts_iff (b := b) (d := d) (p := p)
  simp only [hcode, Nat.reduceEqDiff, false_implies, true_implies, true_and, and_true]
    at haccepts
  rw [keeps_iff_accepts hd (by omega) (by omega) (fun h => absurd (hcode.symm.trans h) (by decide)),
    haccepts]

theorem getTypeMask_packet_keeps_iff (hd : d.Ready b) (size : Nat) (data : Buffer) :
    Keeps b d (delivered (setPacketHeader cmdGetType useMask size data)) ↔
      HoldsMask d.conn (delivered (setPacketHeader cmdGetType useMask size data)) 0 := by
  rw [getType_keeps_iff hd (command_plain (by decide) (by decide) size data), AcceptsGetType,
    if_pos (usesMask_plainMask cmdGetType size data)]

theorem getFailsafeMask_packet_keeps_iff (hd : d.Ready b) (size : Nat) (data : Buffer) {p : Packet}
    (hp : delivered (setPacketHeader cmdGetFailsafe useMask size data) = p) :
    Keeps b d p ↔
      b.disableFailsafe = true ∨ HoldsMask d.conn p 0 ∧
        16 + (maskedPins d.conn p 0).length + failsafeBits d.conn (maskedPins d.conn p 0) ≤
          2016 := by
  cases hp
  rw [getFailsafe_keeps_iff hd (command_plain (by decide) (by decide) size data),
    AcceptsGetFailsafe, if_pos (usesMask_plainMask cmdGetFailsafe size data)]

theorem getType_pin_keeps (hd : d.Ready b) {pin : BitVec 8} (hpin : pin.toNat < d.conn.nbPins) :
    Keeps b d (delivered (setPacketHeader cmdGetType usePinId 1 [pin])) := by
  refine (getType_keeps_iff hd (command_plain (by decide) (by decide) 1 [pin])).mpr ?_
  rw [AcceptsGetType, usesMask_plainPin]
  exact namesPin_request cmdGetType usePinId hpin

theorem getFailsafe_pin_keeps (hd : d.Ready b) {pin : BitVec 8}
    (hpin : pin.toNat < d.conn.nbPins) :
    Keeps b d (delivered (setPacketHeader cmdGetFailsafe usePinId 1 [pin])) := by
  refine (getFailsafe_keeps_iff hd (command_plain (by decide) (by decide) 1 [pin])).mpr
    (Or.inr ?_)
  rw [AcceptsGetFailsafe, usesMask_plainPin]
  exact namesPin_request cmdGetFailsafe usePinId hpin

end Packets

section MaskQueries

variable {b : Build} {c : Connection} {d : Device} {mask : Mask}

/-- The mask of a type query leaves out the last pin; whether it is read as a whole depends on
whether that pin has a byte of its own. -/
theorem getTypeMask_keeps_iff (hd : d.Ready b) (hsame : c.nbPins = d.conn.nbPins)
    (hlen : mask.length = c.nbPins) :
    (∃ p, getTypeMaskRequest c mask = some p ∧ Keeps b d (delivered p)) ↔
      2 ≤ d.conn.nbPins ∧ d.conn.nbPins % 8 ≠ 1 := by
  have hbound := c.nbPins_lt
  -- one pin: no data; no pin: not even a request
  have hfew : c.nbPins = 0 ∨ c.nbPins = 1 ∨ 2 ≤ c.nbPins := by omega
  rcases hfew with hnone | hone | htwo
  · refine iff_of_false ?_ (by omega)
    rintro ⟨p, hp, _⟩
    have hempty : mask = [] := List.eq_nil_of_length_eq_zero (hlen.trans hnone)
    have hparam : (0 + 2 ^ 32 - 1) % 2 ^ 32 % 2 ^ 8 = 254 + 1 := by norm_num
    rcases Option.bind_eq_some_iff.mp hp with ⟨cleared, _, hrest⟩
    rcases Option.bind_eq_some_iff.mp hrest with ⟨data, hmask, _⟩
    rw [hnone, hparam, hempty, writeMask, List.range_succ_eq_map, List.foldlM_cons] at hmask
    cases hmask
  · refine iff_of_false ?_ (by omega)
    rintro ⟨p, hp, hkeeps⟩
    have hsize := getTypeMaskRequest_one hone hp
    rcases Option.bind_eq_some_iff.mp hp with ⟨cleared, _, hrest⟩
    rcases Option.bind_eq_some_iff.mp hrest with ⟨data, _, hpacket⟩
    cases Option.some.inj hpacket
    have hholds := (getTypeMask_packet_keeps_iff hd _ _).mp hkeeps
    rw [HoldsMask, data_delivered, hsize, ← hsame, hone] at hholds
    revert hholds
    simp
  · have hholds : HoldsMask d.conn (delivered (setPacketHeader cmdGetType useMask
        ((c.nbPins - 2) / 8 + 1) (maskData (c.nbPins - 1) mask))) 0 ↔ c.nbPins % 8 ≠ 1 := by
      rw [HoldsMask, data_request cmdGetType useMask (by rw [length_maskData]; omega) (by omega),
        length_maskData, ← hsame]
      omega
    rw [getTypeMaskRequest_eq htwo (Nat.le_of_eq hlen.symm), ← hsame]
    constructor
    · rintro ⟨p, hp, hkeeps⟩
      cases hp
      exact ⟨htwo, hholds.mp ((getTypeMask_packet_keeps_iff hd _ _).mp hkeeps)⟩
    · rintro ⟨_, hnot⟩
      exact ⟨_, rfl, (getTypeMask_packet_keeps_iff hd _ _).mpr (hholds.mpr hnot)⟩

/-- Without any pin, the byte count wraps: the packet has no data. -/
theorem getFailsafeMaskRequest_none (hlen : c.nbPins ≤ mask.length)
    (hnone : usedPins mask c.nbPins = []) :
    ∃ data, getFailsafeMaskRequest c mask =
      some (setPacketHeader cmdGetFailsafe useMask (2 ^ 29) data) := by
  have hbound := c.nbPins_lt
  obtain ⟨n, hn⟩ : ∃ n, 2 ^ 29 = n := ⟨_, rfl⟩
  have hword : n % 2 ^ 16 = 0 := by
    rw [← hn]
    norm_num
  have hlarge : 2 ^ 8 ≤ n := by
    rw [← hn]
    exact Nat.pow_le_pow_right (by decide) (by decide)
  have hclear : initPacket (malloc n) n = some (malloc n) := by
    rw [initPacket, hword]
    rfl
  have hfit : c.nbPins ≤ 8 * (malloc n).length := by
    rw [malloc, List.length_replicate]
    omega
  have hmask := writeMask_eq (malloc n) hlen (by omega)
  rw [if_pos hfit] at hmask
  rw [getFailsafeMaskRequest, maskNbPinsUsed_eq hlen hbound, hnone, List.length_nil,
    Option.bind_eq_bind, Option.bind_some, Nat.zero_mul, bits2bytesUnsigned_zero, hn]
  refine ⟨orBits (malloc n) (maskBits mask c.nbPins), ?_⟩
  simp only [hclear, hmask, Option.bind_eq_bind, Option.bind_some, Option.pure_def]

/-- The bytes that the types of the pins used would take hold the mask, or the driver writes
outside of them. -/
theorem getFailsafeMaskRequest_some (hlen : c.nbPins ≤ mask.length) {k : Nat}
    (hcount : (usedPins mask c.nbPins).length = k) (hsome : 0 < k) :
    getFailsafeMaskRequest c mask =
      if c.nbPins ≤ 8 * ((3 * k - 1) / 8 + 1) then
        some (setPacketHeader cmdGetFailsafe useMask ((3 * k - 1) / 8 + 1)
          (orBits (zeros ((3 * k - 1) / 8 + 1)) (maskBits mask c.nbPins)))
      else none := by
  have hbound := c.nbPins_lt
  have hused := length_usedPins_le mask c.nbPins
  have hbytes : bits2bytesUnsigned (k * pinTypeBitsNb) = (3 * k - 1) / 8 + 1 := by
    rw [pinTypeBitsNb, bits2bytesUnsigned_eq (by omega) (by omega), Nat.mul_comm]
  have hclear := initPacket_malloc (n := (3 * k - 1) / 8 + 1) (by omega)
  have hmask := writeMask_eq (zeros ((3 * k - 1) / 8 + 1)) hlen (by omega)
  rw [length_zeros] at hmask
  rw [getFailsafeMaskRequest, maskNbPinsUsed_eq hlen hbound, hcount, Option.bind_eq_bind,
    Option.bind_some]
  simp only [hbytes, hclear, hmask, Option.bind_eq_bind, Option.bind_some, Option.pure_def]
  split <;> rfl

/-- No pin is asked for: the device gets a request without data. -/
theorem getFailsafeMask_keeps_none (hd : d.Ready b) (hsame : c.nbPins = d.conn.nbPins)
    (hlen : c.nbPins ≤ mask.length) (hnone : usedPins mask c.nbPins = []) :
    (∃ p, getFailsafeMaskRequest c mask = some p ∧ Keeps b d (delivered p)) ↔
      b.disableFailsafe = true ∨ c.nbPins = 0 := by
  obtain ⟨data, hrequest⟩ := getFailsafeMaskRequest_none hlen hnone
  rw [hrequest]
  obtain ⟨p, hp⟩ : ∃ p, delivered (setPacketHeader cmdGetFailsafe useMask (2 ^ 29) data) = p :=
    ⟨_, rfl⟩
  -- the size of the request is kept in 16 bits
  have hword : 2 ^ 29 % 2 ^ 16 = 0 := by norm_num
  have hdata : p.data = [] := by
    rw [← hp, data_delivered, setPacketHeader, BitVec.toNat_ofNat, hword]
    rfl
  have hkeeps := getFailsafeMask_packet_keeps_iff hd (2 ^ 29) data hp
  constructor
  · rintro ⟨q, hq, hq'⟩
    cases hq
    rw [hp] at hq'
    rcases hkeeps.mp hq' with hb | ⟨hnb | hholds, _⟩
    · exact Or.inl hb
    · exact Or.inr (hsame.trans hnb)
    · rw [hdata, List.length_nil] at hholds
      exact Or.inr (by omega)
  · intro h
    refine ⟨_, rfl, ?_⟩
    rw [hp]
    refine hkeeps.mpr (h.imp_right fun hnb => ⟨Or.inl (hsame ▸ hnb), ?_⟩)
    have hpins : maskedPins d.conn p 0 = [] := by
      rw [maskedPins, ← hsame, hnb]
      rfl
    have hbits : failsafeBits d.conn [] = 0 := by
      rw [failsafeBits]
      cases d.conn.failsafe <;> rfl
    rw [hpins, hbits]
    decide

/-- Some pins are asked for, and the mask has room in the bytes that their types take. -/
theorem getFailsafeMask_keeps_some (hd : d.Ready b) (hsame : c.nbPins = d.conn.nbPins)
    (hlen : c.nbPins ≤ mask.length) {k : Nat} (hk : (usedPins mask c.nbPins).length = k)
    (hsome : 0 < k) (hroom : c.nbPins ≤ 8 * ((3 * k - 1) / 8 + 1)) :
    (∃ p, getFailsafeMaskRequest c mask = some p ∧ Keeps b d (delivered p)) ↔
      b.disableFailsafe = true ∨
        16 + k + failsafeBits d.conn (usedPins mask c.nbPins) ≤ 2016 := by
  have hbound := c.nbPins_lt
  have hused := length_usedPins_le mask c.nbPins
  rw [getFailsafeMaskRequest_some hlen hk hsome, if_pos hroom]
  obtain ⟨data, hbits⟩ :
      ∃ data, orBits (zeros ((3 * k - 1) / 8 + 1)) (maskBits mask c.nbPins) = data := ⟨_, rfl⟩
  have hlength : data.length = (3 * k - 1) / 8 + 1 := by
    rw [← hbits, length_orBits, length_zeros]
  have hdata := data_request cmdGetFailsafe useMask hlength.symm (by omega)
  rw [hbits]
  obtain ⟨p, hp⟩ : ∃ p, delivered (setPacketHeader cmdGetFailsafe useMask
      ((3 * k - 1) / 8 + 1) data) = p := ⟨_, rfl⟩
  have hkeeps := getFailsafeMask_packet_keeps_iff hd _ data hp
  rw [hp] at hdata
  have hholds : HoldsMask d.conn p 0 := Or.inr (by rw [hdata, hlength, ← hsame]; omega)
  -- the device finds the mask that the driver packed
  have hpins : maskedPins d.conn p 0 = usedPins mask c.nbPins := by
    rw [maskedPins, ← hsame]
    refine usedPins_maskOf fun i hi => ?_
    have hin : i < 8 * (zeros ((3 * k - 1) / 8 + 1)).length := by
      rw [length_zeros]
      omega
    rw [Nat.zero_add, hdata, ← hbits, bitAt_orBits, bitAt_zeros, decide_eq_true hin, maskBits,
      decide_eq_true hi]
    rfl
  rw [hpins, hk] at hkeeps
  constructor
  · rintro ⟨q, hq, hq'⟩
    cases hq
    rw [hp] at hq'
    exact (hkeeps.mp hq').imp_right And.right
  · intro h
    refine ⟨_, rfl, ?_⟩
    rw [hp]
    exact hkeeps.mpr (h.imp_right fun h => ⟨hholds, h⟩)

theorem getFailsafeMask_keeps_iff (hd : d.Ready b) (hsame : c.nbPins = d.conn.nbPins)
    (hlen : mask.length = c.nbPins) :
    (∃ p, getFailsafeMaskRequest c mask = some p ∧ Keeps b d (delivered p)) ↔
      GetFailsafeMaskHarmless b d.conn mask := by
  have hle := Nat.le_of_eq hlen.symm
  rw [GetFailsafeMaskHarmless, ← hsame]
  obtain ⟨k, hk⟩ : ∃ k, (usedPins mask c.nbPins).length = k := ⟨_, rfl⟩
  rcases Nat.eq_zero_or_pos k with hzero | hsome
  · have hnone : usedPins mask c.nbPins = [] := List.eq_nil_of_length_eq_zero (hk.trans hzero)
    rw [getFailsafeMask_keeps_none hd hsame hle hnone]
    exact ⟨fun h => ⟨fun _ => h, fun hne => absurd hnone hne⟩, fun h => h.1 hnone⟩
  · have hne : usedPins mask c.nbPins ≠ [] := by
      rintro hnone
      rw [hnone, List.length_nil] at hk
      omega
    rw [hk]
    by_cases hroom : c.nbPins ≤ 8 * ((3 * k - 1) / 8 + 1)
    · rw [getFailsafeMask_keeps_some hd hsame hle hk hsome hroom]
      exact ⟨fun h => ⟨fun hnone => absurd hnone hne, fun _ => ⟨hroom, h⟩⟩, fun h => (h.2 hne).2⟩
    · -- the mask leaves the bytes of the request, and nothing is sent
      rw [getFailsafeMaskRequest_some hle hk hsome, if_neg hroom]
      refine iff_of_false ?_ fun h => hroom (h.2 hne).1
      rintro ⟨q, hq, _⟩
      cases hq

end MaskQueries

/-! ## All queries -/

/-- The driver has a request for the query, and it leaves the device as it is. -/
def Query.KeepsDevice (b : Build) (c : Connection) (d : Device) (q : Query) : Prop :=
  ∃ p, q.request c = some p ∧ Keeps b d (delivered p)

section Queries

variable {b : Build} {nbPins : BitVec 8} {c : Connection} {d : Device} {q : Query}

/-- In every state that a device can get into, a query is harmless exactly under the conditions
above. -/
theorem query_keeps_iff (hd : Reachable b nbPins d) (hnb : c.caps.nbPins = nbPins)
    (hq : q.InRange nbPins.toNat) : q.KeepsDevice b c d ↔ q.Harmless b d.conn := by
  have hinv := hd.invariant
  have hready := hinv.ready
  have hcnb : nbPins.toNat = c.nbPins := congrArg BitVec.toNat hnb.symm
  have hdnb : nbPins.toNat = d.conn.nbPins := congrArg BitVec.toNat hinv.capsNbPins.symm
  have hsame := hcnb.symm.trans hdnb
  -- the request of a query for one pin is always built
  have hone : ∀ {o : Option Packet} {p : Packet}, o = some p →
      ((∃ p, o = some p ∧ Keeps b d (delivered p)) ↔ Keeps b d (delivered p)) := by
    rintro o p rfl
    simp
  cases q with
  | getCaps =>
      exact iff_of_true ⟨_, rfl, keeps_of_low hready (by decide)⟩ trivial
  | ping =>
      refine iff_of_true ⟨_, rfl, keeps_of_low hready ?_⟩ trivial
      exact Nat.lt_of_le_of_lt
        (Nat.le_of_eq (congrArg BitVec.toNat (command_plain (by decide) (by decide) _ _)))
        (by decide)
  | genericRead pinId pinMode =>
      rw [Query.InRange, hdnb] at hq
      exact (hone (pinRequest_eq cmdRead _ pinId)).trans (genericRead_keeps_iff hready hq pinMode)
  | readValueMask mask type =>
      rw [Query.InRange, hcnb] at hq
      have hrequest := readValueMaskRequest_eq (Nat.le_of_eq hq.symm) type
      rw [hsame] at hrequest
      exact (hone hrequest).trans (readValueMask_keeps_iff hready mask type)
  | getType pinId =>
      rw [Query.InRange, hdnb] at hq
      exact (hone (pinRequest_eq cmdGetType _ pinId)).trans
        (iff_of_true (getType_pin_keeps hready hq) trivial)
  | getTypeMask mask =>
      rw [Query.InRange, hcnb] at hq
      exact getTypeMask_keeps_iff hready hsame hq
  | getFailsafe pinId =>
      rw [Query.InRange, hdnb] at hq
      exact (hone (pinRequest_eq cmdGetFailsafe _ pinId)).trans
        (iff_of_true (getFailsafe_pin_keeps hready hq) trivial)
  | getFailsafeMask mask =>
      rw [Query.InRange, hcnb] at hq
      exact getFailsafeMask_keeps_iff hready hsame hq

/-- The firmware and all of its pins. -/
theorem query_keepsDevice_firmware :
    let d := initialDevice hostBuild firmwareNbPins
    (Query.readValueMask (List.replicate 16 true) pinTypePwm8).KeepsDevice hostBuild d.conn d := by
  intro d
  have hq : (Query.readValueMask (List.replicate 16 true) pinTypePwm8).InRange
      firmwareNbPins.toNat := rfl
  refine (query_keeps_iff (.init (initDeviceContent_eq _ _)) rfl hq).mpr ?_
  refine ⟨fun _ => Or.inr (by decide), fun h => ?_, fun h => ?_, fun h => ?_, fun h => ?_⟩ <;>
    exact absurd h (by decide)

/-- Two pins, the second of which is high. -/
def secondHigh : Device :=
  { conn :=
      { (initialDevice hostBuild 2).conn with
        pinsState := [⟨pinTypeDigital, 0⟩, ⟨pinTypeDigital, 1⟩] }
    nextId := 1 }

theorem secondHigh_reachable : Reachable hostBuild 2 secondHigh := by
  let p : Packet := delivered (setPacketHeader cmdWrite (typeParam pinTypeDigital usePinId) 2
    [1#8, 0x80#8])
  have hrun : (dispatch hostBuild (initialDevice hostBuild 2) p).map Prod.fst =
      some secondHigh := by
    decide +kernel
  rcases Option.map_eq_some_iff.mp hrun with ⟨⟨d, replies⟩, hserve, rfl⟩
  exact (Reachable.init (initDeviceContent_eq _ _)).serve ⟨rfl, by decide +kernel⟩ hserve

/-- A read of type 8 writes zeros. -/
theorem not_query_keepsDevice_secondHigh :
    let q := Query.readValueMask [true, true] 8
    Reachable hostBuild 2 secondHigh ∧ q.InRange 2 ∧
      ((q.request secondHigh.conn).bind fun p => dispatch hostBuild secondHigh (delivered p)).map
          (fun r => r.1.conn.pinsState) = some [⟨pinTypeDigital, 0⟩, ⟨pinTypeDigital, 0⟩] ∧
      ¬ q.KeepsDevice hostBuild secondHigh.conn secondHigh := by
  intro q
  have hrun : ((q.request secondHigh.conn).bind fun p =>
      dispatch hostBuild secondHigh (delivered p)).map (fun r => r.1.conn.pinsState) =
        some [⟨pinTypeDigital, 0⟩, ⟨pinTypeDigital, 0⟩] := by
    decide +kernel
  refine ⟨secondHigh_reachable, rfl, hrun, ?_⟩
  rintro ⟨p, hp, d', rs, hserve, hconn⟩
  rw [hp, Option.bind_some, hserve, Option.map_some, hconn] at hrun
  revert hrun
  decide

end Queries

end PinProtocol
