import PinProtocol.Common.Sending
import PinProtocol.Driver.Requests
import PinProtocol.Firmware.Init

/-!
# ByteCounts — bytes allocated and bytes declared

`BITS2BYTES` serves two purposes: its value goes to `malloc` as it is, and into the packet header
as a `uint16_t`.  On an `unsigned int` operand of 0 the macro yields `2 ^ 29`, and the two part.
Here the counts of the routines that use it for a set of pins are written down apart from what they
write, since some of them leave their buffer later on; where a routine returns, they are the length
of its buffer and the size in its header.
-/

namespace PinProtocol

open Bits Control

/-- What a routine passes to `malloc`, and what its packet header declares. -/
structure ByteCount where
  allocated : Nat
  declared : Nat

namespace ByteCount

def ofDataBytes (dataBytes : Nat) : ByteCount :=
  { allocated := dataBytes, declared := (BitVec.ofNat 16 dataBytes).toNat }

/-- As many bytes are allocated as are declared. -/
def Agrees (n : ByteCount) : Prop :=
  n.allocated = n.declared

/-- It is the count of a reply with this data and this many bytes. -/
def OfReply (n : ByteCount) (reply : Option (Buffer × Nat)) : Prop :=
  ∀ data dataBytes, reply = some (data, dataBytes) →
    n = { allocated := data.length, declared := (BitVec.ofNat 16 dataBytes).toNat }

/-- It is the count of this request. -/
def OfRequest (n : ByteCount) (request : Option Packet) : Prop :=
  ∀ q, request = some q → n = { allocated := q.data.length, declared := q.size.toNat }

theorem agrees_of_lt {n : Nat} (h : n < 2 ^ 16) : (ofDataBytes n).Agrees := by
  rw [Agrees, ofDataBytes, BitVec.toNat_ofNat, Nat.mod_eq_of_lt h]

/-- The header declares less than `2 ^ 16` bytes. -/
theorem not_agrees_of_le {n : Nat} (h : 2 ^ 16 ≤ n) : ¬ (ofDataBytes n).Agrees := by
  intro heq
  have hlt : (BitVec.ofNat 16 n).toNat < 2 ^ 16 := (BitVec.ofNat 16 n).isLt
  have hsame : n = (BitVec.ofNat 16 n).toNat := heq
  omega

end ByteCount

/-! ## The counts of the four routines -/

def replyReadCount (c : Connection) (p : Packet) (valBits : Nat) : Option ByteCount := do
  let m ← requestMask c p.data 0
  let nbPinsUsed ← maskNbPinsUsed m c.nbPins
  return .ofDataBytes (bits2bytes (replyIdBitsNb + nbPinsUsed * valBits))

def replyGetTypeCount (c : Connection) (p : Packet) : Option ByteCount := do
  let m ← requestMask c p.data 0
  let nbPinsUsed ← maskNbPinsUsed m c.nbPins
  return .ofDataBytes (1 + bits2bytesUnsigned (nbPinsUsed * pinTypeBitsNb))

def getTypeMaskCount (c : Connection) : ByteCount :=
  .ofDataBytes (bits2bytesUnsigned ((c.nbPins + 2 ^ 32 - 1) % 2 ^ 32))

def getFailsafeMaskCount (c : Connection) (mask : Mask) : Option ByteCount := do
  let nbPinsUsed ← maskNbPinsUsed mask c.nbPins
  return .ofDataBytes (bits2bytesUnsigned (nbPinsUsed * pinTypeBitsNb))

/-! ### They are the counts of the buffers and packets -/

theorem length_malloc (n : Nat) : (malloc n).length = n :=
  List.length_replicate

theorem inPlace_initPacket (n : Nat) : InPlace fun p => initPacket p n := by
  intro p p' h
  refine foldlM_keeps (μ := List.length) (fun q i q' hq => ?_) _ p p' h
  have hset := Option.some_inj.mp (Option.ite_none_right_eq_some.mp hq).2
  rw [← hset, List.length_set]

theorem inPlace_writeMask (m : Mask) (maskLength : Nat) :
    InPlace fun p => writeMask p m maskLength := by
  intro p p' h
  refine foldlM_keeps (μ := List.length) (fun q i q' hq => ?_) _ p p' h
  obtain ⟨used, -, hwrite⟩ := Option.bind_eq_some_iff.mp hq
  exact inPlace_writeBitValue i _ (by decide) q q' hwrite

/-- The loop that puts a field of every pin used into a reply. -/
theorem length_writePins {c : Connection} {m : Mask} {field : PinState → BitVec 16} {width : Nat}
    {st st' : Buffer × Nat} (hmask : c.nbPins ≤ m.length) (hwidth : width ≤ 16)
    (h : forEachPinUsed m c.nbPins
      (fun (st : Buffer × Nat) pinIndex =>
        (c.pinsState[pinIndex]?.bind fun pin => writeBitValue st.1 st.2 (field pin) width).map
          fun data => (data, st.2 + width))
      st = some st') : st'.1.length = st.1.length := by
  refine forEachPinUsed_keeps (μ := fun st : Buffer × Nat => st.1.length) hmask
    (fun st pin st' hturn => ?_) h
  obtain ⟨data, hdata, rfl⟩ := Option.map_eq_some_iff.mp hturn
  obtain ⟨pin, -, hwrite⟩ := Option.bind_eq_some_iff.mp hdata
  exact inPlace_writeBitValue st.2 (field pin) hwidth st.1 data hwrite

theorem length_of_initPacket_malloc {n : Nat} {data : Buffer}
    (h : initPacket (malloc n) n = some data) : data.length = n :=
  (inPlace_initPacket n _ _ h).trans (length_malloc n)

section Counts

variable {c : Connection} {p : Packet} {m : Mask}

theorem replyReadMask_count {valBits : Nat} (hbits : valBits ≤ 16) {n : ByteCount}
    (hn : replyReadCount c p valBits = some n) : n.OfReply (replyReadMask c p valBits) := by
  intro data dataBytes h
  obtain ⟨m, hm, h⟩ := Option.bind_eq_some_iff.mp h
  obtain ⟨k, hk, h⟩ := Option.bind_eq_some_iff.mp h
  obtain ⟨cleared, hclear, h⟩ := Option.bind_eq_some_iff.mp h
  obtain ⟨⟨filled, offset⟩, hfill, h⟩ := Option.bind_eq_some_iff.mp h
  -- neither the mask nor the values change the length of what has been allocated
  have hlen := length_writePins (Nat.le_of_eq (length_requestMask hm).symm) hbits hfill
  cases h
  simp only [replyReadCount, hm, hk, Option.bind_eq_bind, Option.bind_some, Option.pure_def,
    Option.some_inj] at hn
  rw [hlen, length_of_initPacket_malloc hclear, ← hn, ByteCount.ofDataBytes]

theorem replyGetTypeMask_count {n : ByteCount} (hn : replyGetTypeCount c p = some n) :
    n.OfReply (replyGetTypeMask c p) := by
  intro data dataBytes h
  obtain ⟨m, hm, h⟩ := Option.bind_eq_some_iff.mp h
  obtain ⟨k, hk, h⟩ := Option.bind_eq_some_iff.mp h
  obtain ⟨cleared, hclear, h⟩ := Option.bind_eq_some_iff.mp h
  obtain ⟨⟨filled, offset⟩, hfill, h⟩ := Option.bind_eq_some_iff.mp h
  have hlen := length_writePins (Nat.le_of_eq (length_requestMask hm).symm)
    (show pinTypeBitsNb ≤ 16 by decide) hfill
  cases h
  simp only [replyGetTypeCount, hm, hk, Option.bind_eq_bind, Option.bind_some, Option.pure_def,
    Option.some_inj] at hn
  rw [hlen, length_of_initPacket_malloc hclear, ← hn, ByteCount.ofDataBytes]

theorem getTypeMaskRequest_count (c : Connection) (m : Mask) :
    (getTypeMaskCount c).OfRequest (getTypeMaskRequest c m) := by
  intro q h
  obtain ⟨cleared, hclear, h⟩ := Option.bind_eq_some_iff.mp h
  obtain ⟨masked, hmask, h⟩ := Option.bind_eq_some_iff.mp h
  have hlen : masked.length = cleared.length := inPlace_writeMask m _ _ _ hmask
  cases h
  simp only [setPacketHeader, hlen, length_of_initPacket_malloc hclear]
  rfl

theorem getFailsafeMaskRequest_count {n : ByteCount} (hn : getFailsafeMaskCount c m = some n) :
    n.OfRequest (getFailsafeMaskRequest c m) := by
  intro q h
  obtain ⟨k, hk, h⟩ := Option.bind_eq_some_iff.mp h
  obtain ⟨cleared, hclear, h⟩ := Option.bind_eq_some_iff.mp h
  obtain ⟨masked, hmask, h⟩ := Option.bind_eq_some_iff.mp h
  have hlen : masked.length = cleared.length := inPlace_writeMask m _ _ _ hmask
  cases h
  simp only [getFailsafeMaskCount, hk, Option.bind_eq_bind, Option.bind_some, Option.pure_def,
    Option.some_inj] at hn
  simp only [setPacketHeader, hlen, length_of_initPacket_malloc hclear]
  rw [← hn, ByteCount.ofDataBytes]

end Counts

/-! ## Which of them agree -/

/-- Every one of the four routines allocates as much as it declares for the mask `m`, and the two
replies hold the id and the bits of their values. -/
structure ByteCountsAgree (c dev : Connection) (m : Mask) (p : Packet) : Prop where
  replyRead : ∀ type, ∃ n, replyReadCount dev p (getTypeBitsNb type) = some n ∧
    n.OfReply (replyReadMask dev p (getTypeBitsNb type)) ∧ n.Agrees ∧
    n.allocated = 1 + ((usedPins m c.nbPins).length * getTypeBitsNb type + 7) / 8
  replyGetType : ∃ n, replyGetTypeCount dev p = some n ∧ n.OfReply (replyGetTypeMask dev p) ∧
    n.Agrees ∧ n.allocated = 1 + ((usedPins m c.nbPins).length * pinTypeBitsNb + 7) / 8
  getTypeMask : (getTypeMaskCount c).OfRequest (getTypeMaskRequest c m) ∧
    (getTypeMaskCount c).Agrees
  getFailsafeMask : ∃ n, getFailsafeMaskCount c m = some n ∧
    n.OfRequest (getFailsafeMaskRequest c m) ∧ n.Agrees

section Agreement

variable {c dev : Connection} {m : Mask} {p : Packet}

theorem replyReadCount_eq (hmask : requestMask dev p.data 0 = some m) (valBits : Nat) :
    replyReadCount dev p valBits =
      some (.ofDataBytes (1 + ((usedPins m dev.nbPins).length * valBits + 7) / 8)) := by
  have hlen := length_requestMask hmask
  have hbytes : bits2bytes (8 + (usedPins m dev.nbPins).length * valBits) =
      1 + ((usedPins m dev.nbPins).length * valBits + 7) / 8 := by
    rw [bits2bytes_eq]
    omega
  simp only [replyReadCount, hmask, maskNbPinsUsed_eq (Nat.le_of_eq hlen.symm) dev.nbPins_lt,
    replyIdBitsNb, hbytes, Option.bind_eq_bind, Option.bind_some, Option.pure_def]

theorem replyGetTypeCount_eq (hmask : requestMask dev p.data 0 = some m) :
    replyGetTypeCount dev p = some (.ofDataBytes
      (1 + bits2bytesUnsigned ((usedPins m dev.nbPins).length * pinTypeBitsNb))) := by
  have hlen := length_requestMask hmask
  simp only [replyGetTypeCount, hmask, maskNbPinsUsed_eq (Nat.le_of_eq hlen.symm) dev.nbPins_lt,
    Option.bind_eq_bind, Option.bind_some, Option.pure_def]

theorem getFailsafeMaskCount_eq (hlen : c.nbPins ≤ m.length) :
    getFailsafeMaskCount c m = some (.ofDataBytes
      (bits2bytesUnsigned ((usedPins m c.nbPins).length * pinTypeBitsNb))) := by
  simp only [getFailsafeMaskCount, maskNbPinsUsed_eq hlen c.nbPins_lt, Option.bind_eq_bind,
    Option.bind_some, Option.pure_def]

/-- On `unsigned int` operands the macro counts bytes if and only if there is a bit to count. -/
theorem bits2bytesUnsigned_agrees_iff {a n : Nat} (ha : a < 2 ^ 12) (hn : n ≤ 1) :
    (ByteCount.ofDataBytes (n + bits2bytesUnsigned a)).Agrees ↔ 0 < a := by
  constructor
  · intro hagrees
    by_contra hzero
    obtain rfl : a = 0 := by omega
    rw [bits2bytesUnsigned_zero] at hagrees
    exact ByteCount.not_agrees_of_le (by omega) hagrees
  · intro hpos
    rw [bits2bytesUnsigned_eq hpos (by omega)]
    exact ByteCount.agrees_of_lt (by omega)

theorem getTypeMaskCount_agrees_iff (hpos : 0 < c.nbPins) :
    (getTypeMaskCount c).Agrees ↔ 2 ≤ c.nbPins := by
  have hbound := c.nbPins_lt
  have hbits : (c.nbPins + 2 ^ 32 - 1) % 2 ^ 32 = c.nbPins - 1 := by omega
  have hiff := bits2bytesUnsigned_agrees_iff (show c.nbPins - 1 < 2 ^ 12 by omega) (Nat.zero_le 1)
  rw [Nat.zero_add] at hiff
  rw [getTypeMaskCount, hbits, hiff]
  omega

/-- The counts agree if and only if the mask is not empty and there is more than one pin. -/
theorem byteCounts_iff (hpos : 0 < c.nbPins) (hsame : dev.nbPins = c.nbPins)
    (hmask : requestMask dev p.data 0 = some m) :
    ByteCountsAgree c dev m p ↔ 2 ≤ c.nbPins ∧ usedPins m c.nbPins ≠ [] := by
  have hbound := c.nbPins_lt
  have hused := length_usedPins_le m c.nbPins
  have hlen := Nat.le_of_eq (length_requestMask hmask).symm
  rw [hsame] at hlen
  have htypes := replyGetTypeCount_eq hmask
  have hfailsafe := getFailsafeMaskCount_eq hlen
  have hbits : (usedPins m c.nbPins).length * pinTypeBitsNb < 2 ^ 12 := by
    rw [pinTypeBitsNb]
    omega
  have hsome : 0 < (usedPins m c.nbPins).length * pinTypeBitsNb ↔ usedPins m c.nbPins ≠ [] := by
    rw [pinTypeBitsNb, ← List.length_pos_iff]
    omega
  rw [hsame] at htypes
  constructor
  · intro h
    refine ⟨(getTypeMaskCount_agrees_iff hpos).mp h.getTypeMask.2, ?_⟩
    -- the reply with the types of no pin is the one that fails
    obtain ⟨n, hn, -, hagrees, -⟩ := h.replyGetType
    rw [htypes, Option.some_inj] at hn
    rw [← hn, bits2bytesUnsigned_agrees_iff hbits (Nat.le_refl 1)] at hagrees
    exact hsome.mp hagrees
  · rintro ⟨htwo, hpins⟩
    have hany := hsome.mpr hpins
    refine
      { replyRead := fun type => ?_
        replyGetType := ?_
        getTypeMask := ⟨getTypeMaskRequest_count c m,
          (getTypeMaskCount_agrees_iff hpos).mpr htwo⟩
        getFailsafeMask := ?_ }
    · have hwidth := getTypeBitsNb_le type
      have hread := replyReadCount_eq hmask (getTypeBitsNb type)
      have hle : (usedPins m c.nbPins).length * getTypeBitsNb type ≤ 255 * 16 :=
        Nat.mul_le_mul (by omega) hwidth
      rw [hsame] at hread
      exact ⟨_, hread, replyReadMask_count hwidth hread, ByteCount.agrees_of_lt (by omega), rfl⟩
    · refine ⟨_, htypes, replyGetTypeMask_count htypes,
        (bits2bytesUnsigned_agrees_iff hbits (Nat.le_refl 1)).mpr hany, ?_⟩
      have hbytes := bits2bytesUnsigned_eq hany (by omega)
      have hceil : ((usedPins m c.nbPins).length * pinTypeBitsNb - 1) / 8 + 1 =
          ((usedPins m c.nbPins).length * pinTypeBitsNb + 7) / 8 := by
        omega
      simp only [ByteCount.ofDataBytes, hbytes, hceil]
    · have hagrees := (bits2bytesUnsigned_agrees_iff hbits (Nat.zero_le 1)).mpr hany
      rw [Nat.zero_add] at hagrees
      exact ⟨_, hfailsafe, getFailsafeMaskRequest_count hfailsafe, hagrees⟩

end Agreement

theorem byteCounts_two :
    ByteCountsAgree (initialDevice hostBuild 2#8).conn (initialDevice hostBuild 2#8).conn
      [true, false] (setPacketHeader cmdRead useMask 1 [0x80#8]) :=
  (byteCounts_iff (by decide) rfl (by decide)).mpr (by decide)

/-- For the empty mask of two pins, the reply with the types is allocated `2 ^ 29 + 1` bytes. -/
theorem not_byteCounts_empty :
    ¬ ByteCountsAgree (initialDevice hostBuild 2#8).conn (initialDevice hostBuild 2#8).conn
      [false, false] (setPacketHeader cmdRead useMask 1 [0#8]) := by
  intro h
  obtain ⟨n, hn, -, hagrees, -⟩ := h.replyGetType
  have hmask : requestMask (initialDevice hostBuild 2#8).conn [0#8] 0 = some [false, false] := by
    decide
  have hcount := replyGetTypeCount_eq (p := setPacketHeader cmdRead useMask 1 [0#8]) hmask
  rw [hcount, Option.some_inj] at hn
  have hempty : (usedPins [false, false] (initialDevice hostBuild 2#8).conn.nbPins).length *
      pinTypeBitsNb = 0 := by
    decide
  rw [← hn, hempty, bits2bytesUnsigned_agrees_iff (by decide) (Nat.le_refl 1)] at hagrees
  exact absurd hagrees (Nat.lt_irrefl 0)

end PinProtocol
