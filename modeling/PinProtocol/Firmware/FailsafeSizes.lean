import PinProtocol.Firmware.FailsafeHandlers

/-!
# FailsafeSizes — the size of a masked failsafe reply

`failsafe_nb_bits` counts the bits of a table, `write_failsafe` emits them, and
`reply_get_failsafe` keeps the byte count of the reply in a `uint8_t`.  The three agree as long as
the count stays within 2016 bits, the 252 bytes that are left behind id and timeout.
-/

namespace PinProtocol

open Bits Control

/-- `write_failsafe` emits `n` bits for the first `nbPins` entries: where there is room, it runs
through and advances its offset by `n`. -/
def EmitsBits (f : Failsafe) (nbPins n : Nat) : Prop :=
  ∀ (buffer : Buffer) (offset : Nat), offset + n < 8 * buffer.length →
    ∃ buffer', (List.range nbPins).foldlM
      (fun st i => f.pinsFailsafe[i]?.bind (writeFailsafeEntry st)) (buffer, offset) =
        some (buffer', offset + n)

theorem emitsBits_entriesLength (f : Failsafe) :
    EmitsBits f f.pinsFailsafe.length (entriesLength f.pinsFailsafe) := by
  intro buffer offset hroom
  rw [foldlM_getElem?]
  exact ⟨_, writeEntries_fit f.pinsFailsafe hroom⟩

/-- The masked reply to `p` is sized right: the table of the pins in `m` emits no more bits than are
counted, the data has the three bytes and those of the count, and the frame fits the receiver. -/
structure FailsafeReplySized (d : Device) (f : Failsafe) (m : Mask) (p : Packet) (sub : Failsafe)
    (nbBits emitted : Nat) (data : Buffer) (frame : Buffer) : Prop where
  masked : subFailsafe f m d.conn.nbPins = some sub
  counted : failsafeNbBits sub (usedPins m d.conn.nbPins).length = some nbBits
  emits : EmitsBits sub (usedPins m d.conn.nbPins).length emitted
  emitted_le : emitted ≤ nbBits
  reply : replyGetFailsafeMask d.conn f p = some (data, 3 + bits2bytes nbBits)
  length_data : data.length = 3 + bits2bytes nbBits
  sent : ∃ d', replyGetFailsafe d p = some (d', [frame])
  length_frame : frame.length ≤ hostBuild.buffSize

section Sized

variable {d : Device} {f : Failsafe} {p : Packet} {m : Mask}

theorem length_failsafeReply_frame (id : BitVec 8) (timeout : BitVec 16) {size : Nat}
    (hsize : size < 2 ^ 8) (bits : Nat → Bool) :
    (frameOf (delivered (failsafeReply id timeout size bits))).length = size + 4 := by
  have hword : (failsafeReply id timeout size bits).size.toNat = size := by
    simp only [failsafeReply, setPacketHeader, BitVec.toNat_ofNat]
    omega
  rw [length_frameOf_delivered (by rw [hword]; simp [failsafeReply, setPacketHeader]), hword]

/-- The masked reply is sized right if and only if the count is at most 2016: 16 bits, one bit for
each pin of the mask, and the bits of the entries that are not disabled. -/
theorem failsafeReply_sized_iff (hf : d.conn.failsafe = some f)
    (htable : f.pinsFailsafe.length = d.conn.nbPins) (hkind : usesMask p = true)
    (hmask : requestMask d.conn p.data 0 = some m) :
    (∃ sub nbBits emitted data frame, FailsafeReplySized d f m p sub nbBits emitted data frame) ↔
      16 + (usedPins m d.conn.nbPins).length +
        entriesLength (f.entriesAt (usedPins m d.conn.nbPins)) ≤ 2016 := by
  have hbound := d.conn.nbPins_lt
  have hused := length_usedPins_le m d.conn.nbPins
  have hlen := length_requestMask hmask
  obtain ⟨es, hes⟩ : ∃ es, f.entriesAt (usedPins m d.conn.nbPins) = es := ⟨_, rfl⟩
  have hcount : es.length = (usedPins m d.conn.nbPins).length := by
    rw [← hes]
    exact List.length_map _
  have hsub := subFailsafe_eq (Nat.le_of_eq hlen.symm) hbound (Nat.le_of_eq htable.symm)
  have hdata := replyGetFailsafeMask_eq htable hmask hlen
  have hreply := replyGetFailsafe_mask hf htable hkind hmask hlen
  simp only [hes] at hsub hdata hreply
  rw [hes, ← hcount]
  constructor
  · rintro ⟨sub, nbBits, emitted, data, frame, h⟩
    -- a longer reply does not fit its one-byte size, and is never sent
    by_contra hlong
    obtain ⟨d', hsent⟩ := h.sent
    rw [hreply, if_neg hlong] at hsent
    cases hsent
  · intro hshort
    have hbits := failsafeNbBits_eq (f := { timeout := f.timeout, pinsFailsafe := es })
      (show es.length < 2 ^ 8 by omega)
    -- the count has 16 bits, and one for each pin, on top of what is emitted
    have hemits := emitsBits_entriesLength { timeout := f.timeout, pinsFailsafe := es }
    have hsize : 3 + bits2bytes (16 + es.length + entriesLength es) < 2 ^ 8 := by
      rw [bits2bytes_eq]
      omega
    rw [if_pos hshort] at hdata hreply
    refine ⟨_, _, _, _, _,
      { masked := hsub
        counted := hcount ▸ hbits
        emits := hcount ▸ hemits
        emitted_le := Nat.le_add_left _ _
        reply := hdata
        length_data := by rw [length_orBits, length_zeros]
        sent := ⟨_, hreply⟩
        length_frame := ?_ }⟩
    rw [length_failsafeReply_frame _ _ hsize]
    show _ ≤ 612
    omega

end Sized

/-- Entries of 16 bits, of one bit, of 8 bits and without a value; the digital one is left out. -/
theorem failsafeReply_sized_three :
    let f : Failsafe :=
      { timeout := 40000
        pinsFailsafe :=
          [⟨pinTypePwm16, 0x8001⟩, ⟨pinTypeDigital, 1⟩, ⟨pinTypePwm8, 200⟩, ⟨pinTypeDisabled, 0⟩] }
    let d := (initialDevice hostBuild 4#8).putFailsafe f.timeout f.pinsFailsafe
    ∃ sub nbBits emitted data frame, FailsafeReplySized d f [true, false, true, true]
      (setPacketHeader cmdGetFailsafe useMask 1 [0xB0#8]) sub nbBits emitted data frame :=
  (failsafeReply_sized_iff rfl rfl rfl (by decide)).mpr (by decide)

/-- With 101 entries of 16 bits the count is 2036 bits, and the byte count wraps. -/
theorem not_failsafeReply_sized_many :
    let f : Failsafe := { timeout := 0, pinsFailsafe := List.replicate 101 ⟨pinTypePwm16, 7⟩ }
    let d := (initialDevice hostBuild 101#8).putFailsafe f.timeout f.pinsFailsafe
    ¬ ∃ sub nbBits emitted data frame, FailsafeReplySized d f (List.replicate 101 true)
      (setPacketHeader cmdGetFailsafe useMask 13 (List.replicate 13 0xFF#8)) sub nbBits emitted data
      frame := by
  intro f d
  rintro ⟨sub, nbBits, emitted, data, frame, h⟩
  have hmask : requestMask d.conn (List.replicate 13 0xFF#8) 0 =
      some (List.replicate 101 true) := by
    decide +kernel
  have hreply := replyGetFailsafe_mask (d := d) (f := f)
    (p := setPacketHeader cmdGetFailsafe useMask 13 (List.replicate 13 0xFF#8)) rfl rfl rfl hmask
    rfl
  have hlong : ¬ 16 + (f.entriesAt (usedPins (List.replicate 101 true) d.conn.nbPins)).length +
      entriesLength (f.entriesAt (usedPins (List.replicate 101 true) d.conn.nbPins)) ≤ 2016 := by
    decide +kernel
  obtain ⟨d', hsent⟩ := h.sent
  rw [hreply, if_neg hlong] at hsent
  cases hsent

end PinProtocol
