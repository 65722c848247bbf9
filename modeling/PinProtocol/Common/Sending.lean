import PinProtocol.Common.Transport

/-!
# Sending — the limits of `connection_write`

The size of a frame is computed in a `uint16_t`, and what `write` returns goes through an
`int16_t`.  The first wraps when the size of the data is within 4 of the limit, and `packet_write`
then leaves the buffer; the second makes the count negative for every frame of `2 ^ 15` bytes or
more, and turns one of these counts into `-1`.
-/

namespace PinProtocol

open Bits Control

/-! ## Room for a frame -/

/-- `f` writes into the buffer that it is given: it does not change the length. -/
def InPlace (f : Buffer → Option Buffer) : Prop :=
  ∀ p p', f p = some p' → p'.length = p.length

theorem inPlace_writeBitValue (offset : Nat) (val : BitVec 16) {valSize : Nat}
    (hsize : valSize ≤ 16) : InPlace fun p => writeBitValue p offset val valSize := by
  intro p p' h
  simp only [writeBitValue_wrapped p offset val hsize] at h
  have hpattern := Option.some_inj.mp (Option.ite_none_right_eq_some.mp h).2
  rw [← hpattern]
  exact length_orBits _ _

theorem InPlace.atPtr {f : Buffer → Option Buffer} (hf : InPlace f) (k : Nat) :
    InPlace fun p => atPtr p k f := by
  intro p p' h
  obtain ⟨rest, hrest, rfl⟩ := Option.map_eq_some_iff.mp h
  have hlen := hf _ _ hrest
  rw [List.length_append, hlen, ← List.length_append, List.take_append_drop]

theorem inPlace_writeData (data : Buffer) (n : Nat) : InPlace fun p => writeData p data n := by
  intro p p' h
  refine foldlM_keeps (μ := List.length) (fun q i q' hq => ?_) (List.range n) p p' h
  obtain ⟨byte, -, hwrite⟩ := Option.bind_eq_some_iff.mp hq
  exact (inPlace_writeBitValue 0 (byte.setWidth 16) (by decide)).atPtr (3 + i) q q' hwrite

/-- A write to the byte behind `k` others needs them and the byte. -/
theorem lt_length_of_atPtr {p p' : Buffer} {k : Nat} {val : BitVec 16}
    (h : atPtr p k (fun p => writeBitValue p 0 val 8) = some p') : k < p.length := by
  obtain ⟨rest, hrest, -⟩ := Option.map_eq_some_iff.mp h
  simp only [writeBitValue_eq _ val (show 0 < 2 ^ 16 by decide) (show 8 ≤ 16 by decide)] at hrest
  have hfit := (Option.ite_none_right_eq_some.mp hrest).1
  rw [List.length_drop] at hfit
  omega

/-- `packet_write` touches as many bytes as the frame has. -/
theorem length_of_packetWrite {buffer frame : Buffer} {p : Packet}
    (h : packetWrite buffer p = some frame) : p.size.toNat + 4 ≤ buffer.length := by
  simp only [packetWrite, readCmd_eq, readParam_eq, Option.bind_eq_bind, Option.bind_some] at h
  obtain ⟨b₁, hcmd, h⟩ := Option.bind_eq_some_iff.mp h
  obtain ⟨b₂, hparam, h⟩ := Option.bind_eq_some_iff.mp h
  obtain ⟨b₃, hsize, h⟩ := Option.bind_eq_some_iff.mp h
  obtain ⟨b₄, hdata, hchecksum⟩ := Option.bind_eq_some_iff.mp h
  have h₁ : b₁.length = buffer.length := inPlace_writeBitValue 0 _ (by decide) buffer b₁ hcmd
  have h₂ : b₂.length = b₁.length := inPlace_writeBitValue 4 _ (by decide) b₁ b₂ hparam
  have h₃ : b₃.length = b₂.length :=
    (inPlace_writeBitValue 0 p.size (by decide)).atPtr 1 b₂ b₃ hsize
  have h₄ : b₄.length = b₃.length := inPlace_writeData p.data _ b₃ b₄ hdata
  have hroom := lt_length_of_atPtr hchecksum
  omega

/-- `connection_write` stays inside the memory it allocates if and only if the size of the frame
fits a `uint16_t`. -/
theorem connectionWrite_isSome_iff {p : Packet} (hdata : p.size.toNat ≤ p.data.length) :
    (connectionWrite p).isSome ↔ p.size.toNat + 4 < 2 ^ 16 := by
  constructor
  · intro hsome
    obtain ⟨frame, hframe⟩ := Option.isSome_iff_exists.mp hsome
    have hwrap : (p.size.toNat + 4) % 2 ^ 16 < 2 ^ 16 := Nat.mod_lt _ (by decide)
    simp only [connectionWrite, initPacket_mod (malloc _) (p.size.toNat + 4),
      initPacket_malloc hwrap, Option.bind_eq_bind, Option.bind_some] at hframe
    have hroom := length_of_packetWrite hframe
    rw [length_zeros] at hroom
    omega
  · intro hword
    rw [connectionWrite_eq hdata hword]
    rfl

/-- A checksum is computed over as many bytes as the packet says it has. -/
theorem computeChecksum_isSome_iff (p : Packet) :
    (computeChecksum p).isSome ↔ p.size.toNat ≤ p.data.length := by
  constructor
  · intro hsome
    have hturn : ∀ (i : Nat) (sum : Byte), (p.data[i]?.map fun b => sum + b) =
        if i < p.data.length then some (sum + p.data.getD i 0) else none := by
      intro i sum
      by_cases hi : i < p.data.length <;> simp [hi]
    have hloop := foldlM_guarded (fun (sum : Byte) i => sum + p.data.getD i 0)
      (μ := fun _ => p.data.length) (P := fun n i => i < n) (List.range p.size.toNat)
      (fun i _ sum => hturn i sum) (fun _ _ => rfl)
    simp only [computeChecksum, hloop, Option.isSome_map] at hsome
    split at hsome
    · rename_i hall
      rcases Nat.eq_zero_or_pos p.size.toNat with hzero | hpos
      · omega
      · have hlast := hall (p.size.toNat - 1) (List.mem_range.mpr (by omega))
        omega
    · cases hsome
  · intro hdata
    rw [computeChecksum_eq hdata]
    rfl

/-- `send_packet` stays inside its memory if and only if the data of the packet is there and the
size of the frame fits a `uint16_t`. -/
theorem sendPacket_isSome_iff (p : Packet) :
    (sendPacket p).isSome ↔ p.size.toNat ≤ p.data.length ∧ p.size.toNat + 4 < 2 ^ 16 := by
  constructor
  · intro hsome
    rw [sendPacket, Option.bind_eq_bind] at hsome
    have hchecksum := Option.isSome_of_isSome_bind hsome
    have hdata := (computeChecksum_isSome_iff p).mp hchecksum
    rw [computeChecksum_eq hdata, Option.bind_some] at hsome
    exact ⟨hdata, (connectionWrite_isSome_iff (p := { p with checksum := checksumOf p })
      hdata).mp hsome⟩
  · rintro ⟨hdata, hword⟩
    rw [sendPacket_eq hdata hword]
    rfl

/-! ## The value returned -/

/-- What `connection_write` returns when `write` has returned `written`. -/
def connectionWriteResult (written : Int) : Int :=
  let nbBytes := (BitVec.ofInt 16 written).toInt
  if nbBytes = -1 then -1 else nbBytes

theorem connectionWriteResult_eq_toInt (written : Int) :
    connectionWriteResult written = (BitVec.ofInt 16 written).toInt := by
  simp only [connectionWriteResult, ite_eq_right_iff]
  exact fun herror => herror.symm

theorem connectionWriteResult_eq {written : Int} (hlow : -1 ≤ written) (hhigh : written < 2 ^ 15) :
    connectionWriteResult written = written := by
  rw [connectionWriteResult_eq_toInt]
  exact BitVec.toInt_ofInt_eq_self (by decide) (by omega) hhigh

theorem connectionWriteResult_lt (written : Int) : connectionWriteResult written < 2 ^ 15 := by
  rw [connectionWriteResult_eq_toInt]
  exact BitVec.toInt_lt

/-- `connection_write` does what it is for: it clears room for the whole frame, hands the encoded
bytes to `write`, returns their number if `write` takes them all, and `-1` only if `write` did. -/
structure WritesPacket (p : Packet) : Prop where
  room : initPacket (malloc ((p.size.toNat + 4) % 2 ^ 16)) (p.size.toNat + 4) =
    some (zeros (p.size.toNat + 4))
  bytes : ∃ frame, connectionWrite p = some frame ∧
    packetWrite (zeros (p.size.toNat + 4)) p = some frame ∧ frame.length = p.size.toNat + 4
  returns : connectionWriteResult (p.size.toNat + 4) = p.size.toNat + 4
  error : ∀ written : Int, written = -1 ∨ 0 ≤ written ∧ written ≤ p.size.toNat + 4 →
    connectionWriteResult written = -1 → written = -1

theorem writesPacket_iff {p : Packet} (hdata : p.size.toNat ≤ p.data.length) :
    WritesPacket p ↔ p.size.toNat + 4 < 2 ^ 15 := by
  constructor
  · intro h
    have hlt := connectionWriteResult_lt (p.size.toNat + 4)
    rw [h.returns] at hlt
    omega
  · intro hshort
    have hword : p.size.toNat + 4 < 2 ^ 16 := by omega
    refine ⟨?_, ⟨frameOf p, connectionWrite_eq hdata hword, packetWrite_zeros hdata,
      length_frameOf hdata⟩, ?_, ?_⟩
    · rw [Nat.mod_eq_of_lt hword, initPacket_malloc hword]
    · exact connectionWriteResult_eq (by omega) (by omega)
    · intro written hwritten hresult
      rw [connectionWriteResult_eq (by omega) (by omega)] at hresult
      exact hresult

theorem writesPacket_ping :
    WritesPacket { header := 0x20#8, size := 1#16, data := [7#8], checksum := 0xD7#8 } :=
  (writesPacket_iff (p := { header := 0x20#8, size := 1#16, data := [7#8], checksum := 0xD7#8 })
    (by decide)).mpr (by decide)

/-- `write` takes the 65535 bytes of the frame, and `connection_write` reports an error. -/
theorem not_writesPacket_large :
    ¬ WritesPacket
      { header := 0x20#8, size := 65531#16, data := zeros 65531, checksum := 0#8 } := by
  intro h
  have hreturns : connectionWriteResult 65535 = 65535 := h.returns
  exact absurd hreturns (by decide)

end PinProtocol
