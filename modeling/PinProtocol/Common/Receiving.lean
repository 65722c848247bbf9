import PinProtocol.Common.Checksum

/-!
# Receiving — frames cut short and frames that declare too much

`connection_read` copies as many bytes as the size field of the frame declares; how many bytes
`read` has delivered is only used to discard chunks without a whole overhead.  The missing bytes
of a frame cut short are the zeros the buffer was cleared with, so a checksum byte of zero
completes it: what decides is the sum of the bytes that did arrive.
-/

namespace PinProtocol

open Bits Control

/-- The size that the second and third byte of a chunk declare. -/
def declaredSize (chunk : Buffer) : Nat :=
  (sizeOfBytes (chunk.getD 1 0#8) (chunk.getD 2 0#8)).toNat

/-- `connection_read` stays inside its buffer, and a packet it returns, if valid, is the whole of
the frame at the start of the chunk. -/
def ReceivesExactly (b : Build) (chunk : Buffer) : Prop :=
  ∃ r, connectionRead b chunk = some r ∧
    ∀ p, r = .packet p → packetValid p = some true →
      p.size.toNat + 4 ≤ chunk.length ∧
        packetWrite (zeros (p.size.toNat + 4)) p = some (chunk.take (p.size.toNat + 4))

theorem exists_eq_cons_three {chunk : Buffer} (hmin : 4 ≤ chunk.length) :
    ∃ header hi lo rest, chunk = header :: hi :: lo :: rest := by
  rcases chunk with _ | ⟨header, _ | ⟨hi, _ | ⟨lo, rest⟩⟩⟩
  · simp at hmin
  · simp at hmin
  · simp at hmin
  · exact ⟨header, hi, lo, rest, rfl⟩

section Chunks

variable {b : Build} {chunk : Buffer} (hmin : 4 ≤ chunk.length)
include hmin

theorem connectionRead_eq_packetRead :
    connectionRead b chunk =
      (packetRead (chunk ++ zeros (b.buffSize - chunk.length))).map .packet := by
  have hlen : ¬ chunk.length < overheadSize := by
    rw [overheadSize]
    omega
  rw [connectionRead, if_neg hlen]

/-- The frame of the packet that is read goes on with the padding where the chunk ends. -/
theorem connectionRead_of_fits (hmax : chunk.length ≤ b.buffSize)
    (hfit : declaredSize chunk + 4 ≤ b.buffSize) :
    ∃ p, connectionRead b chunk = some (.packet p) ∧ p.size.toNat = declaredSize chunk ∧
      p.size.toNat ≤ p.data.length ∧
      frameOf p = (chunk ++ zeros (b.buffSize - chunk.length)).take (declaredSize chunk + 4) := by
  rcases exists_eq_cons_three hmin with ⟨header, hi, lo, rest, rfl⟩
  have hsize : declaredSize (header :: hi :: lo :: rest) = (sizeOfBytes hi lo).toNat := rfl
  have hidx : (sizeOfBytes hi lo).toNat <
      (rest ++ zeros (b.buffSize - (header :: hi :: lo :: rest).length)).length := by
    simp only [List.length_append, length_zeros, List.length_cons] at hmax ⊢
    omega
  have hget := List.getElem?_eq_getElem hidx
  rw [connectionRead_eq_packetRead hmin, List.cons_append, List.cons_append, List.cons_append,
    packetRead_eq, hget]
  refine ⟨_, rfl, rfl, ?_, frameOf_packetRead header hget⟩
  simp only [List.length_take]
  omega

/-- A declared size that the buffer cannot hold is copied all the same. -/
theorem connectionRead_of_too_large (hmax : chunk.length ≤ b.buffSize)
    (hlarge : b.buffSize < declaredSize chunk + 4) : connectionRead b chunk = none := by
  rcases exists_eq_cons_three hmin with ⟨header, hi, lo, rest, rfl⟩
  have hsize : declaredSize (header :: hi :: lo :: rest) = (sizeOfBytes hi lo).toNat := rfl
  have hidx : (rest ++ zeros (b.buffSize - (header :: hi :: lo :: rest).length)).length ≤
      (sizeOfBytes hi lo).toNat := by
    simp only [List.length_append, length_zeros, List.length_cons] at hmax ⊢
    omega
  rw [connectionRead_eq_packetRead hmin, List.cons_append, List.cons_append, List.cons_append,
    packetRead_eq, List.getElem?_eq_none hidx]
  rfl

end Chunks

/-- Padding does not change the sum. -/
theorem sum_padded (chunk : Buffer) {n k : Nat} (hn : chunk.length ≤ n)
    (hk : n ≤ chunk.length + k) :
    ((chunk ++ zeros k).take n).sum = chunk.sum := by
  have hpad : (zeros k).take (n - chunk.length) = zeros (n - chunk.length) := by
    rw [zeros, zeros, List.take_replicate, Nat.min_eq_left (by omega)]
  have hzero : (zeros (n - chunk.length)).sum = 0 := by
    rw [zeros, List.sum_replicate]
    exact nsmul_zero _
  rw [List.take_append, List.take_of_length_le hn, hpad, List.sum_append, hzero, add_zero]

/-- What is left to check once a packet has been read: that its frame has arrived. -/
theorem receivesExactly_iff_of_packet {b : Build} {chunk : Buffer} {p : Packet}
    (hread : connectionRead b chunk = some (.packet p)) (hsize : p.size.toNat = declaredSize chunk)
    (hdata : p.size.toNat ≤ p.data.length)
    (hframe : frameOf p =
      (chunk ++ zeros (b.buffSize - chunk.length)).take (declaredSize chunk + 4)) :
    ReceivesExactly b chunk ↔
      (packetValid p = some true → declaredSize chunk + 4 ≤ chunk.length) := by
  constructor
  · rintro ⟨r, hr, hpacket⟩ hvalid
    rw [hread, Option.some_inj] at hr
    rw [← hsize]
    exact (hpacket p hr.symm hvalid).1
  · refine fun hwhole => ⟨.packet p, hread, fun q hq hvalid => ?_⟩
    cases hq
    have hle := hwhole hvalid
    -- nothing of the padding is among the bytes of the frame
    have hwrite := packetWrite_zeros hdata
    rw [hframe, List.take_append_of_le_length hle] at hwrite
    rw [hsize] at hwrite ⊢
    exact ⟨hle, hwrite⟩

/-- Receiving is exact if and only if the whole declared frame has arrived, or the frame fits the
buffer and the bytes that have arrived do not add up to 255. -/
theorem receivesExactly_iff {b : Build} {chunk : Buffer} (hmin : 4 ≤ chunk.length)
    (hmax : chunk.length ≤ b.buffSize) :
    ReceivesExactly b chunk ↔
      declaredSize chunk + 4 ≤ chunk.length ∨
        declaredSize chunk + 4 ≤ b.buffSize ∧ (chunk.map BitVec.toNat).sum % 256 ≠ 255 := by
  by_cases hfit : declaredSize chunk + 4 ≤ b.buffSize
  · rcases connectionRead_of_fits hmin hmax hfit with ⟨p, hread, hsize, hdata, hframe⟩
    have hexact := receivesExactly_iff_of_packet hread hsize hdata hframe
    by_cases hwhole : declaredSize chunk + 4 ≤ chunk.length
    · simp only [hexact, hwhole, true_or, implies_true]
    · -- cut short: the padding stands for the missing bytes
      have hsum : (frameOf p).sum = chunk.sum := by
        rw [hframe]
        exact sum_padded chunk (by omega) (by omega)
      have hbytes : packetValid p = some true ↔ (chunk.map BitVec.toNat).sum % 256 = 255 := by
        rw [packetValid_eq_sum hdata, hsum, Option.some_inj, beq_iff_eq, ← BitVec.toNat_inj,
          toNat_sum]
        rfl
      simp only [hexact, hwhole, hfit, hbytes, false_or, true_and, imp_false]
  · -- `packet_read` leaves the buffer, and nothing is received
    have hnone := connectionRead_of_too_large hmin hmax (Nat.lt_of_not_le hfit)
    refine iff_of_false ?_ ?_
    · rintro ⟨r, hr, -⟩
      rw [hnone] at hr
      cases hr
    · rintro (hwhole | ⟨hfits, -⟩)
      · omega
      · exact hfit hfits

theorem receivesExactly_ping : ReceivesExactly hostBuild [0x20#8, 0#8, 0#8, 0xDF#8] :=
  (receivesExactly_iff (by decide) (by decide)).mpr (Or.inl (by decide))

/-- A frame of five bytes, of which four arrive, is accepted; one that declares 65535 bytes makes
`connection_read` leave its buffer. -/
theorem not_receivesExactly_short :
    ¬ ReceivesExactly hostBuild [0x20#8, 0#8, 1#8, 0xDE#8] ∧
      ¬ ReceivesExactly hostBuild [0x20#8, 0xFF#8, 0xFF#8, 0#8] := by
  constructor
  · rintro ⟨r, hr, hpacket⟩
    obtain ⟨p, hread, hsize, hdata, hframe⟩ :=
      connectionRead_of_fits (b := hostBuild)
        (show 4 ≤ ([0x20#8, 0#8, 1#8, 0xDE#8] : Buffer).length by decide) (by decide) (by decide)
    have hvalid : packetValid p = some true := by
      rw [packetValid_eq_sum hdata, hframe, sum_padded _ (by decide) (by decide)]
      decide
    rw [hread, Option.some_inj] at hr
    have hle := (hpacket p hr.symm hvalid).1
    rw [hsize] at hle
    exact absurd hle (by decide)
  · rintro ⟨r, hr, -⟩
    rw [connectionRead_of_too_large (by decide) (by decide) (by decide)] at hr
    cases hr

end PinProtocol
