import Mathlib.Algebra.BigOperators.Group.List.Basic
import Mathlib.Data.BitVec
import PinProtocol.Common.Sending

/-!
# Checksum — the checksum of a packet as a law of its frame

`compute_checksum` runs over the header, the two bytes of the size and the data; `packet_valid`
compares its complement with the checksum byte.  On the wire this is one equation: the bytes of a
frame add up to 255 modulo 256.  A change of one byte breaks it.
-/

namespace PinProtocol

open Bits Control

/-! ## Sums of words -/

section Sums

variable {w : Nat}

theorem foldl_add_eq_sum (s : BitVec w) (xs : List (BitVec w)) :
    xs.foldl (· + ·) s = (s :: xs).sum := by
  rw [List.sum_eq_foldl, List.foldl_cons, zero_add]

theorem toNat_sum (xs : List (BitVec w)) :
    xs.sum.toNat = (xs.map BitVec.toNat).sum % 2 ^ w := by
  induction xs with
  | nil => simp
  | cons x xs ih => simp [ih]

/-- A list with one word changed has another sum. -/
theorem sum_set_ne {xs : List (BitVec w)} {i : Nat} (hi : i < xs.length) {x : BitVec w}
    (hx : xs[i] ≠ x) : (xs.set i x).sum ≠ xs.sum := by
  rw [List.sum_set', dif_pos hi]
  intro hsame
  have hzero : -xs[i] + x = 0 := by simpa using hsame
  exact hx (neg_add_eq_zero.mp hzero)

end Sums

/-! ## Frames -/

theorem not_eq_iff_add_eq (x y : Byte) : ~~~x = y ↔ x + y = 255#8 := by
  have hones : x + ~~~x = 255#8 := BitVec.add_not_self x
  constructor
  · rintro rfl
    exact hones
  · intro hsum
    have hcancel : x + ~~~x = x + y :=
      calc x + ~~~x = 255#8 := hones
        _ = x + y := hsum.symm
    exact add_left_cancel hcancel

theorem sum_frameOf (p : Packet) :
    (frameOf p).sum =
      (p.data.take p.size.toNat).foldl (· + ·) (p.header + loByte p.size + hiByte p.size) +
        p.checksum := by
  rw [foldl_add_eq_sum]
  simp only [frameOf, List.sum_cons, List.sum_append, List.sum_nil, add_zero]
  ring

/-- The checksum field itself is not summed. -/
theorem packetValid_with_checksum {p : Packet} (hdata : p.size.toNat ≤ p.data.length)
    (checksum : Byte) :
    packetValid { p with checksum } = some (checksumOf p == checksum) :=
  packetValid_eq (p := { p with checksum }) hdata

/-- A packet is valid if and only if the bytes of its frame add up to 255. -/
theorem packetValid_eq_sum {p : Packet} (hdata : p.size.toNat ≤ p.data.length) :
    packetValid p = some ((frameOf p).sum == 255#8) := by
  have hiff : checksumOf p = p.checksum ↔ (frameOf p).sum = 255#8 := by
    rw [sum_frameOf]
    exact not_eq_iff_add_eq _ _
  rw [packetValid_eq hdata, Option.some_inj, Bool.eq_iff_iff, beq_iff_eq, beq_iff_eq]
  exact hiff

theorem packetValid_iff_bytes {p : Packet} (hdata : p.size.toNat ≤ p.data.length) :
    packetValid p = some true ↔ ((frameOf p).map BitVec.toNat).sum % 256 = 255 := by
  rw [packetValid_eq_sum hdata, Option.some_inj, beq_iff_eq, ← BitVec.toNat_inj, toNat_sum]
  rfl

/-- A valid packet with one byte of its frame changed is not valid any more. -/
theorem packetValid_of_frameOf_set {p q : Packet} (hdata : p.size.toNat ≤ p.data.length)
    (hdata' : q.size.toNat ≤ q.data.length) (hvalid : packetValid p = some true) {i : Nat}
    (hi : i < (frameOf p).length) {b : Byte} (hb : (frameOf p)[i] ≠ b)
    (hq : frameOf q = (frameOf p).set i b) : packetValid q = some false := by
  rw [packetValid_eq_sum hdata, Option.some_inj, beq_iff_eq] at hvalid
  have hne := sum_set_ne hi hb
  rw [hvalid] at hne
  rw [packetValid_eq_sum hdata', hq, Option.some_inj, beq_eq_false_iff_ne]
  exact hne

section Changes

variable {p : Packet} (hdata : p.size.toNat ≤ p.data.length) (hvalid : packetValid p = some true)
include hdata hvalid

theorem packetValid_header_changed {header : Byte} (hne : header ≠ p.header) :
    packetValid { p with header } = some false := by
  have hi : 0 < (frameOf p).length := by simp [frameOf]
  exact packetValid_of_frameOf_set hdata hdata hvalid hi (b := header) hne.symm rfl

theorem packetValid_data_changed {i : Nat} (hi : i < p.size.toNat) {b : Byte}
    (hne : p.data[i]? ≠ some b) : packetValid { p with data := p.data.set i b } = some false := by
  have hlen := length_frameOf hdata
  have hpos : i + 3 < (frameOf p).length := by omega
  -- the data starts behind the header and the two bytes of the size
  have hget : (frameOf p)[i + 3]? = p.data[i]? := by
    simp only [frameOf, List.getElem?_cons_succ]
    rw [List.getElem?_append_left (by simp; omega), List.getElem?_take_of_lt hi]
  have hbyte : (frameOf p)[i + 3] ≠ b := by
    intro heq
    rw [List.getElem?_eq_getElem hpos, heq] at hget
    exact hne hget.symm
  refine packetValid_of_frameOf_set hdata (by simpa using hdata) hvalid hpos hbyte ?_
  have htake : (p.data.set i b).take p.size.toNat = (p.data.take p.size.toNat).set i b :=
    List.take_set
  have hset : ((p.data.take p.size.toNat) ++ [p.checksum]).set i b =
      (p.data.take p.size.toNat).set i b ++ [p.checksum] :=
    List.set_append_left i b (by simp; omega)
  simp only [frameOf, List.set_cons_succ, htake, hset]

theorem packetValid_checksum_changed {checksum : Byte} (hne : checksum ≠ p.checksum) :
    packetValid { p with checksum } = some false := by
  rw [packetValid_eq hdata, Option.some_inj, beq_iff_eq] at hvalid
  rw [packetValid_with_checksum hdata, Option.some_inj, beq_eq_false_iff_ne, hvalid]
  exact hne.symm

end Changes

/-- The bytes that `send_packet` writes add up to 255. -/
theorem sum_of_sendPacket {p : Packet} {frame : Buffer} (h : sendPacket p = some frame) :
    (frame.map BitVec.toNat).sum % 256 = 255 := by
  have hsome : (sendPacket p).isSome := Option.isSome_of_mem h
  obtain ⟨hdata, hword⟩ := (sendPacket_isSome_iff p).mp hsome
  rw [sendPacket_eq hdata hword, Option.some_inj] at h
  -- what is sent is the frame of the packet with its checksum put in
  rw [← h]
  exact (packetValid_iff_bytes (by simp [hdata])).mp (packetValid_delivered hdata)

/-- What the checksum promises about every packet. -/
structure ChecksumLaw (p : Packet) : Prop where
  /-- The bytes that `packet_write` puts into a cleared buffer tell whether the packet is valid. -/
  wire : ∃ frame, packetWrite (zeros (p.size.toNat + 4)) p = some frame ∧
    (packetValid p = some true ↔ (frame.map BitVec.toNat).sum % 256 = 255)
  /-- `send_packet` makes the packet valid before it is written, so the bytes on the wire add up
  to 255. -/
  sent : ∃ checksum, computeChecksum p = some checksum ∧
    sendPacket p = connectionWrite { p with checksum } ∧
    packetValid { p with checksum } = some true ∧
    ∀ frame, sendPacket p = some frame → (frame.map BitVec.toNat).sum % 256 = 255
  header : packetValid p = some true →
    ∀ header, header ≠ p.header → packetValid { p with header } = some false
  data : packetValid p = some true → ∀ i < p.size.toNat, ∀ b, p.data[i]? ≠ some b →
    packetValid { p with data := p.data.set i b } = some false
  checksum : packetValid p = some true →
    ∀ checksum, checksum ≠ p.checksum → packetValid { p with checksum } = some false

theorem checksum_law {p : Packet} (hdata : p.size.toNat ≤ p.data.length) : ChecksumLaw p where
  wire := ⟨frameOf p, packetWrite_zeros hdata, packetValid_iff_bytes hdata⟩
  sent := by
    refine ⟨checksumOf p, computeChecksum_eq hdata, ?_, ?_, fun _ => sum_of_sendPacket⟩
    · simp only [sendPacket, computeChecksum_eq hdata, Option.bind_eq_bind, Option.bind_some]
    · simp [packetValid_with_checksum hdata]
  header := fun hvalid _ hne => packetValid_header_changed hdata hvalid hne
  data := fun hvalid _ hi _ hne => packetValid_data_changed hdata hvalid hi hne
  checksum := fun hvalid _ hne => packetValid_checksum_changed hdata hvalid hne

theorem checksum_law_ping :
    ChecksumLaw { header := 0x20#8, size := 1#16, data := [7#8], checksum := 0xD7#8 } :=
  checksum_law (p := { header := 0x20#8, size := 1#16, data := [7#8], checksum := 0xD7#8 })
    (by decide)

end PinProtocol
