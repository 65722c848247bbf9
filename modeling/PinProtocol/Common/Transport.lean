import PinProtocol.Common.Connection
import PinProtocol.Common.PacketCodec

/-!
# Transport — a packet from one end to the other

What `send_packet` writes is one frame with a valid checksum, and `connection_read` recovers the
packet from any chunk that starts with that frame.
-/

namespace PinProtocol

open Bits Control

/-! ## Checksums -/

/-- The checksum that belongs to a packet. -/
def checksumOf (p : Packet) : Byte :=
  ~~~((p.data.take p.size.toNat).foldl (· + ·)
    (p.header + p.size.setWidth 8 + (p.size >>> 8).setWidth 8))

theorem computeChecksum_eq {p : Packet} (hdata : p.size.toNat ≤ p.data.length) :
    computeChecksum p = some (checksumOf p) := by
  have hloop : ∀ n ≤ p.data.length, ∀ s : Byte,
      (List.range n).foldlM (fun sum i => p.data[i]?.map fun b => sum + b) s =
        some ((p.data.take n).foldl (· + ·) s) := by
    intro n hn s
    induction n with
    | zero => simp
    | succ n ih =>
        have hlt : n < p.data.length := by omega
        rw [List.range_succ, List.foldlM_append, ih (by omega), ← List.take_append_getElem hlt,
          List.foldl_append]
        simp [hlt]
  simp only [computeChecksum, hloop _ hdata, Option.map_some]
  rfl

theorem packetValid_eq {p : Packet} (hdata : p.size.toNat ≤ p.data.length) :
    packetValid p = some (checksumOf p == p.checksum) := by
  simp [packetValid, computeChecksum_eq hdata]

/-! ## One packet, sent and received -/

/-- The packet that arrives when `p` has been sent. -/
def delivered (p : Packet) : Packet :=
  { p with data := p.data.take p.size.toNat, checksum := checksumOf p }

@[simp] theorem header_delivered (p : Packet) : (delivered p).header = p.header := rfl

@[simp] theorem size_delivered (p : Packet) : (delivered p).size = p.size := rfl

@[simp] theorem data_delivered (p : Packet) :
    (delivered p).data = p.data.take p.size.toNat := rfl

theorem checksumOf_congr {p q : Packet} (hheader : p.header = q.header) (hsize : p.size = q.size)
    (hdata : p.data.take p.size.toNat = q.data.take q.size.toNat) :
    checksumOf p = checksumOf q := by
  rw [checksumOf, checksumOf, hdata, hheader, hsize]

/-- Only the first `size` bytes of the data matter. -/
theorem delivered_congr {p q : Packet} (hheader : p.header = q.header) (hsize : p.size = q.size)
    (hdata : p.data.take p.size.toNat = q.data.take q.size.toNat) : delivered p = delivered q := by
  rw [delivered, delivered, checksumOf_congr hheader hsize hdata, hdata, hheader, hsize]

theorem checksumOf_delivered (p : Packet) : checksumOf (delivered p) = checksumOf p :=
  checksumOf_congr rfl rfl (by simp [List.take_take])

theorem packetValid_delivered {p : Packet} (hdata : p.size.toNat ≤ p.data.length) :
    packetValid (delivered p) = some true := by
  have hsize : (delivered p).size.toNat ≤ (delivered p).data.length := by simp [hdata]
  rw [packetValid_eq hsize, checksumOf_delivered]
  simp [delivered]

theorem connectionWrite_eq {p : Packet} (hdata : p.size.toNat ≤ p.data.length)
    (hword : p.size.toNat + 4 < 2 ^ 16) : connectionWrite p = some (frameOf p) := by
  simp only [connectionWrite, Nat.mod_eq_of_lt hword, initPacket_malloc hword, Option.bind_eq_bind,
    Option.bind_some, packetWrite_zeros hdata]

/-- `send_packet` writes the frame of the packet that will arrive. -/
theorem sendPacket_eq {p : Packet} (hdata : p.size.toNat ≤ p.data.length)
    (hword : p.size.toNat + 4 < 2 ^ 16) : sendPacket p = some (frameOf (delivered p)) := by
  have hframe : frameOf { p with checksum := checksumOf p } = frameOf (delivered p) := by
    simp [frameOf, delivered, List.take_take]
  simp only [sendPacket, computeChecksum_eq hdata, Option.bind_eq_bind, Option.bind_some]
  rw [connectionWrite_eq (p := { p with checksum := checksumOf p }) hdata hword, hframe]

/-- Whatever follows the frame of a packet in the chunk, `connection_read` returns that packet. -/
theorem connectionRead_frameOf (b : Build) {p : Packet} (hdata : p.size.toNat = p.data.length)
    (rest : Buffer) : connectionRead b (frameOf p ++ rest) = some (.packet p) := by
  have hlen : ¬ (frameOf p ++ rest).length < overheadSize := by
    simp [length_frameOf (Nat.le_of_eq hdata), overheadSize]
    omega
  have hread := packetRead_frameOf (Nat.le_of_eq hdata)
    (rest ++ zeros (b.buffSize - (frameOf p ++ rest).length))
  have hall : p.data.take p.size.toNat = p.data := by rw [hdata, List.take_length]
  simp only [connectionRead, hlen, if_false, List.append_assoc, hread, hall, Option.map_some]

theorem connectionRead_delivered (b : Build) {p : Packet} (hdata : p.size.toNat ≤ p.data.length) :
    connectionRead b (frameOf (delivered p)) = some (.packet (delivered p)) := by
  have h := connectionRead_frameOf b (p := delivered p) (by simp [hdata]) []
  rwa [List.append_nil] at h

theorem length_frameOf_delivered {p : Packet} (hdata : p.size.toNat ≤ p.data.length) :
    (frameOf (delivered p)).length = p.size.toNat + 4 := by
  rw [length_frameOf (by simp [hdata]), size_delivered]

end PinProtocol
