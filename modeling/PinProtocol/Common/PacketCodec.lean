import PinProtocol.Common.Arrays
import PinProtocol.Common.Protocol

/-!
# PacketCodec — frames as byte lists

`packet_write` and `packet_read` go through the bit accessors; on byte lists they are a plain
concatenation (`packetWrite_eq`) and its inverse (`packetRead_append`).
-/

namespace PinProtocol

open Bits Control

/-! ## The fields of a frame -/

def hiByte (size : BitVec 16) : Byte :=
  (size >>> 8).setWidth 8

def loByte (size : BitVec 16) : Byte :=
  size.setWidth 8

/-- The size that two bytes stand for, most significant byte first. -/
def sizeOfBytes (hi lo : Byte) : BitVec 16 :=
  BitVec.ofNat 16 (hi.toNat * 2 ^ 8 + lo.toNat)

theorem sizeOfBytes_hiByte_loByte (size : BitVec 16) :
    sizeOfBytes (hiByte size) (loByte size) = size := by
  refine BitVec.eq_of_toNat_eq ?_
  have hsize : size.toNat < 2 ^ 16 := size.isLt
  simp [sizeOfBytes, hiByte, loByte, Nat.shiftRight_eq_div_pow]
  omega

theorem hiByte_sizeOfBytes (hi lo : Byte) : hiByte (sizeOfBytes hi lo) = hi := by
  refine BitVec.eq_of_toNat_eq ?_
  have hhi : hi.toNat < 2 ^ 8 := hi.isLt
  have hlo : lo.toNat < 2 ^ 8 := lo.isLt
  simp [sizeOfBytes, hiByte, Nat.shiftRight_eq_div_pow]
  omega

theorem loByte_sizeOfBytes (hi lo : Byte) : loByte (sizeOfBytes hi lo) = lo := by
  refine BitVec.eq_of_toNat_eq ?_
  have hlo : lo.toNat < 2 ^ 8 := lo.isLt
  simp [sizeOfBytes, loByte]
  omega

/-- The bytes of a packet on the wire. -/
def frameOf (p : Packet) : Buffer :=
  p.header :: hiByte p.size :: loByte p.size :: (p.data.take p.size.toNat ++ [p.checksum])

theorem length_frameOf {p : Packet} (h : p.size.toNat ≤ p.data.length) :
    (frameOf p).length = p.size.toNat + 4 := by
  simp [frameOf, Nat.min_eq_left h]

/-! ## Writing -/

theorem writeByte_eq (x : Byte) (rest : Buffer) (val : BitVec 16) :
    writeBitValue (x :: rest) 0 val 8 = some ((x ||| val.setWidth 8) :: rest) := by
  simp [writeBitValue, writeBitLoop, orByte]

theorem writeByte_zero (b : Byte) (rest : Buffer) :
    writeBitValue (0#8 :: rest) 0 (b.setWidth 16) 8 = some (b :: rest) := by
  simp [writeByte_eq]

theorem writeDataSize_eq (x : Byte) (rest : Buffer) (size : BitVec 16) :
    writeDataSize (x :: 0#8 :: 0#8 :: rest) size =
      some (x :: hiByte size :: loByte size :: rest) := by
  have hhi : (size.sshiftRight 8).setWidth 8 = hiByte size := by
    refine BitVec.eq_of_getLsbD_eq fun i hi => ?_
    have hsum : 8 + i < 16 := by omega
    simp [hiByte, BitVec.getLsbD_sshiftRight, hi, hsum]
    omega
  have hlo : (size - size.sshiftRight 8 <<< 8).setWidth 8 = loByte size := by
    refine BitVec.eq_of_getLsbD_eq fun i hi => ?_
    simp only [loByte, BitVec.getLsbD_setWidth, getLsbD_sub_high size (show 8 < 16 by decide)]
    simp [hi]
  simp [writeDataSize, atPtr, writeBitValue, writeBitLoop, orByte, hhi, hlo]

theorem atPtr_append (front rest : Buffer) {k : Nat} (hk : front.length = k)
    (f : Buffer → Option Buffer) : atPtr (front ++ rest) k f = (f rest).map (front ++ ·) := by
  subst hk
  simp [atPtr]

/-- `write_data` into a cleared stretch behind `front`. -/
theorem writeData_eq (front : Buffer) (hfront : front.length = 3) {data : Buffer} {n : Nat}
    (hn : n ≤ data.length) (rest : Buffer) :
    writeData (front ++ (zeros n ++ rest)) data n = some (front ++ (data.take n ++ rest)) := by
  -- after k bytes the field holds them, and zeros for the others
  have hloop : ∀ k ≤ n, (List.range k).foldlM
      (fun p i => data[i]?.bind fun b =>
        atPtr p (3 + i) fun p => writeBitValue p 0 (b.setWidth 16) 8)
      (front ++ (zeros n ++ rest)) = some (front ++ (data.take k ++ (zeros (n - k) ++ rest))) := by
    intro k hk
    induction k with
    | zero => simp
    | succ k ih =>
        have hlt : k < data.length := by omega
        -- the byte is or-ed into a byte that is still clear
        have hclear : zeros (n - k) = 0#8 :: zeros (n - (k + 1)) := by
          have hsucc : n - k = n - (k + 1) + 1 := by omega
          rw [hsucc]
          rfl
        have hpos : (front ++ data.take k).length = 3 + k := by simp; omega
        have hstep := atPtr_append (front ++ data.take k) (zeros (n - k) ++ rest) hpos
          fun p => writeBitValue p 0 (data[k].setWidth 16) 8
        rw [hclear, List.cons_append, writeByte_zero, ← List.cons_append, ← hclear,
          List.append_assoc] at hstep
        rw [List.range_succ, List.foldlM_append, ih (by omega)]
        simp only [Option.bind_eq_bind, Option.bind_some, List.foldlM_cons, List.foldlM_nil,
          List.getElem?_eq_getElem hlt, hstep]
        rw [← List.take_append_getElem hlt]
        simp only [Option.map_some, List.append_assoc, List.singleton_append]
        rfl
  have hdone := hloop n (Nat.le_refl n)
  rw [Nat.sub_self] at hdone
  exact hdone

/-! ### The header -/

theorem readCmd_eq (header : Byte) (rest : Buffer) :
    readCmd (header :: rest) = some (header >>> 4) := by
  have hbits : ((header >>> 4 <<< 4).setWidth 16 >>> 4).setWidth 8 = header >>> 4 := by
    refine BitVec.eq_of_getLsbD_eq fun i hi => ?_
    by_cases hlow : 4 + i < 8
    · have hwide : 4 + i < 16 := by omega
      simp [hi, hlow, hwide]
    · simp [hlow, BitVec.getLsbD_of_ge header (4 + i) (by omega)]
  simpa [readCmd, readBitValue, readBitLoop] using hbits

theorem readParam_eq (header : Byte) (rest : Buffer) :
    readParam (header :: rest) = some (header &&& 15#8) := by
  have hmask : ∀ i < 8, (15#8).getLsbD i = decide (i < 4) := by decide
  have hbits : ((header <<< 4 >>> 4).setWidth 16).setWidth 8 = header &&& 15#8 := by
    refine BitVec.eq_of_getLsbD_eq fun i hi => ?_
    rw [BitVec.getLsbD_and, hmask i hi]
    by_cases hlow : i < 4
    · have hsum : 4 + i < 8 := by omega
      have hwide : 4 + i < 16 := by omega
      simp [hi, hlow, hsum, hwide, show i < 16 by omega]
    · simp [hlow, show ¬ 4 + i < 8 by omega]
  simpa [readParam, readBitValue, readBitLoop] using hbits

theorem writeHeader_eq (header : Byte) (rest : Buffer) :
    (writeCmd (0#8 :: rest) (header >>> 4)).bind (fun p => writeParam p (header &&& 15#8)) =
      some (header :: rest) := by
  have hmask : ∀ i < 8, (15#8).getLsbD i = decide (i < 4) := by decide
  have hbits : ((header >>> 4).setWidth 16 <<< 4).setWidth 8 ||| (header &&& 15#8) = header := by
    refine BitVec.eq_of_getLsbD_eq fun i hi => ?_
    rw [BitVec.getLsbD_or, BitVec.getLsbD_and, hmask i hi]
    by_cases hlow : i < 4
    · simp [hlow]
    · have hidx : 4 + (i - 4) = i := by omega
      simp [hlow, hi, hidx, show i < 16 by omega, show i - 4 < 16 by omega]
  simpa [writeCmd, writeParam, writeBitValue, writeBitLoop, orByte] using hbits

/-- `packet_write` into a buffer of which the first `size + 4` bytes have been cleared. -/
theorem packetWrite_eq {p : Packet} (hdata : p.size.toNat ≤ p.data.length) (rest : Buffer) :
    packetWrite (zeros (p.size.toNat + 4) ++ rest) p = some (frameOf p ++ rest) := by
  have hsplit : zeros (p.size.toNat + 4) ++ rest =
      0#8 :: 0#8 :: 0#8 :: (zeros p.size.toNat ++ 0#8 :: rest) := by
    have hsum : p.size.toNat + 4 = p.size.toNat + 1 + 1 + 1 + 1 := by omega
    have hlast : zeros (p.size.toNat + 1) = zeros p.size.toNat ++ [0#8] :=
      List.replicate_succ'
    rw [← List.singleton_append (l := rest), ← List.append_assoc, ← hlast, hsum]
    rfl
  have hheader := writeHeader_eq p.header (0#8 :: 0#8 :: (zeros p.size.toNat ++ 0#8 :: rest))
  have hsize := writeDataSize_eq p.header (zeros p.size.toNat ++ 0#8 :: rest) p.size
  have hpayload := writeData_eq [p.header, hiByte p.size, loByte p.size] rfl hdata
    (0#8 :: rest)
  have hchecksum := atPtr_append
    (p.header :: hiByte p.size :: loByte p.size :: p.data.take p.size.toNat) (0#8 :: rest)
    (k := 3 + p.size.toNat) (by simp; omega)
    fun q => writeBitValue q 0 (p.checksum.setWidth 16) 8
  rw [writeByte_zero] at hchecksum
  simp only [List.cons_append, List.nil_append] at hpayload hchecksum
  rcases Option.bind_eq_some_iff.mp hheader with ⟨buffer, hcmd, hparam⟩
  simp only [packetWrite, readCmd_eq, readParam_eq, hsplit, hcmd, hparam, hsize, hpayload,
    Option.bind_eq_bind, Option.bind_some, writeChecksum, hchecksum]
  simp [frameOf]

/-- Into exactly enough cleared bytes, `packet_write` writes the frame. -/
theorem packetWrite_zeros {p : Packet} (hdata : p.size.toNat ≤ p.data.length) :
    packetWrite (zeros (p.size.toNat + 4)) p = some (frameOf p) := by
  have h := packetWrite_eq hdata []
  rwa [List.append_nil, List.append_nil] at h

/-! ## Reading -/

theorem readDataSize_eq (header hi lo : Byte) (rest : Buffer) :
    readDataSize (header :: hi :: lo :: rest) = some (sizeOfBytes hi lo) := by
  have hwin := window_add (bitAt (header :: hi :: lo :: rest)) 8 8 8
  have hhi := window_bitAt_byte (header :: hi :: lo :: rest) 1
  have hlo := window_bitAt_byte (header :: hi :: lo :: rest) 2
  simp only [List.getD_cons_succ, List.getD_cons_zero] at hhi hlo
  have hfit : 8 + max 16 1 ≤ 8 * (header :: hi :: lo :: rest).length := by simp; omega
  rw [readDataSize, readBitValue_eq (by decide) (by decide), if_pos hfit]
  simp [fieldRead, sizeOfBytes, hwin, hhi, hlo]

theorem readChecksum_eq (buffer : Buffer) (dataSize : Nat) :
    readChecksum buffer dataSize = buffer[3 + dataSize]? := by
  cases hdrop : buffer.drop (3 + dataSize) with
  | nil =>
      have hlen : buffer.length ≤ 3 + dataSize := List.drop_eq_nil_iff.mp hdrop
      simp [readChecksum, hdrop, readBitValue, readBitLoop, hlen]
  | cons b rest =>
      have hget : buffer[3 + dataSize]? = some b := by
        rw [← List.head?_drop, hdrop]
        rfl
      simp [readChecksum, hdrop, readBitValue, readBitLoop, hget]

/-- `packet_read` on a buffer that holds the first three bytes of a frame. -/
theorem packetRead_eq (header hi lo : Byte) (rest : Buffer) :
    packetRead (header :: hi :: lo :: rest) =
      (rest[(sizeOfBytes hi lo).toNat]?).map fun checksum =>
        { header, size := sizeOfBytes hi lo, data := rest.take (sizeOfBytes hi lo).toNat,
          checksum } := by
  have hidx : (header :: hi :: lo :: rest)[3 + (sizeOfBytes hi lo).toNat]? =
      rest[(sizeOfBytes hi lo).toNat]? := by
    rw [Nat.add_comm]
    rfl
  have hdrop : (header :: hi :: lo :: rest).drop 3 = rest := rfl
  simp only [packetRead, readDataSize_eq, readHeader, readChecksum_eq, readData, hidx, hdrop,
    Option.bind_eq_bind, Option.bind_some, List.getElem?_cons_zero]
  by_cases hlen : (sizeOfBytes hi lo).toNat < rest.length
  · have hfit : 3 + (sizeOfBytes hi lo).toNat ≤ rest.length + 1 + 1 + 1 := by omega
    simp [hfit, hlen]
  · simp [hlen]

/-- A frame is read back from the start of any buffer. -/
theorem packetRead_frameOf {p : Packet} (hdata : p.size.toNat ≤ p.data.length) (rest : Buffer) :
    packetRead (frameOf p ++ rest) = some { p with data := p.data.take p.size.toNat } := by
  have hlen : (p.data.take p.size.toNat).length = p.size.toNat := by simp [hdata]
  simp only [frameOf, List.cons_append, packetRead_eq, sizeOfBytes_hiByte_loByte]
  simp [hlen]

/-! ## Clearing a buffer -/

/-- `init_packet` clears the first `n` bytes, whatever the memory held before. -/
theorem initPacket_eq {mem : Buffer} {n : Nat} (hn : n ≤ mem.length) (hword : n < 2 ^ 16) :
    initPacket mem n = some (zeros n ++ mem.drop n) := by
  rw [initPacket, Nat.mod_eq_of_lt hword]
  exact storeAll_eq hn 0#8

/-- The size is a `uint16_t`. -/
theorem initPacket_mod (mem : Buffer) (n : Nat) :
    initPacket mem n = initPacket mem (n % 2 ^ 16) := by
  rw [initPacket, initPacket, Nat.mod_mod]

theorem initPacket_malloc {n : Nat} (hword : n < 2 ^ 16) :
    initPacket (malloc n) n = some (zeros n) := by
  have hlen : (malloc n).length = n := by simp [malloc]
  rw [initPacket_eq (by omega) hword, List.drop_of_length_le (by omega), List.append_nil]

/-! ## Both directions -/

/-- The frame at the start of a buffer is the frame of the packet that is read from it. -/
theorem frameOf_packetRead (header : Byte) {hi lo checksum : Byte} {rest : Buffer}
    (h : rest[(sizeOfBytes hi lo).toNat]? = some checksum) :
    frameOf { header, size := sizeOfBytes hi lo, data := rest.take (sizeOfBytes hi lo).toNat,
              checksum } =
      (header :: hi :: lo :: rest).take ((sizeOfBytes hi lo).toNat + 4) := by
  have htake : rest.take ((sizeOfBytes hi lo).toNat + 1) =
      rest.take (sizeOfBytes hi lo).toNat ++ [checksum] := by
    rw [List.take_add_one, h]
    rfl
  simp [frameOf, hiByte_sizeOfBytes, loByte_sizeOfBytes, htake, List.take_take]

theorem packet_write_read_inverse :
    (∀ (header : Byte) (data : Buffer) (checksum : Byte) (mem : Buffer),
      data.length ≤ 608 → data.length + 4 ≤ mem.length →
      ∃ cleared buffer,
        initPacket mem (data.length + 4) = some cleared ∧
        packetWrite cleared
          { header, size := BitVec.ofNat 16 data.length, data, checksum } = some buffer ∧
        packetRead buffer =
          some { header, size := BitVec.ofNat 16 data.length, data, checksum }) ∧
    (∀ (buffer : Buffer) (size : BitVec 16),
      readDataSize buffer = some size → size.toNat + 4 ≤ buffer.length →
      ∃ p, packetRead buffer = some p ∧
        ∀ rest, packetWrite (zeros (size.toNat + 4) ++ rest) p =
          some (buffer.take (size.toNat + 4) ++ rest)) := by
  refine ⟨fun header data checksum mem hdata hmem => ?_, fun buffer size hsize hlen => ?_⟩
  · -- the size field holds every length up to that of the largest packet
    have hword : (BitVec.ofNat 16 data.length).toNat = data.length := by
      simp
      omega
    have hclear := initPacket_eq hmem (by omega)
    have hwrite := packetWrite_eq
      (p := { header, size := BitVec.ofNat 16 data.length, data, checksum })
      (Nat.le_of_eq hword) (mem.drop (data.length + 4))
    have hread := packetRead_frameOf
      (p := { header, size := BitVec.ofNat 16 data.length, data, checksum })
      (Nat.le_of_eq hword) (mem.drop (data.length + 4))
    simp only [hword] at hwrite hread
    refine ⟨_, _, hclear, hwrite, ?_⟩
    rw [hread, List.take_length]
  · -- the declared size gives the buffer at least its first four bytes
    rcases buffer with _ | ⟨header, _ | ⟨hi, _ | ⟨lo, rest⟩⟩⟩
    · simp at hlen
    · simp at hlen
    · simp at hlen
    · have hdeclared : sizeOfBytes hi lo = size := by
        rw [readDataSize_eq] at hsize
        exact Option.some.inj hsize
      subst hdeclared
      have hidx : (sizeOfBytes hi lo).toNat < rest.length := by
        simp at hlen
        omega
      -- the checksum is the byte behind the declared data
      have hget := List.getElem?_eq_getElem hidx
      have hframe := frameOf_packetRead header hget
      refine ⟨_, by rw [packetRead_eq, hget]; rfl, fun more => ?_⟩
      have hwrite := packetWrite_eq
        (p :=
          { header
            size := sizeOfBytes hi lo
            data := rest.take (sizeOfBytes hi lo).toNat
            checksum := rest[(sizeOfBytes hi lo).toNat] })
        (by simp; omega) more
      rw [hframe] at hwrite
      exact hwrite

theorem packet_write_read_inverse_ping :
    (∃ cleared buffer, initPacket (malloc 9) 5 = some cleared ∧
      packetWrite cleared { header := 0x20#8, size := 1#16, data := [7#8], checksum := 0xD7#8 } =
        some buffer ∧
      packetRead buffer =
        some { header := 0x20#8, size := 1#16, data := [7#8], checksum := 0xD7#8 }) ∧
    ∃ p, packetRead [0x20#8, 0#8, 1#8, 7#8, 0xD7#8, 0x33#8] = some p ∧
      ∀ rest, packetWrite (zeros 5 ++ rest) p =
        some ([0x20#8, 0#8, 1#8, 7#8, 0xD7#8] ++ rest) :=
  ⟨packet_write_read_inverse.1 0x20#8 [7#8] 0xD7#8 (malloc 9) (by decide) (by decide),
    packet_write_read_inverse.2 [0x20#8, 0#8, 1#8, 7#8, 0xD7#8, 0x33#8] 1#16 (by decide)
      (by decide)⟩

end PinProtocol
