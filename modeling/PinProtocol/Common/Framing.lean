import Mathlib.Algebra.Order.BigOperators.Group.List
import Mathlib.Data.List.ReduceOption
import PinProtocol.Common.Transport
import PinProtocol.Control.Streams

/-!
# Framing — packets on a byte stream (`src/connection.c`, `firmware/src/io_utils.c`)

`connection_read` calls `read` once and keeps nothing of what it got, so a call depends on where
`read` cuts the stream.  On the host `read` returns any part of what is pending; the firmware's own
`read` waits for `BUFF_SIZE` bytes.
-/

namespace PinProtocol

open Bits Control

/-! ## The two ways to read -/

/-- The firmware's `read` of `n` bytes: each poll of the fifo finds a byte or nothing.  The result
is `none` when the polls are over and it still waits. -/
def fifoRead : Nat → List (Option Byte) → Option (Buffer × List (Option Byte))
  | 0, polls => some ([], polls)
  | _ + 1, [] => none
  | n + 1, none :: polls => fifoRead (n + 1) polls
  | n + 1, some b :: polls => (fifoRead n polls).map fun (buffer, rest) => (b :: buffer, rest)

/-- `read` may return `chunk` of the pending bytes and leave `rest`. -/
def ReadReturns (b : Build) (pending chunk rest : Buffer) : Prop :=
  if b.embedded then
    ∃ polls polls', polls.reduceOption = pending ∧
      fifoRead b.buffSize polls = some (chunk, polls') ∧ polls'.reduceOption = rest
  else pending = chunk ++ rest ∧ chunk ≠ [] ∧ chunk.length ≤ b.buffSize

/-- What successive calls of `read` return of a stream, up to the call that has to wait. -/
inductive Chunking (b : Build) : Buffer → List Buffer → Prop
  | blocked {pending : Buffer} (h : ∀ chunk rest, ¬ ReadReturns b pending chunk rest) :
      Chunking b pending []
  | read {pending chunk rest : Buffer} {chunks : List Buffer}
      (h : ReadReturns b pending chunk rest) (hrest : Chunking b rest chunks) :
      Chunking b pending (chunk :: chunks)

theorem reduceOption_map_some (bytes : Buffer) : (bytes.map some).reduceOption = bytes := by
  simp [List.reduceOption, List.filterMap_map]

/-- The polls hold the bytes that `read` returns, and those it leaves. -/
theorem fifoRead_eq_some {n : Nat} {polls polls' : List (Option Byte)} {buffer : Buffer}
    (h : fifoRead n polls = some (buffer, polls')) :
    polls.reduceOption = buffer ++ polls'.reduceOption ∧ buffer.length = n := by
  induction n, polls using fifoRead.induct generalizing buffer with
  | case1 polls =>
      simp only [fifoRead, Option.some.injEq, Prod.mk.injEq] at h
      rcases h with ⟨rfl, rfl⟩
      exact ⟨rfl, rfl⟩
  | case2 n => simp [fifoRead] at h
  | case3 n polls ih =>
      rw [List.reduceOption_cons_of_none]
      exact ih h
  | case4 n x polls ih =>
      simp only [fifoRead, Option.map_eq_some_iff, Prod.mk.injEq] at h
      rcases h with ⟨⟨tail, rest⟩, hread, rfl, rfl⟩
      rcases ih hread with ⟨hpolls, hlen⟩
      refine ⟨?_, by simp [hlen]⟩
      rw [List.reduceOption_cons_of_some, hpolls, List.cons_append]

/-- Enough bytes end the firmware's `read`. -/
theorem fifoRead_some (chunk rest : Buffer) :
    fifoRead chunk.length ((chunk ++ rest).map some) = some (chunk, rest.map some) := by
  induction chunk with
  | nil => simp [fifoRead]
  | cons x chunk ih =>
      simp only [List.length_cons, List.cons_append, List.map_cons, fifoRead, ih, Option.map_some]

theorem readReturns_host {b : Build} (hhost : b.embedded = false) {pending chunk rest : Buffer} :
    ReadReturns b pending chunk rest ↔
      pending = chunk ++ rest ∧ chunk ≠ [] ∧ chunk.length ≤ b.buffSize := by
  simp [ReadReturns, hhost]

/-- The firmware's `read` takes `BUFF_SIZE` bytes, however they arrive. -/
theorem readReturns_embedded {b : Build} (hembedded : b.embedded = true)
    {pending chunk rest : Buffer} :
    ReadReturns b pending chunk rest ↔ pending = chunk ++ rest ∧ chunk.length = b.buffSize := by
  rw [ReadReturns, if_pos hembedded]
  constructor
  · rintro ⟨polls, polls', rfl, hread, rfl⟩
    exact fifoRead_eq_some hread
  · rintro ⟨rfl, hlen⟩
    refine ⟨(chunk ++ rest).map some, rest.map some, reduceOption_map_some _, ?_,
      reduceOption_map_some _⟩
    rw [← hlen]
    exact fifoRead_some chunk rest

theorem ReadReturns.append {b : Build} {pending chunk rest : Buffer}
    (h : ReadReturns b pending chunk rest) : pending = chunk ++ rest := by
  cases hb : b.embedded with
  | false => exact ((readReturns_host hb).mp h).1
  | true => exact ((readReturns_embedded hb).mp h).1

theorem Chunking.front {b : Build} {stream : Buffer} {chunks : List Buffer}
    (h : Chunking b stream chunks) : chunks.flatten <+: stream := by
  induction h with
  | blocked => exact List.nil_prefix
  | read h _ ih =>
      rw [h.append, List.flatten_cons]
      exact (List.prefix_append_right_inj _).mpr ih

/-- On the host every pending byte is read. -/
theorem Chunking.flatten_host {b : Build} (hhost : b.embedded = false) {stream : Buffer}
    {chunks : List Buffer} (h : Chunking b stream chunks) : chunks.flatten = stream := by
  induction h with
  | @blocked pending h =>
      cases pending with
      | nil => rfl
      | cons x pending =>
          refine absurd ((readReturns_host hhost).mpr ⟨(List.singleton_append).symm, by simp, ?_⟩)
            (h [x] pending)
          simp [Build.buffSize, hhost]
  | read h _ ih => rw [h.append, List.flatten_cons, ih]

/-- On the firmware all chunks have the same length. -/
theorem Chunking.length_embedded {b : Build} (hembedded : b.embedded = true) {stream : Buffer}
    {chunks : List Buffer} (h : Chunking b stream chunks) :
    chunks.map List.length = List.replicate (stream.length / b.buffSize) b.buffSize := by
  have hpos : 0 < b.buffSize := by simp [Build.buffSize, hembedded]
  induction h with
  | @blocked pending h =>
      have hshort : pending.length < b.buffSize := by
        refine Nat.lt_of_not_le fun hlong => ?_
        refine h (pending.take b.buffSize) (pending.drop b.buffSize)
          ((readReturns_embedded hembedded).mpr ⟨(List.take_append_drop _ _).symm, ?_⟩)
        rw [List.length_take, Nat.min_eq_left hlong]
      rw [Nat.div_eq_of_lt hshort]
      rfl
  | read h _ ih =>
      rcases (readReturns_embedded hembedded).mp h with ⟨rfl, hlen⟩
      rw [List.map_cons, ih, List.length_append, hlen, Nat.add_div_left _ hpos,
        List.replicate_succ]

/-! ## Packets sent back to back -/

/-- The stream that `send_packet` leaves for a sequence of packets. -/
def sendAll (packets : List Packet) : Option Buffer :=
  (packets.mapM sendPacket).map List.flatten

/-- The frames of a sequence of packets. -/
def framesOf (packets : List Packet) : List Buffer :=
  packets.map fun p => frameOf (delivered p)

/-- Each call of `connection_read` returns the packet of its turn and takes no byte that comes after
that packet. -/
def Framed (b : Build) (packets : List Packet) (chunks : List Buffer) : Prop :=
  List.Forall₂
    (fun chunk p => connectionRead b chunk = some (.packet (delivered p)) ∧
      chunk.length ≤ p.size.toNat + overheadSize)
    chunks packets

theorem sendAll_eq {packets : List Packet}
    (hfit : ∀ p ∈ packets, p.size.toNat ≤ p.data.length ∧ p.size.toNat + 4 < 2 ^ 16) :
    sendAll packets = some (framesOf packets).flatten := by
  have hmap : packets.mapM sendPacket = some (framesOf packets) := by
    induction packets with
    | nil => rfl
    | cons p packets ih =>
        rcases hfit p List.mem_cons_self with ⟨hdata, hword⟩
        have htail := ih fun q hq => hfit q (List.mem_cons_of_mem _ hq)
        simp only [List.mapM_cons, sendPacket_eq hdata hword, htail, Option.bind_eq_bind,
          Option.bind_some]
        rfl
  rw [sendAll, hmap, Option.map_some]

/-- A chunk that yields a packet starts with the packet's frame, as far as the padding goes. -/
theorem startsWith_of_connectionRead {b : Build} {chunk : Buffer} {p : Packet}
    (h : connectionRead b chunk = some (.packet p)) : StartsWith 0#8 chunk (frameOf p) := by
  refine ⟨b.buffSize - chunk.length, ?_⟩
  by_cases hshort : chunk.length < overheadSize
  · simp [connectionRead, hshort] at h
  · rcases chunk with _ | ⟨header, _ | ⟨hi, _ | ⟨lo, rest⟩⟩⟩
    · simp [overheadSize] at hshort
    · simp [overheadSize] at hshort
    · simp [overheadSize] at hshort
    · simp only [connectionRead, if_neg hshort, List.cons_append, packetRead_eq,
        Option.map_map, Option.map_eq_some_iff, Function.comp_apply, Received.packet.injEq] at h
      rcases h with ⟨checksum, hget, rfl⟩
      rw [frameOf_packetRead header hget]
      exact List.take_prefix _ _

/-- No valid frame is blank: the checksum of nothing but zeros is not zero. -/
theorem marks_frameOf_delivered (p : Packet) : 0 < marks 0#8 (frameOf (delivered p)) := by
  refine Nat.pos_of_ne_zero fun hzero => ?_
  have hblank : ∀ x ∈ frameOf (delivered p), x = 0#8 := by
    intro x hx
    simpa using List.countP_eq_zero.mp hzero x hx
  have hheader : p.header = 0#8 := hblank _ (by simp [frameOf])
  have hhi : hiByte p.size = 0#8 := hblank _ (by simp [frameOf])
  have hlo : loByte p.size = 0#8 := hblank _ (by simp [frameOf])
  have hsize : p.size = 0#16 := by
    rw [← sizeOfBytes_hiByte_loByte p.size, hhi, hlo]
    rfl
  have hchecksum : checksumOf p = 0#8 := hblank _ (by simp [frameOf, delivered])
  simp [checksumOf, hheader, hsize] at hchecksum

theorem length_framesOf {packets : List Packet}
    (hdata : ∀ p ∈ packets, p.size.toNat ≤ p.data.length) :
    (framesOf packets).map List.length = packets.map fun p => p.size.toNat + overheadSize := by
  rw [framesOf, List.map_map]
  refine List.map_congr_left fun p hp => ?_
  exact length_frameOf_delivered (hdata p hp)

/-- On either end the chunks make up the whole stream, once every packet has come back. -/
theorem Framed.flatten {b : Build} {packets : List Packet} {chunks : List Buffer}
    (hframed : Framed b packets chunks)
    (hdata : ∀ p ∈ packets, p.size.toNat ≤ p.data.length)
    (hsize : ∀ p ∈ packets, p.size.toNat + overheadSize ≤ b.buffSize)
    (hchunks : Chunking b (framesOf packets).flatten chunks) :
    chunks.flatten = (framesOf packets).flatten := by
  cases hb : b.embedded with
  | false => exact hchunks.flatten_host hb
  | true =>
      refine hchunks.front.eq_of_length_le ?_
      -- as many chunks as frames, each of them full
      have hlen := hchunks.length_embedded hb
      have hcount : chunks.length = packets.length := hframed.length_eq
      have hfull := congrArg List.length hlen
      rw [List.length_map, List.length_replicate] at hfull
      have htotal : ∀ l : List Nat, (∀ n ∈ l, n ≤ b.buffSize) →
          l.sum ≤ l.length * b.buffSize := by
        intro l hl
        simpa using List.sum_le_card_nsmul l b.buffSize hl
      have hframes := htotal ((framesOf packets).map List.length) (by
        rw [length_framesOf hdata]
        intro n hn
        rcases List.mem_map.mp hn with ⟨p, hp, rfl⟩
        exact hsize p hp)
      rw [List.length_map, framesOf, List.length_map, ← framesOf, ← hcount] at hframes
      rw [List.length_flatten, List.length_flatten, hlen, List.sum_replicate_nat, ← hfull]
      exact hframes

theorem Framed.chunks_eq {b : Build} {packets : List Packet} {chunks : List Buffer}
    (hframed : Framed b packets chunks)
    (hflatten : chunks.flatten = (framesOf packets).flatten) : chunks = framesOf packets := by
  have hstarts : List.Forall₂ (StartsWith 0#8) chunks (framesOf packets) := by
    refine (List.forall₂_map_right_iff).mpr (hframed.imp fun chunk p h => ?_)
    exact startsWith_of_connectionRead h.1
  have hmark : ∀ frame ∈ framesOf packets, 0 < marks 0#8 frame := by
    intro frame hframe
    rcases List.mem_map.mp hframe with ⟨p, -, rfl⟩
    exact marks_frameOf_delivered p
  exact (chunks_eq_frames hstarts hmark (m := 0) (n := 0) hflatten).2

theorem framed_framesOf (b : Build) {packets : List Packet}
    (hdata : ∀ p ∈ packets, p.size.toNat ≤ p.data.length) :
    Framed b packets (framesOf packets) := by
  refine List.forall₂_map_left_iff.mpr (List.forall₂_same.mpr fun p hp => ?_)
  refine ⟨connectionRead_delivered b (hdata p hp), ?_⟩
  exact Nat.le_of_eq (length_frameOf_delivered (hdata p hp))

/-- Pieces of the same lengths of a list and of a prefix of it are the same pieces. -/
theorem eq_of_lengths {α : Type} {xs ys : List (List α)}
    (hlen : xs.map List.length = ys.map List.length) (hfront : xs.flatten <+: ys.flatten) :
    xs = ys := by
  refine List.eq_iff_flatten_eq.mpr ⟨hfront.eq_of_length ?_, hlen⟩
  rw [List.length_flatten, List.length_flatten, hlen]

theorem framed_iff_lengths {b : Build} {packets : List Packet} {chunks : List Buffer}
    (hdata : ∀ p ∈ packets, p.size.toNat ≤ p.data.length)
    (hsize : ∀ p ∈ packets, p.size.toNat + overheadSize ≤ b.buffSize)
    (hchunks : Chunking b (framesOf packets).flatten chunks) :
    Framed b packets chunks ↔
      chunks.map List.length = packets.map fun p => p.size.toNat + overheadSize := by
  constructor
  · intro hframed
    rw [hframed.chunks_eq (hframed.flatten hdata hsize hchunks), length_framesOf hdata]
  · intro hlen
    rw [← length_framesOf hdata] at hlen
    rw [eq_of_lengths hlen hchunks.front]
    exact framed_framesOf b hdata

/-- The firmware recovers packets of one size only: those that fill its buffer. -/
theorem framed_embedded_iff {b : Build} (hembedded : b.embedded = true) {packets : List Packet}
    {chunks : List Buffer} (hdata : ∀ p ∈ packets, p.size.toNat ≤ p.data.length)
    (hsize : ∀ p ∈ packets, p.size.toNat + overheadSize ≤ b.buffSize)
    (hchunks : Chunking b (framesOf packets).flatten chunks) :
    Framed b packets chunks ↔ ∀ p ∈ packets, p.size.toNat + overheadSize = b.buffSize := by
  have hlen := hchunks.length_embedded hembedded
  rw [framed_iff_lengths hdata hsize hchunks, hlen]
  constructor
  · intro heq p hp
    have hmem : p.size.toNat + overheadSize ∈
        packets.map fun p => p.size.toNat + overheadSize := List.mem_map_of_mem hp
    rw [← heq] at hmem
    exact List.eq_of_mem_replicate hmem
  · intro hfull
    have hpos : 0 < b.buffSize := by simp [Build.buffSize, hembedded]
    have hframes : (packets.map fun p => p.size.toNat + overheadSize) =
        List.replicate packets.length b.buffSize := by
      refine List.eq_replicate_iff.mpr ⟨List.length_map _, fun n hn => ?_⟩
      rcases List.mem_map.mp hn with ⟨p, hp, rfl⟩
      exact hfull p hp
    rw [List.length_flatten, length_framesOf hdata, hframes, List.sum_replicate_nat,
      Nat.mul_div_cancel _ hpos]

/-- The packets come back exactly when each call of `read` happens to return the bytes of one
packet. -/
theorem framed_iff (b : Build) {packets : List Packet}
    (hdata : ∀ p ∈ packets, p.size.toNat ≤ p.data.length)
    (hsize : ∀ p ∈ packets, p.size.toNat + overheadSize ≤ b.buffSize) :
    ∃ stream, sendAll packets = some stream ∧
      ∀ chunks, Chunking b stream chunks →
        (Framed b packets chunks ↔
          chunks.map List.length = packets.map fun p => p.size.toNat + overheadSize) := by
  have hword : ∀ p ∈ packets, p.size.toNat + 4 < 2 ^ 16 := fun p hp =>
    Nat.lt_of_le_of_lt (hsize p hp) (Nat.lt_of_le_of_lt (buffSize_le b) (by decide))
  refine ⟨_, sendAll_eq fun p hp => ⟨hdata p hp, hword p hp⟩, fun chunks hchunks => ?_⟩
  exact framed_iff_lengths hdata hsize hchunks

/-- Two requests that arrive together are read as one. -/
theorem not_framed_merged :
    ¬ ∀ (packets : List Packet) (stream : Buffer) (chunks : List Buffer),
      (∀ p ∈ packets, p.size.toNat ≤ p.data.length) →
      (∀ p ∈ packets, p.size.toNat + overheadSize ≤ hostBuild.buffSize) →
      sendAll packets = some stream → Chunking hostBuild stream chunks →
      Framed hostBuild packets chunks := by
  intro h
  have hwait : ∀ chunk rest, ¬ ReadReturns hostBuild [] chunk rest := by
    intro chunk rest hread
    rcases (readReturns_host rfl).mp hread with ⟨happend, hne, -⟩
    exact hne (List.append_eq_nil_iff.mp happend.symm).1
  have hframed := h [setPacketHeader cmdPing 0 0 [], setPacketHeader cmdPing 0 0 []]
    [0x20#8, 0#8, 0#8, 0xDF#8, 0x20#8, 0#8, 0#8, 0xDF#8]
    [[0x20#8, 0#8, 0#8, 0xDF#8, 0x20#8, 0#8, 0#8, 0xDF#8]] (by decide) (by decide) (by decide)
    (.read ((readReturns_host rfl).mpr ⟨(List.append_nil _).symm, by simp, by decide⟩)
      (.blocked hwait))
  exact absurd hframed.length_eq (by decide)

/-- A ping and a request with one byte of data come back from reads of 4 and 5 bytes. -/
theorem framed_iff_two :
    let packets := [setPacketHeader cmdPing 0 0 [], setPacketHeader cmdGetType usePinId 1 [3#8]]
    ∃ stream, sendAll packets = some stream ∧
      ∀ chunks, Chunking hostBuild stream chunks →
        (Framed hostBuild packets chunks ↔ chunks.map List.length = [4, 5]) :=
  framed_iff hostBuild (by decide) (by decide)

end PinProtocol
