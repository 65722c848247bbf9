import PinProtocol.Control.Lasso
import PinProtocol.Firmware.Corruption
import PinProtocol.System.Discipline

/-!
# ReplyIds — the ids of the replies, over whole runs

`get_reply_id` counts from 0 to 255 and then goes on at 16.  Every frame that `mainloop` sends takes
one id from it, and nothing else does; so the ids of a run are the values of that counter in order
(`reply_ids`).
-/

namespace PinProtocol

open Bits Control

/-! ## The counter -/

/-- The counter of `get_reply_id` after one more call. -/
def nextReplyId (id : BitVec 8) : BitVec 8 :=
  (getReplyId id).2

theorem toNat_nextReplyId (id : BitVec 8) :
    (nextReplyId id).toNat = lassoNext 256 16 id.toNat := by
  have hlt := id.isLt
  have hsum : (id + 1).toNat = (id.toNat + 1) % 256 := by simp
  have hzero : id + 1 = 0 ↔ id.toNat + 1 = 256 := by
    rw [← BitVec.toNat_inj, hsum]
    simp
    omega
  rw [nextReplyId, getReplyId, lassoNext]
  by_cases hlast : id.toNat + 1 = 256
  · simp only [if_pos (hzero.mpr hlast), if_pos hlast]
    rfl
  · simp only [if_neg fun h => hlast (hzero.mp h), if_neg hlast]
    rw [hsum]
    omega

/-- The counter after `n` calls since power-up, which is what the next call returns. -/
def replyIdAfter (n : Nat) : BitVec 8 :=
  nextReplyId^[n] 0

theorem replyIdAfter_succ (n : Nat) : replyIdAfter (n + 1) = nextReplyId (replyIdAfter n) :=
  Function.iterate_succ_apply' _ _ _

theorem toNat_replyIdAfter (n : Nat) : (replyIdAfter n).toNat = lassoAt 256 16 n := by
  rw [← iterate_lassoNext (by decide)]
  induction n with
  | zero => rfl
  | succ n ih => rw [replyIdAfter_succ, toNat_nextReplyId, ih, Function.iterate_succ_apply']

/-! ## One turn of the loop -/

/-- The id in a frame, as the driver finds it: the first byte of the data. -/
def replyIdOf (frame : Buffer) : Option Byte :=
  (packetRead frame).bind fun reply => reply.data[0]?

section Turn

variable {b : Build} {d d' : Device} {p q : Packet}

theorem replyIdOf_delivered (hdata : q.size.toNat ≤ q.data.length) (hpos : 0 < q.size.toNat) :
    replyIdOf (frameOf (delivered q)) = q.data[0]? := by
  have hread := packetRead_frameOf (p := delivered q) (by simp [hdata]) []
  rw [List.append_nil] at hread
  rw [replyIdOf, hread, Option.bind_some, size_delivered, data_delivered, List.take_take,
    Nat.min_self, List.getElem?_take_of_lt hpos]

/-- A reply that has an id, and has `id` for it. -/
structure Packet.Carries (reply : Packet) (id : BitVec 8) : Prop where
  size_pos : 0 < reply.size.toNat
  size_le : reply.size.toNat ≤ reply.data.length
  id : reply.data[0]? = some id

theorem replyPacket_carries (cmdNo id : BitVec 8) {size : Nat} {data : Buffer}
    (hsize : (replyPacket cmdNo id size data).size.toNat ≤
      (replyPacket cmdNo id size data).data.length)
    (hpos : 0 < (replyPacket cmdNo id size data).size.toNat) :
    (replyPacket cmdNo id size data).Carries id := by
  have hlen : (replyPacket cmdNo id size data).data.length = data.length := List.length_set ..
  exact ⟨hpos, hsize, List.getElem?_set_self (by omega)⟩

theorem fieldsReply_carries (cmdNo id : BitVec 8) {width : Nat} {vals : List (BitVec 16)}
    (h : width * vals.length ≤ 16 * 255) : (fieldsReply cmdNo id width vals).Carries id :=
  replyPacket_carries _ _ (fieldsReply_size_le _ _ _ _) (fieldsReply_pos _ _ h)

theorem idReply_carries (cmdNo id : BitVec 8) : (idReply cmdNo id).Carries id :=
  replyPacket_carries _ _ (idReply_fits _ _).size_le (idReply_pos _ _)

/-- The timeout behind the id leaves the id as it is. -/
theorem failsafeReply_carries (id : BitVec 8) (timeout : BitVec 16) {size : Nat} (f : Nat → Bool)
    (hroom : 3 ≤ size) (hbyte : size < 2 ^ 8) :
    (failsafeReply id timeout size f).Carries id := by
  have hsize : (failsafeReply id timeout size f).size.toNat = size := toNat_ofNat_size (by omega)
  refine ⟨by omega, failsafeReply_size_le _ _ _ _, ?_⟩
  have hclear : byteOf (fieldBits 8 timeout 16) 0 = 0#8 := by
    rw [byteOf, window_eq_zero fun i hi => fieldBits_before timeout (by omega)]
  have hset : ((orBits (zeros size) f).set 0 id)[0]? = some id :=
    List.getElem?_set_self (by simp; omega)
  have hdata : (failsafeReply id timeout size f).data =
      orBits ((orBits (zeros size) f).set 0 id) (fieldBits 8 timeout 16) := rfl
  rw [hdata, orBits, List.getElem?_mapIdx, hset, Option.map_some, hclear, BitVec.or_zero]

/-- A reply takes the id of the counter, and the counter goes on by one. -/
theorem serves_replyId (hd : d.Ready b) (h : Serves b d p d' (some q)) :
    q.Carries d.nextId ∧ d'.nextId = nextReplyId d.nextId := by
  have hwidth : p.width ≤ 16 := getTypeBitsNb_le p.type
  -- every reply begins with the id of the device, which its handler then moves on
  cases h with
  | getCaps =>
      have hfits := capsReply_fits hd.wellFormed
      exact ⟨replyPacket_carries _ _ hfits.size_le (capsReply_pos d), rfl⟩
  | ping => exact ⟨replyPacket_carries _ _ (show 2 ≤ 2 by decide) (show 0 < 2 by decide), rfl⟩
  | readPin =>
      refine ⟨fieldsReply_carries _ _ ?_, rfl⟩
      rw [List.length_singleton]
      omega
  | readMask => exact ⟨fieldsReply_carries _ _ (length_maskedFields d.conn hwidth _), rfl⟩
  | getTypePin => exact ⟨fieldsReply_carries _ _ (show 3 * 1 ≤ 16 * 255 by decide), rfl⟩
  | getTypeMask =>
      refine ⟨fieldsReply_carries _ _ ?_, rfl⟩
      have hcount := length_maskedPins_le d.conn p 0
      have hbound := d.conn.nbPins_lt
      rw [List.length_map]
      omega
  | writePin | writeMask | setTypePin | setTypeMask | setFailsafePin | setFailsafeMask =>
      exact ⟨idReply_carries _ _, rfl⟩
  | @getFailsafePin _ _ _ f =>
      have hbits := getTypeBitsNb_le (f.entryAt (p.pin 0)).pinState
      refine ⟨failsafeReply_carries _ _ _ (Nat.le_add_right 3 _) ?_, rfl⟩
      rw [bits2bytes_eq]
      omega
  | getFailsafeMask _ _ _ _ _ hacc =>
      refine ⟨failsafeReply_carries _ _ _ (Nat.le_add_right 3 _) ?_, rfl⟩
      rw [bits2bytes_eq]
      omega

/-- One turn of `mainloop` sends at most one frame, under the id that is next. -/
theorem mainloopStep_replyIds {chunk : Buffer} {replies : List Buffer} (hd : d.Ready b)
    (h : mainloopStep b d chunk = some (.served d' replies)) :
    (replies = [] ∧ d'.nextId = d.nextId) ∨
      ∃ frame, replies = [frame] ∧ replyIdOf frame = some d.nextId ∧
        d'.nextId = nextReplyId d.nextId := by
  rw [mainloopStep, Option.bind_eq_bind, Option.bind_eq_some_iff] at h
  rcases h with ⟨received, _, h⟩
  cases received with
  | error => cases h
  | packet p =>
      rcases Option.bind_eq_some_iff.mp h with ⟨valid, _, h⟩
      cases valid with
      | false => cases h
      | true =>
          rcases Option.bind_eq_some_iff.mp h with ⟨⟨e, rs⟩, hrun, heq⟩
          cases heq
          -- a valid packet is dispatched, and its handler sends one reply or none
          rcases dispatch_serves hd hrun with ⟨r, hserves, rfl⟩
          cases r with
          | none => exact .inl ⟨rfl, congrArg Device.nextId (silent_of_serves_none hserves).2⟩
          | some q =>
              obtain ⟨hcarries, hnext⟩ := serves_replyId hd hserves
              refine .inr ⟨_, rfl, ?_, hnext⟩
              rw [replyIdOf_delivered hcarries.size_le hcarries.size_pos, hcarries.id]

end Turn

/-! ## Runs -/

section Run

variable {b : Build} {nbPins : BitVec 8} {d d' : Device} {chunks replies : List Buffer}

/-- A run that starts after `n` calls of `get_reply_id` makes one more for each of its replies. -/
theorem mainloop_replyIds {n : Nat} (hd : Reachable b nbPins d) (hn : d.nextId = replyIdAfter n)
    (hrun : mainloop b d chunks = some (d', replies)) :
    d'.nextId = replyIdAfter (n + replies.length) ∧
      replies.map replyIdOf =
        (List.range' n replies.length).map fun i => some (replyIdAfter i) := by
  induction chunks generalizing d n replies with
  | nil =>
      cases hrun
      exact ⟨hn, rfl⟩
  | cons chunk chunks ih =>
      rw [mainloop, Option.bind_eq_some_iff] at hrun
      rcases hrun with ⟨step, hstep, hrest⟩
      cases step with
      | stopped =>
          cases hrest
          exact ⟨hn, rfl⟩
      | served e rs =>
          rcases Option.map_eq_some_iff.mp hrest with ⟨⟨e', tail⟩, htail, heq⟩
          cases heq
          have hreach := hd.mainloop hstep
          -- a chunk that is not answered takes no id
          rcases mainloopStep_replyIds hd.ready hstep with
            ⟨rfl, hsame⟩ | ⟨frame, rfl, hid, hnext⟩
          · exact ih hreach (hsame.trans hn) htail
          · rw [hn, ← replyIdAfter_succ] at hnext
            -- the reply takes id `n`, and the other chunks go on from `n + 1`
            obtain ⟨hend, hids⟩ := ih hreach hnext htail
            have hcount : n + ([frame] ++ tail).length = n + 1 + tail.length := by
              simp
              omega
            refine ⟨by rw [hcount]; exact hend, ?_⟩
            rw [List.singleton_append, List.map_cons, hids, hid, hn, List.length_cons,
              List.range'_succ, List.map_cons]

/-- Since power-up, the `i`-th reply carries what the `i`-th call of `get_reply_id` returns, and
there have been as many calls as replies.  Replies that are fewer than 240 replies apart have
different ids, and after 256 replies no id is below 16. -/
theorem reply_ids (hinit : initDeviceContent b nbPins = some d)
    (hrun : mainloop b d chunks = some (d', replies)) :
    d'.nextId = replyIdAfter replies.length ∧
      (∀ i (hi : i < replies.length), replyIdOf replies[i] = some (replyIdAfter i)) ∧
      (∀ i j (hij : i < j) (hj : j < replies.length), j - i < 240 →
        replyIdOf replies[i] ≠ replyIdOf replies[j]) ∧
      ∀ i (hi : i < replies.length), 256 ≤ i →
        ∃ id, replyIdOf replies[i] = some id ∧ 16 ≤ id.toNat := by
  have hstart : d.nextId = replyIdAfter 0 := by
    rw [initDeviceContent_eq] at hinit
    cases hinit
    rfl
  obtain ⟨hend, hids⟩ := mainloop_replyIds (.init hinit) hstart hrun
  rw [Nat.zero_add] at hend
  have hid : ∀ i (hi : i < replies.length), replyIdOf replies[i] = some (replyIdAfter i) := by
    intro i hi
    have hget := congrArg (fun l => l[i]?) hids
    simpa [hi] using hget
  refine ⟨hend, hid, fun i j hij hj hnear heq => ?_, fun i hi hlate => ?_⟩
  · have hi : i < replies.length := Nat.lt_trans hij hj
    rw [hid i hi, hid j hj, Option.some.injEq, ← BitVec.toNat_inj, toNat_replyIdAfter,
      toNat_replyIdAfter] at heq
    exact lassoAt_ne hij hnear heq
  · refine ⟨_, hid i hi, ?_⟩
    rw [toNat_replyIdAfter]
    exact restart_le_lassoAt hlate

end Run

/-- Two pings after power-up are answered under the ids 0 and 1. -/
theorem reply_ids_pings :
    let d := initialDevice hostBuild firmwareNbPins
    let ping : Buffer := [0x20#8, 0#8, 1#8, 1#8, 0xDD#8]
    ∃ d' replies, mainloop hostBuild d [ping, ping] = some (d', replies) ∧
      replies.length = 2 ∧ d'.nextId = replyIdAfter 2 ∧
      ∀ i (hi : i < replies.length), replyIdOf replies[i] = some (replyIdAfter i) := by
  intro d ping
  have hrun : (mainloop hostBuild d [ping, ping]).map (fun r => r.2.length) = some 2 := by
    decide +kernel
  rcases Option.map_eq_some_iff.mp hrun with ⟨⟨d', replies⟩, hloop, hcount⟩
  have hids := reply_ids (initDeviceContent_eq _ _) hloop
  exact ⟨d', replies, hloop, hcount, hcount ▸ hids.1, hids.2.1⟩

end PinProtocol
