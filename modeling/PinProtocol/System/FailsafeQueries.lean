import PinProtocol.Firmware.Invariant
import PinProtocol.System.FailsafeOperations

/-!
# FailsafeQueries — `get_failsafe_mask`, over the device

The request of `get_failsafe_mask` is sized for the types of the pins used and filled with the whole
mask; the reply leaves out disabled pins, which the driver then looks for.  `failsafe_queried_iff`
says for which masks and tables the driver nevertheless ends up with the device's entries.
-/

namespace PinProtocol

open Bits Control

/-! ## The request -/

section Request

variable {c : Connection} {mask : Mask}

/-- The size that the driver declares, however many bytes the mask takes. -/
theorem size_getFailsafeMaskRequest (hlen : c.nbPins ≤ mask.length) {p : Packet}
    (hp : getFailsafeMaskRequest c mask = some p) :
    p.size = BitVec.ofNat 16 (bits2bytesUnsigned ((usedPins mask c.nbPins).length * 3)) := by
  rw [getFailsafeMaskRequest, maskNbPinsUsed_eq hlen c.nbPins_lt, Option.bind_eq_bind,
    Option.bind_some] at hp
  rcases Option.bind_eq_some_iff.mp hp with ⟨cleared, _, hrest⟩
  rcases Option.bind_eq_some_iff.mp hrest with ⟨data, _, hpacket⟩
  cases hpacket
  rfl

/-- In which cases that is the size of the mask. -/
theorem toNat_size_iff (hpos : 0 < c.nbPins) :
    (BitVec.ofNat 16 (bits2bytesUnsigned ((usedPins mask c.nbPins).length * 3))).toNat =
        bits2bytes c.nbPins ↔
      usedPins mask c.nbPins ≠ [] ∧
        (3 * (usedPins mask c.nbPins).length - 1) / 8 = (c.nbPins - 1) / 8 := by
  have hbound := c.nbPins_lt
  have hused := length_usedPins_le mask c.nbPins
  by_cases hnone : usedPins mask c.nbPins = []
  · -- the byte count wraps, and the header keeps its low bits
    refine iff_of_false ?_ fun h => h.1 hnone
    have hword : 2 ^ 29 % 2 ^ 16 = 0 := by norm_num
    rw [hnone, List.length_nil, Nat.zero_mul, bits2bytesUnsigned_zero, bits2bytes_eq,
      BitVec.toNat_ofNat, hword]
    exact (Nat.succ_ne_zero _).symm
  · have hsome : 0 < (usedPins mask c.nbPins).length := List.length_pos_iff.mpr hnone
    rw [bits2bytesUnsigned_eq (by omega) (by omega), toNat_ofNat_size (by omega), bits2bytes_eq,
      Nat.mul_comm]
    simp [hnone]

theorem getFailsafeMaskRequest_eq (hlen : c.nbPins ≤ mask.length)
    (hsome : usedPins mask c.nbPins ≠ [])
    (hsize : (3 * (usedPins mask c.nbPins).length - 1) / 8 = (c.nbPins - 1) / 8) :
    getFailsafeMaskRequest c mask =
      some (setPacketHeader cmdGetFailsafe useMask ((c.nbPins - 1) / 8 + 1)
        (maskData c.nbPins mask)) := by
  have hbound := c.nbPins_lt
  have hused := length_usedPins_le mask c.nbPins
  have hpos : 0 < (usedPins mask c.nbPins).length := List.length_pos_iff.mpr hsome
  have hbytes : bits2bytesUnsigned ((usedPins mask c.nbPins).length * pinTypeBitsNb) =
      (c.nbPins - 1) / 8 + 1 := by
    rw [pinTypeBitsNb, bits2bytesUnsigned_eq (by omega) (by omega), Nat.mul_comm, hsize]
  rcases Option.bind_eq_some_iff.mp (buildMask hbound hlen) with ⟨cleared, hclear, hmask⟩
  rw [getFailsafeMaskRequest, maskNbPinsUsed_eq hlen hbound, Option.bind_eq_bind, Option.bind_some]
  simp only [hbytes, hclear, hmask, Option.bind_eq_bind, Option.bind_some, Option.pure_def]

end Request

/-! ## The reply -/

/-- The data of the reply that carries the entries `es`. -/
def entriesReplyData (d : Device) (f : Failsafe) (es : List PinFailsafe) : Buffer :=
  (delivered (failsafeReply d.nextId f.timeout
    (3 + bits2bytes (16 + es.length + entriesLength es)) (tablePattern 24 es))).data

section Reply

variable (d : Device) (f : Failsafe) {es : List PinFailsafe}

/-- Sixteen entries never overflow the byte count of the reply. -/
theorem replySize_bounds (hfew : es.length ≤ 16) :
    3 ≤ 3 + bits2bytes (16 + es.length + entriesLength es) ∧
      3 + bits2bytes (16 + es.length + entriesLength es) < 2 ^ 8 ∧
      24 + entriesLength es ≤ 8 * (3 + bits2bytes (16 + es.length + entriesLength es)) := by
  have hslots := slotsLength_le es
  have hle := entriesLength_le es
  rw [bits2bytes_eq]
  omega

theorem bitAt_entriesReplyData (hfew : es.length ≤ 16) {j : Nat} (hj : 24 ≤ j) :
    bitAt (entriesReplyData d f es) j =
      (decide (j < 8 * (3 + bits2bytes (16 + es.length + entriesLength es))) &&
        tablePattern 24 es j) :=
  bitAt_failsafeReply _ _ _ (replySize_bounds hfew).2.1 hj

theorem length_entriesReplyData (hfew : es.length ≤ 16) :
    (entriesReplyData d f es).length = 3 + bits2bytes (16 + es.length + entriesLength es) := by
  rw [entriesReplyData, data_failsafeReply _ _ _ (replySize_bounds hfew).2.1]
  simp

theorem timeout_entriesReplyData (hfew : es.length ≤ 16) :
    readBitValue (entriesReplyData d f es) 8 16 = some f.timeout := by
  have hslots := slotsLength_le es
  refine timeout_failsafeReply _ _ _ (replySize_bounds hfew).2.1 (replySize_bounds hfew).1
    fun j _ hj => ?_
  exact tablePattern_before (by omega) (by omega)

/-- The entries of a reply are read as they were written exactly when they are readable. -/
theorem readEntries_reply_iff (hfew : es.length ≤ 16) (hrange : ∀ e ∈ es, e.InRange) :
    (∃ a', readEntries (entriesReplyData d f es) es.length 24 = some (es, a')) ↔
      Readable 24 es := by
  have hslots := slotsLength_le es
  have hsize := (replySize_bounds hfew).2.2
  have hbits := fun {j : Nat} => bitAt_entriesReplyData d f hfew (j := j)
  -- without disabled pins, the pattern of the table is in the reply
  have hiff : (∀ e ∈ es, e.pinState ≠ pinTypeDisabled) →
      (ReadsAs (bitAt (entriesReplyData d f es)) 24 es ↔ Readable 24 es) := by
    intro hon
    have hsame := entriesLength_eq hon
    refine readsAs_iff_readable (by decide) (by omega) hrange hon fun a i ha _ _ hpos => ?_
    have hword : a % 2 ^ 16 = a := Nat.mod_eq_of_lt (by omega)
    rw [hword, hbits (by omega), decide_eq_true (by omega), Bool.true_and]
  constructor
  · rintro ⟨a', hread⟩
    have hreads := readsAs_of_readEntries hread
    have hcut : ReadsAs (fun j => decide (24 ≤ j) && bitAt (entriesReplyData d f es) j) 24 es :=
      hreads.congr (by omega) fun j hj => by rw [decide_eq_true hj, Bool.true_and]
    have hon := not_disabled_of_readsAs (by decide) (by omega) hrange (fun j hj => ?_) hcut
    · exact (hiff hon).mp hreads
    · rw [Bool.and_eq_true, decide_eq_true_iff] at hj
      have hbit := hj.2
      rw [hbits hj.1, Bool.and_eq_true] at hbit
      exact hbit.2
  · intro hreadable
    have hon := hreadable.not_disabled
    have hsame := entriesLength_eq hon
    -- the reply counts more bits than it carries, and so has room for a value without any bit
    have hroom : 24 + slotsLength es < 8 * (entriesReplyData d f es).length := by
      rw [length_entriesReplyData d f hfew, bits2bytes_eq]
      omega
    exact ⟨_, readEntries_of_readsAs (Nat.le_of_lt hroom) (Or.inr hroom)
      ((hiff hon).mpr hreadable)⟩

end Reply

/-! ## The operation -/

/-- What a scatter leaves in a table. -/
theorem entryAt_scatter (timeout : BitVec 16) {is : List Nat} (hnd : is.Nodup)
    {pins : List PinFailsafe} (his : ∀ i ∈ is, i < pins.length)
    (upd : Nat → PinFailsafe → PinFailsafe) {n : Nat} (hn : n < is.length) :
    ({ timeout, pinsFailsafe := scatter upd is pins } : Failsafe).entryAt is[n] =
      upd n (({ timeout, pinsFailsafe := pins } : Failsafe).entryAt is[n]) := by
  have hlt := his is[n] (List.getElem_mem hn)
  rw [Failsafe.entryAt, List.getD_eq_getElem?_getD, getElem?_scatter upd hnd hn]
  simp [Failsafe.entryAt, hlt]

theorem entryAt_scatter_of_notMem (timeout : BitVec 16) {is : List Nat} {pin : Nat}
    (hpin : pin ∉ is) (pins : List PinFailsafe) (upd : Nat → PinFailsafe → PinFailsafe) :
    ({ timeout, pinsFailsafe := scatter upd is pins } : Failsafe).entryAt pin =
      ({ timeout, pinsFailsafe := pins } : Failsafe).entryAt pin := by
  simp only [Failsafe.entryAt, List.getD_eq_getElem?_getD, getElem?_scatter_of_notMem upd hpin]

section Operation

variable {b : Build} {c : Connection} {d : Device} {f g own : Failsafe} {mask : Mask}

/-- What the driver makes of a reply that carries the entries `es`. -/
theorem getFailsafeMaskApply_eq (hlen : c.nbPins ≤ mask.length) (hown : c.failsafe = some own)
    (htable : c.nbPins ≤ own.pinsFailsafe.length)
    (hroom : (usedPins mask c.nbPins).length ≤ g.pinsFailsafe.length) {reply : Packet}
    (htimeout : readBitValue reply.data 8 16 = some f.timeout) :
    getFailsafeMaskApply c mask g reply =
      (readEntries reply.data (usedPins mask c.nbPins).length 24).map fun s =>
        let found := s.1 ++ g.pinsFailsafe.drop (usedPins mask c.nbPins).length
        (1, { timeout := f.timeout, pinsFailsafe := found },
          { c with
            failsafe := some
              { own with
                pinsFailsafe := scatter (fun i _ => found.getD i freshEntry)
                  (usedPins mask c.nbPins) own.pinsFailsafe } }) := by
  have hread := readFailsafe_eq reply.data 24 (g := { g with timeout := f.timeout }) hroom
  simp only [getFailsafeMaskApply, maskNbPinsUsed_eq hlen c.nbPins_lt, replyIdBitsNb,
    timeoutBitsNb, htimeout, Nat.reduceAdd, hread, hown, Option.bind_eq_bind, Option.bind_some]
  cases hentries : readEntries reply.data (usedPins mask c.nbPins).length 24 with
  | none => rfl
  | some s =>
      have hcount : s.1.length = (usedPins mask c.nbPins).length := length_readEntries hentries
      have henough : (usedPins mask c.nbPins).length ≤
          (s.1 ++ g.pinsFailsafe.drop (usedPins mask c.nbPins).length).length := by
        rw [List.length_append]
        omega
      have hstore := storePerPin_eq hlen htable henough freshEntry fun entry _ => entry
      simp only [Option.map_some, Option.bind_some, hstore, Option.pure_def]

/-- A query whose request has the size of the mask. -/
theorem getFailsafeMask_device (hb : b.disableFailsafe = false) (hwf : d.conn.WellFormed)
    (hf : d.conn.failsafe = some f) (hsame : c.nbPins = d.conn.nbPins)
    (hfew : c.nbPins ≤ 16) (hlen : c.nbPins ≤ mask.length)
    (hsome : usedPins mask c.nbPins ≠ [])
    (hsize : (3 * (usedPins mask c.nbPins).length - 1) / 8 = (c.nbPins - 1) / 8) :
    getFailsafeMask (deviceLink b) c d mask g =
      (getFailsafeMaskApply c mask g
          (delivered (failsafeReply d.nextId f.timeout
            (3 + bits2bytes (16 + (f.entriesAt (usedPins mask c.nbPins)).length +
              entriesLength (f.entriesAt (usedPins mask c.nbPins))))
            (tablePattern 24 (f.entriesAt (usedPins mask c.nbPins)))))).map fun s =>
        { ret := s.1, out := s.2.1, conn := s.2.2, world := d.next } := by
  have hbound := c.nbPins_lt
  have hused := length_usedPins_le mask c.nbPins
  have hcmd := headerCmd_plain cmdGetFailsafe useMask (by decide) (by decide)
  have hkind := usesMask_maskRequest cmdGetFailsafe 0#8 ((c.nbPins - 1) / 8 + 1)
    (maskData c.nbPins mask)
  rw [typeParam_zero] at hkind
  have hdata := data_request cmdGetFailsafe useMask (length_maskData c.nbPins mask).symm (by omega)
  obtain ⟨p, hp⟩ : ∃ p, delivered (setPacketHeader cmdGetFailsafe useMask
      ((c.nbPins - 1) / 8 + 1) (maskData c.nbPins mask)) = p := ⟨_, rfl⟩
  rw [hp] at hkind hdata
  have hpcmd : p.header >>> 4 = cmdGetFailsafe := by
    rw [← hp]
    exact hcmd
  -- the device finds the same pins in the request
  have hmasked : maskedPins d.conn p 0 = usedPins mask c.nbPins := by
    rw [maskedPins, ← hsame, hdata, usedPins_maskData]
  have hholds : HoldsMask d.conn p 0 :=
    Or.inr (by rw [← hsame, hdata, length_maskData]; omega)
  obtain ⟨es, hes⟩ : ∃ es, f.entriesAt (usedPins mask c.nbPins) = es := ⟨_, rfl⟩
  have hcount : es.length ≤ 16 := by
    rw [← hes, Failsafe.entriesAt, List.length_map]
    omega
  have hslots := slotsLength_le es
  have hle := entriesLength_le es
  have hserve := replyGetFailsafe_mask_eq (p := p) hwf hf hkind
  simp only [hmasked, hes] at hserve
  rw [if_pos ⟨hholds, by omega⟩] at hserve
  have hdispatch :=
    calc dispatch b d p
        = if b.disableFailsafe then some (d, []) else replyGetFailsafe d p :=
          dispatch_getFailsafe hpcmd
      _ = replyGetFailsafe d p := if_neg (by rw [hb]; decide)
      _ = _ := hserve
  rw [← hp] at hdispatch
  have hbytes := replySize_bounds hcount
  rw [hes, getFailsafeMask, operation_device (getFailsafeMaskRequest_eq hlen hsome hsize)
    (maskData_fits b _ _ hbound mask) hdispatch
    (failsafeReply_fits d.nextId f.timeout _ hbytes.2.1)
    (by rw [toNat_size_failsafeReply d.nextId f.timeout _ hbytes.2.1]; omega)]

end Operation

/-! ## The query -/

/-- `get_failsafe_mask` sends the mask in as many bytes as it takes, and gives the caller the
device's timeout and entries; its own table takes over the entries, and keeps the others. -/
structure FailsafeQueried (b : Build) (c : Connection) (d : Device) (mask : Mask) (g : Failsafe) :
    Prop where
  request : ∃ p, getFailsafeMaskRequest c mask = some p ∧ p.size.toNat = bits2bytes c.nbPins ∧
    ∀ pin < c.nbPins, bitAt p.data pin = pinUsed mask pin
  returned : ∃ r f own own', getFailsafeMask (deviceLink b) c d mask g = some r ∧
    d.conn.failsafe = some f ∧ r.out.timeout = f.timeout ∧
    r.out.pinsFailsafe.take (usedPins mask c.nbPins).length =
      f.entriesAt (usedPins mask c.nbPins) ∧
    c.failsafe = some own ∧ r.conn.failsafe = some own' ∧
    (∀ pin ∈ usedPins mask c.nbPins, own'.entryAt pin = f.entryAt pin) ∧
    ∀ pin, pin ∉ usedPins mask c.nbPins → own'.entryAt pin = own.entryAt pin

section Queries

variable {b : Build} {nbPins : BitVec 8} {c : Connection} {d : Device} {f g own : Failsafe}
  {mask : Mask}

/-- For up to 16 pins, any mask and any table that requests have left behind, whatever type codes
they named, the query does what it should exactly when the types of the pins used take as many bytes
as the mask, and the entries of these pins can be read behind id and timeout: none is disabled, and
a 16-bit value starts a byte or is small. -/
theorem failsafe_queried_iff (hb : b.disableFailsafe = false)
    (hd : Reachable b nbPins d) (hf : d.conn.failsafe = some f) (hpos : 0 < nbPins.toNat)
    (hfew : nbPins.toNat ≤ 16) (hnb : c.caps.nbPins = nbPins) (hown : c.failsafe = some own)
    (htable : own.pinsFailsafe.length = nbPins.toNat) (hlen : nbPins.toNat ≤ mask.length)
    (hroom : (usedPins mask nbPins.toNat).length ≤ g.pinsFailsafe.length) :
    FailsafeQueried b c d mask g ↔
      usedPins mask nbPins.toNat ≠ [] ∧
        (3 * (usedPins mask nbPins.toNat).length - 1) / 8 = (nbPins.toNat - 1) / 8 ∧
        Readable 24 (f.entriesAt (usedPins mask nbPins.toNat)) := by
  have hcnb : nbPins.toNat = c.nbPins := congrArg BitVec.toNat hnb.symm
  have hinv := hd.invariant
  have hsame : c.nbPins = d.conn.nbPins := congrArg BitVec.toNat (hnb.trans hinv.capsNbPins.symm)
  have hwf := hinv.ready.wellFormed
  have hrange := hinv.entries f hf
  have hftable := hwf.failsafe f hf
  rw [hcnb] at hpos hfew htable hlen hroom ⊢
  have hused := length_usedPins_le mask c.nbPins
  obtain ⟨es, hes⟩ : ∃ es, f.entriesAt (usedPins mask c.nbPins) = es := ⟨_, rfl⟩
  have hcount : es.length = (usedPins mask c.nbPins).length := by
    rw [← hes, Failsafe.entriesAt, List.length_map]
  have hfewEntries : es.length ≤ 16 := by omega
  have hentries : ∀ e ∈ es, e.InRange := by
    intro e he
    rw [← hes, Failsafe.entriesAt, List.mem_map] at he
    rcases he with ⟨pin, hpin, rfl⟩
    have hlt : pin < f.pinsFailsafe.length := by
      rw [hftable, ← hsame]
      exact usedPins_lt hpin
    exact hrange _ (List.mem_of_getElem? (Failsafe.getElem?_pinsFailsafe hlt))
  -- the size of the request decides whether the device gets the mask
  by_cases hsize : usedPins mask c.nbPins ≠ [] ∧
      (3 * (usedPins mask c.nbPins).length - 1) / 8 = (c.nbPins - 1) / 8
  · have hdevice := getFailsafeMask_device (g := g) hb hwf hf hsame hfew hlen hsize.1 hsize.2
    have htimeout := timeout_entriesReplyData d f hfewEntries
    rw [hes, getFailsafeMaskApply_eq hlen hown (Nat.le_of_eq htable.symm) hroom htimeout,
      Option.map_map, ← hcount] at hdevice
    have hback := readEntries_reply_iff d f hfewEntries hentries
    refine Iff.trans ⟨fun h => ?_, fun h => ?_⟩
      (hback.trans ⟨fun h => ⟨hsize.1, hsize.2, hes ▸ h⟩, fun h => hes ▸ h.2.2⟩)
    · obtain ⟨r, f', _, _, hr, hf', _, hfound, _⟩ := h.returned
      rw [hf] at hf'
      cases hf'
      rw [hdevice] at hr
      rcases Option.map_eq_some_iff.mp hr with ⟨⟨xs, a'⟩, hread, rfl⟩
      have hxs : xs.length = es.length := length_readEntries hread
      simp only [Function.comp, hes, ← hcount, ← hxs, List.take_left] at hfound
      exact ⟨a', hfound ▸ hread⟩
    · obtain ⟨a', hread⟩ := h
      refine ⟨⟨_, getFailsafeMaskRequest_eq hlen hsize.1 hsize.2, ?_, fun pin hpin => ?_⟩,
        ⟨_, f, own, _, hdevice.trans (congrArg (Option.map _) hread), hf, rfl, ?_, hown, rfl,
          fun pin hpin => ?_, fun pin hpin => ?_⟩⟩
      · rw [bits2bytes_eq]
        exact toNat_ofNat_size (by omega)
      · show bitAt (maskData c.nbPins mask) pin = pinUsed mask pin
        rw [bitAt_maskData, maskBits, decide_eq_true hpin, Bool.true_and, pinUsed]
      · rw [← hcount, hes]
        exact List.take_left
      · obtain ⟨n, hn, rfl⟩ := List.getElem_of_mem hpin
        refine (entryAt_scatter own.timeout (nodup_usedPins mask c.nbPins)
          (fun i hi => ?_) _ hn).trans ?_
        · rw [htable]
          exact usedPins_lt hi
        · have hfront : n < (f.entriesAt (usedPins mask c.nbPins)).length := by
            rw [hes, hcount]
            exact hn
          rw [← hes, List.getD_append _ _ _ _ hfront]
          simp [Failsafe.entriesAt, hn]
      · exact entryAt_scatter_of_notMem own.timeout hpin _ _
  · refine iff_of_false (fun h => ?_) fun h => hsize ⟨h.1, h.2.1⟩
    obtain ⟨p, hp, hbytes, _⟩ := h.request
    rw [size_getFailsafeMaskRequest hlen hp] at hbytes
    exact hsize ((toNat_size_iff hpos).mp hbytes)

/-- The firmware, after its first five pins have got PWM values to fall back to. -/
def fivePwm : Device :=
  { (initialDevice hostBuild firmwareNbPins).putFailsafe 513
      ([⟨pinTypePwm8, 10⟩, ⟨pinTypePwm8, 20⟩, ⟨pinTypePwm8, 30⟩, ⟨pinTypePwm8, 40⟩,
        ⟨pinTypePwm8, 251⟩] ++ List.replicate 11 ⟨pinTypeDisabled, 0⟩) with
    nextId := 1 }

theorem fivePwm_reachable : Reachable hostBuild firmwareNbPins fivePwm := by
  let p : Packet := delivered (setPacketHeader cmdSetFailsafe (typeParam pinTypePwm8 useMask) 9
    [2#8, 1#8, 0xF8#8, 0#8, 10#8, 20#8, 30#8, 40#8, 251#8])
  have hrun : (dispatch hostBuild (initialDevice hostBuild firmwareNbPins) p).map Prod.fst =
      some fivePwm := by
    decide +kernel
  rcases Option.map_eq_some_iff.mp hrun with ⟨⟨d, replies⟩, hserve, rfl⟩
  have hp : p.Intact := ⟨rfl, by decide +kernel⟩
  exact (Reachable.init (initDeviceContent_eq _ _)).serve hp hserve

/-- All five are found again. -/
theorem failsafe_queried_five :
    FailsafeQueried hostBuild (initialDevice hostBuild firmwareNbPins).conn fivePwm
      (List.replicate 5 true ++ List.replicate 11 false) (freshTable 5) := by
  obtain ⟨own, hown, hlen⟩ : ∃ own, (initialDevice hostBuild firmwareNbPins).conn.failsafe =
      some own ∧ own.pinsFailsafe.length = 16 := ⟨_, rfl, by decide⟩
  refine (failsafe_queried_iff rfl fivePwm_reachable rfl (by decide) (by decide) rfl hown hlen
    (by decide) (by decide)).mpr ⟨by decide, by decide, by decide⟩

/-- A device that has just been initialised is asked for its first pin: the mask of 16 bits does not
fit the one byte that the driver allocates. -/
theorem not_failsafe_queried_one :
    let d := initialDevice hostBuild firmwareNbPins
    let mask : Mask := true :: List.replicate 15 false
    initDeviceContent hostBuild firmwareNbPins = some d ∧
      ∀ g, ¬ FailsafeQueried hostBuild d.conn d mask g := by
  intro d mask
  refine ⟨initDeviceContent_eq _ _, fun g h => ?_⟩
  obtain ⟨p, hp, _⟩ := h.request
  have hnone : getFailsafeMaskRequest d.conn mask = none := by decide +kernel
  rw [hnone] at hp
  cases hp

end Queries

end PinProtocol
