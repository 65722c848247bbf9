import PinProtocol.Common.FailsafeStream

/-!
# FailsafeCodec — failsafe tables in buffers

`write_failsafe` into a cleared buffer leaves the pattern of the table, `read_failsafe` reads the
stream of the buffer; together with the results about streams this says exactly which tables are
read back (`failsafe_roundTrips_iff`).
-/

namespace PinProtocol

open Bits Control

/-! ## Writing -/

/-- The entry `e` at offset `a` is inside a buffer of `len` bytes; a value without any bit still
touches the byte that it would start in. -/
def EntryFits (len a : Nat) (e : PinFailsafe) : Prop :=
  e.pinState = pinTypeDisabled ∨
    (a % 2 ^ 16 + 3 ≤ 8 * len ∧ (a + 3) % 2 ^ 16 + max (getTypeBitsNb e.pinState) 1 ≤ 8 * len)

instance (len a : Nat) (e : PinFailsafe) : Decidable (EntryFits len a e) :=
  inferInstanceAs (Decidable (_ ∨ _))

theorem writeFailsafeEntry_eq (buf : Buffer) (a : Nat) (e : PinFailsafe) :
    writeFailsafeEntry (buf, a) e =
      if EntryFits buf.length a e then
        some (orBits buf (entryPattern a e), a + entryLength e)
      else none := by
  by_cases hdisabled : e.pinState = pinTypeDisabled
  · -- nothing is written, and the offset stays where it is
    have hnone : entryPattern a e = fun _ => false := funext fun j => if_pos hdisabled
    have hin : EntryFits buf.length a e := Or.inl hdisabled
    rw [if_pos hin, writeFailsafeEntry, if_pos hdisabled, hnone, orBits_false, entryLength,
      if_pos hdisabled]
    rfl
  · -- two fields, and each of them may leave the buffer
    have htype := writeBitValue_wrapped buf a (e.pinState.setWidth 16) (show 3 ≤ 16 by decide)
    have hvalue := writeBitValue_wrapped
      (orBits buf (fieldBits (a % 2 ^ 16) (e.pinState.setWidth 16) 3)) (a + 3) e.pinValue
      (getTypeBitsNb_le e.pinState)
    rw [length_orBits, orBits_orBits] at hvalue
    have hpattern : entryPattern a e = fun j =>
        fieldBits (a % 2 ^ 16) (e.pinState.setWidth 16) 3 j ||
          fieldBits ((a + 3) % 2 ^ 16) e.pinValue (getTypeBitsNb e.pinState) j :=
      funext fun j => if_neg hdisabled
    have hmax : max 3 1 = 3 := rfl
    rw [hmax] at htype
    simp only [EntryFits, hdisabled, false_or]
    -- the offset of either field is taken modulo `2 ^ 16`
    by_cases hin : a % 2 ^ 16 + 3 ≤ 8 * buf.length
    · rw [if_pos hin] at htype
      by_cases hin' : (a + 3) % 2 ^ 16 + max (getTypeBitsNb e.pinState) 1 ≤ 8 * buf.length
      · rw [if_pos hin'] at hvalue
        simp only [writeFailsafeEntry, if_neg hdisabled, pinTypeBitsNb, htype, hvalue,
          Option.bind_eq_bind, Option.bind_some, entryLength, slotLength, Nat.add_assoc,
          if_pos (And.intro hin hin'), hpattern]
        rfl
      · rw [if_neg hin'] at hvalue
        simp only [writeFailsafeEntry, if_neg hdisabled, pinTypeBitsNb, htype, hvalue,
          Option.bind_eq_bind, Option.bind_some, Option.bind_none, hin', and_false, if_false]
    · rw [if_neg hin] at htype
      simp only [writeFailsafeEntry, if_neg hdisabled, pinTypeBitsNb, htype,
        Option.bind_eq_bind, Option.bind_none, hin, false_and, if_false]

/-- One bit more than the entries take is room for each of them. -/
theorem writeEntries_fit (es : List PinFailsafe) {buf : Buffer} {a : Nat}
    (hfit : a + entriesLength es < 8 * buf.length) :
    es.foldlM writeFailsafeEntry (buf, a) =
      some (orBits buf (tablePattern a es), a + entriesLength es) := by
  induction es generalizing buf a with
  | nil =>
      have hnone : tablePattern a [] = fun _ => false := rfl
      rw [hnone, orBits_false]
      rfl
  | cons e es ih =>
      have hlen : entriesLength (e :: es) = entryLength e + entriesLength es := rfl
      have hin : EntryFits buf.length a e := by
        by_cases hdisabled : e.pinState = pinTypeDisabled
        · exact Or.inl hdisabled
        · have hentry : entryLength e = 3 + getTypeBitsNb e.pinState := if_neg hdisabled
          exact Or.inr ⟨by omega, by omega⟩
      have hfitRest : a + entryLength e + entriesLength es <
          8 * (orBits buf (entryPattern a e)).length := by
        rw [length_orBits]
        omega
      have hrest := ih hfitRest
      rw [List.foldlM_cons, writeFailsafeEntry_eq, if_pos hin, Option.bind_eq_bind,
        Option.bind_some, hrest, orBits_orBits, hlen, Nat.add_assoc]
      rfl

/-- Entries that have been written are inside the buffer. -/
theorem le_of_writeEntries {es : List PinFailsafe} {buf : Buffer} {a : Nat} {st : Buffer × Nat}
    (h : es.foldlM writeFailsafeEntry (buf, a) = some st) (hword : a + entriesLength es < 2 ^ 16) :
    entriesLength es = 0 ∨ a + entriesLength es ≤ 8 * buf.length := by
  induction es generalizing buf a with
  | nil => exact Or.inl rfl
  | cons e es ih =>
      have hlen : entriesLength (e :: es) = entryLength e + entriesLength es := rfl
      rw [List.foldlM_cons, writeFailsafeEntry_eq] at h
      by_cases hin : EntryFits buf.length a e
      · rw [if_pos hin, Option.bind_eq_bind, Option.bind_some] at h
        have hrest := ih h (by omega)
        rw [length_orBits] at hrest
        -- if nothing is written behind this entry, it is the entry itself that found room
        by_cases hdisabled : e.pinState = pinTypeDisabled
        · have hentry : entryLength e = 0 := if_pos hdisabled
          omega
        · have hentry : entryLength e = 3 + getTypeBitsNb e.pinState := if_neg hdisabled
          rcases hin with hdisabled' | ⟨_, hvalue⟩
          · exact absurd hdisabled' hdisabled
          · omega
      · rw [if_neg hin] at h
        cases h

theorem writeEntries_eq {es : List PinFailsafe} (hes : ∀ e ∈ es, e.Valid) {buf : Buffer} {a : Nat}
    (hfit : a + slotsLength es ≤ 8 * buf.length) :
    es.foldlM writeFailsafeEntry (buf, a) =
      some (orBits buf (tablePattern a es), a + entriesLength es) := by
  induction es generalizing buf a with
  | nil =>
      have hnone : tablePattern a [] = fun _ => false := rfl
      rw [hnone, orBits_false]
      rfl
  | cons e es ih =>
      have hsum : slotsLength (e :: es) = slotLength e + slotsLength es := rfl
      have hlen : entriesLength (e :: es) = entryLength e + entriesLength es := rfl
      have hle := entryLength_le e
      -- an entry may take less than its slot, never more
      have hfitRest : a + entryLength e + slotsLength es ≤
          8 * (orBits buf (entryPattern a e)).length := by
        rw [length_orBits]
        omega
      have hrest := ih (fun x hx => hes x (List.mem_cons_of_mem e hx)) hfitRest
      -- only a value field of width 0 would need a bit past its slot
      have hin : EntryFits buf.length a e := by
        by_cases hdisabled : e.pinState = pinTypeDisabled
        · exact Or.inl hdisabled
        · have hslot : slotLength e = 3 + getTypeBitsNb e.pinState := rfl
          have hpos := (hes e List.mem_cons_self).width_pos hdisabled
          exact Or.inr ⟨by omega, by omega⟩
      rw [List.foldlM_cons, writeFailsafeEntry_eq, if_pos hin, Option.bind_eq_bind,
        Option.bind_some, hrest, orBits_orBits, hlen, Nat.add_assoc]
      rfl

theorem writeFailsafe_eq {f : Failsafe} (hes : ∀ e ∈ f.pinsFailsafe, e.Valid) {buf : Buffer}
    {offset : Nat} (hfit : offset + slotsLength f.pinsFailsafe ≤ 8 * buf.length) :
    writeFailsafe buf offset f f.pinsFailsafe.length =
      some (orBits buf (tablePattern offset f.pinsFailsafe)) := by
  rw [writeFailsafe, foldlM_getElem?, writeEntries_eq hes hfit]
  rfl

/-! ## Reading -/

/-- The entries that the loop of `read_failsafe` finds, and the offset behind them. -/
def readEntries (buffer : Buffer) : Nat → Nat → Option (List PinFailsafe × Nat)
  | 0, a => some ([], a)
  | n + 1, a =>
      (readFailsafeEntry buffer a).bind fun r =>
        (readEntries buffer n r.2).map fun s => (r.1 :: s.1, s.2)

theorem length_readEntries {buffer : Buffer} {n a a' : Nat} {es : List PinFailsafe}
    (h : readEntries buffer n a = some (es, a')) : es.length = n := by
  induction n generalizing a es with
  | zero =>
      cases h
      rfl
  | succ n ih =>
      rcases Option.bind_eq_some_iff.mp h with ⟨r, _, hrest⟩
      rcases Option.map_eq_some_iff.mp hrest with ⟨⟨xs, last⟩, hread, heq⟩
      cases heq
      exact congrArg (· + 1) (ih hread)

theorem readLoop_eq (buffer : Buffer) (front rest tail : List PinFailsafe) (a : Nat) :
    (List.range' front.length rest.length).foldlM
        (fun (st : List PinFailsafe × Nat) i => (readFailsafeEntry buffer st.2).bind fun r =>
          (store st.1 i r.1).map fun pins => (pins, r.2))
        (front ++ (rest ++ tail), a) =
      (readEntries buffer rest.length a).map fun s => (front ++ (s.1 ++ tail), s.2) := by
  induction rest generalizing front a with
  | nil => rfl
  | cons x rest ih =>
      rw [List.length_cons, List.range'_succ, List.foldlM_cons, readEntries]
      cases hread : readFailsafeEntry buffer a with
      | none => rfl
      | some r =>
          have hstore : store (front ++ (x :: rest ++ tail)) front.length r.1 =
              some ((front ++ [r.1]) ++ (rest ++ tail)) := by
            rw [store_eq (by simp), List.set_append_right _ _ (Nat.le_refl _)]
            simp
          have hnext := ih (front ++ [r.1]) r.2
          rw [List.length_append, List.length_singleton] at hnext
          rw [Option.bind_some, hstore, Option.map_some, Option.bind_eq_bind, Option.bind_some,
            hnext, Option.bind_some, Option.map_map]
          refine congrArg (fun g => Option.map g _) (funext fun s => ?_)
          simp

/-- The reader fills the front of a table. -/
theorem readFailsafe_eq (buffer : Buffer) (offset : Nat) {g : Failsafe} {nbPins : Nat}
    (hlen : nbPins ≤ g.pinsFailsafe.length) :
    readFailsafe buffer offset g nbPins =
      (readEntries buffer nbPins offset).map fun s =>
        { g with pinsFailsafe := s.1 ++ g.pinsFailsafe.drop nbPins } := by
  have h := readLoop_eq buffer [] (g.pinsFailsafe.take nbPins) (g.pinsFailsafe.drop nbPins) offset
  rw [List.nil_append, List.take_append_drop, List.length_take, Nat.min_eq_left hlen,
    List.length_nil, ← List.range_eq_range'] at h
  rw [readFailsafe, h, Option.map_map]
  rfl

/-- One turn of the reader, in terms of the stream of the buffer. -/
theorem readFailsafeEntry_eq (buffer : Buffer) (a : Nat) :
    readFailsafeEntry buffer a =
      let type := BitVec.ofNat 8 (fieldRead (bitAt buffer) (a % 2 ^ 16) pinTypeBitsNb)
      if a % 2 ^ 16 + pinTypeBitsNb ≤ 8 * buffer.length ∧
          (a + pinTypeBitsNb) % 2 ^ 16 + max (getTypeBitsNb type) 1 ≤ 8 * buffer.length then
        some
          ({ pinState := type
             pinValue := BitVec.ofNat 16
              (fieldRead (bitAt buffer) ((a + pinTypeBitsNb) % 2 ^ 16) (getTypeBitsNb type)) },
            a + pinTypeBitsNb + getTypeBitsNb type)
      else none := by
  have htype := readBitValue_wrapped buffer a (show 3 ≤ 16 by decide)
  have hmax : max 3 1 = 3 := rfl
  rw [hmax] at htype
  have hbyte : (BitVec.ofNat 16 (fieldRead (bitAt buffer) (a % 2 ^ 16) 3)).setWidth 8 =
      BitVec.ofNat 8 (fieldRead (bitAt buffer) (a % 2 ^ 16) 3) := by
    refine BitVec.eq_of_toNat_eq ?_
    simp
  -- how many bits the value has is not known before the type is read
  by_cases hfit : a % 2 ^ 16 + 3 ≤ 8 * buffer.length
  · have hvalue := readBitValue_wrapped buffer (a + 3)
      (getTypeBitsNb_le (BitVec.ofNat 8 (fieldRead (bitAt buffer) (a % 2 ^ 16) 3)))
    rw [if_pos hfit] at htype
    simp only [readFailsafeEntry, pinTypeBitsNb, htype, Option.bind_eq_bind, Option.bind_some,
      hbyte, hvalue, hfit, true_and]
    split <;> rfl
  · rw [if_neg hfit] at htype
    simp only [readFailsafeEntry, pinTypeBitsNb, htype, hfit, false_and, if_false,
      Option.bind_eq_bind, Option.bind_none]

theorem toNat_readType (f : Nat → Bool) (a : Nat) :
    (BitVec.ofNat 8 (fieldRead f (a % 2 ^ 16) pinTypeBitsNb)).toNat =
      fieldRead f (a % 2 ^ 16) pinTypeBitsNb := by
  have hlt := fieldRead_lt_of_span (f := f) (show a % 2 ^ 16 % 8 + pinTypeBitsNb ≤ 16 by
    simp only [pinTypeBitsNb]
    omega)
  rw [BitVec.toNat_ofNat]
  exact Nat.mod_eq_of_lt (Nat.lt_of_lt_of_le hlt (by decide))

/-- Entries that have been read are those of the stream. -/
theorem readsAs_of_readEntries {buffer : Buffer} {es : List PinFailsafe} {a a' : Nat}
    (h : readEntries buffer es.length a = some (es, a')) : ReadsAs (bitAt buffer) a es := by
  induction es generalizing a with
  | nil => trivial
  | cons e es ih =>
      rcases Option.bind_eq_some_iff.mp h with ⟨⟨x, next⟩, hread, hrest⟩
      rcases Option.map_eq_some_iff.mp hrest with ⟨⟨xs, last⟩, hreadRest, heq⟩
      simp only [Prod.mk.injEq, List.cons.injEq] at heq
      rcases heq with ⟨⟨rfl, rfl⟩, rfl⟩
      rw [readFailsafeEntry_eq] at hread
      have hread := (Option.ite_none_right_eq_some.mp hread).2
      simp only [Option.some.injEq, Prod.mk.injEq] at hread
      rcases hread with ⟨rfl, rfl⟩
      refine ⟨⟨(toNat_readType _ a).symm, ?_⟩, ?_⟩
      · simp
      · have hnext := ih hreadRest
        rwa [Nat.add_assoc] at hnext

/-- The reader finds the entries of the stream, as far as the buffer reaches; values without any bit
need a bit more. -/
theorem readEntries_of_readsAs {buffer : Buffer} {es : List PinFailsafe} {a : Nat}
    (hfit : a + slotsLength es ≤ 8 * buffer.length)
    (hend : (∀ e ∈ es, 0 < getTypeBitsNb e.pinState) ∨ a + slotsLength es < 8 * buffer.length)
    (h : ReadsAs (bitAt buffer) a es) :
    readEntries buffer es.length a = some (es, a + slotsLength es) := by
  induction es generalizing a with
  | nil => rfl
  | cons e es ih =>
      rcases h with ⟨hentry, hrest⟩
      have hsum : slotsLength (e :: es) = slotLength e + slotsLength es := rfl
      have hslot : slotLength e = 3 + getTypeBitsNb e.pinState := rfl
      -- the slot of an entry whose value has bits ends where its reads end
      have hroom : 0 < getTypeBitsNb e.pinState ∨ a + slotLength e < 8 * buffer.length := by
        rcases hend with hpos | hlong
        · exact Or.inl (hpos e List.mem_cons_self)
        · exact Or.inr (by omega)
      have hendRest : (∀ x ∈ es, 0 < getTypeBitsNb x.pinState) ∨
          a + slotLength e + slotsLength es < 8 * buffer.length := by
        rcases hend with hpos | hlong
        · exact Or.inl fun x hx => hpos x (List.mem_cons_of_mem e hx)
        · exact Or.inr (by omega)
      have htype : BitVec.ofNat 8 (fieldRead (bitAt buffer) (a % 2 ^ 16) pinTypeBitsNb) =
          e.pinState := BitVec.eq_of_toNat_eq ((toNat_readType _ a).trans hentry.type)
      have hvalue : BitVec.ofNat 16 (fieldRead (bitAt buffer) ((a + pinTypeBitsNb) % 2 ^ 16)
          (getTypeBitsNb e.pinState)) = e.pinValue :=
        BitVec.eq_of_toNat_eq ((BitVec.toNat_ofNat _ _).trans hentry.value)
      have hinside : a % 2 ^ 16 + pinTypeBitsNb ≤ 8 * buffer.length ∧
          (a + pinTypeBitsNb) % 2 ^ 16 + max (getTypeBitsNb e.pinState) 1 ≤ 8 * buffer.length := by
        simp only [pinTypeBitsNb]
        omega
      have hread : readFailsafeEntry buffer a = some (e, a + slotLength e) := by
        rw [readFailsafeEntry_eq]
        simp only [htype, if_pos hinside, hvalue, slotLength, Nat.add_assoc]
      -- the rest of the entries starts behind the slot of this one
      have hnext := ih (by omega) hendRest hrest
      rw [List.length_cons, readEntries, hread, Option.bind_some, hnext, hsum, Nat.add_assoc]
      rfl

/-! ## Round trips -/

/-- A table is written into a cleared buffer of `len` bytes and read back into the table `g`. -/
def FailsafeRoundTrips (offset len : Nat) (f g : Failsafe) : Prop :=
  ∃ buffer g', writeFailsafe (zeros len) offset f f.pinsFailsafe.length = some buffer ∧
    readFailsafe buffer offset g f.pinsFailsafe.length = some g' ∧
    g'.pinsFailsafe = f.pinsFailsafe

/-- A table comes back exactly when no pin is disabled and every 16-bit value starts a byte or
leaves its first byte empty. -/
theorem failsafe_roundTrips_iff (offset : BitVec 16) (len : Nat) (f g : Failsafe)
    (hcount : g.pinsFailsafe.length = f.pinsFailsafe.length) (hbyte : f.pinsFailsafe.length < 2 ^ 8)
    (hvalid : ∀ e ∈ f.pinsFailsafe, e.Valid)
    (hfit : offset.toNat + slotsLength f.pinsFailsafe ≤ 8 * len) :
    FailsafeRoundTrips offset.toNat len f g ↔ Readable offset.toNat f.pinsFailsafe := by
  have hbase := offset.isLt
  have hfit' : offset.toNat + slotsLength f.pinsFailsafe ≤ 8 * (zeros len).length := by
    rw [length_zeros]
    exact hfit
  have hwrite := writeFailsafe_eq hvalid hfit'
  have hrange : ∀ e ∈ f.pinsFailsafe, e.InRange := fun e he => (hvalid e he).inRange
  obtain ⟨buffer, hbuffer⟩ :
      ∃ b, orBits (zeros len) (tablePattern offset.toNat f.pinsFailsafe) = b := ⟨_, rfl⟩
  rw [hbuffer] at hwrite
  have hbits : ∀ j, bitAt buffer j =
      (decide (j < 8 * len) && tablePattern offset.toNat f.pinsFailsafe j) := by
    intro j
    rw [← hbuffer, bitAt_orBits, bitAt_zeros, length_zeros, Bool.false_or]
  have hlen : buffer.length = len := by rw [← hbuffer, length_orBits, length_zeros]
  have hread := readFailsafe_eq buffer offset.toNat (Nat.le_of_eq hcount.symm)
  rw [List.drop_of_length_le (Nat.le_of_eq hcount)] at hread
  -- the buffer started as zeros: a bit that is set was written by some entry
  have hsub : ∀ j, bitAt buffer j = true → tablePattern offset.toNat f.pinsFailsafe j = true := by
    intro j hj
    rw [hbits, Bool.and_eq_true] at hj
    exact hj.2
  have hinside : ∀ a i, offset.toNat ≤ a → a ≤ offset.toNat + 2 ^ 13 → i < 2 ^ 5 →
      a + i < offset.toNat + slotsLength f.pinsFailsafe →
      bitAt buffer (a % 2 ^ 16 + i) =
        tablePattern offset.toNat f.pinsFailsafe (a % 2 ^ 16 + i) := by
    intro a i _ _ _ hpos
    rw [hbits, decide_eq_true (by omega), Bool.true_and]
  constructor
  · rintro ⟨buffer', g', hwrite', hread', hsame⟩
    rw [hwrite] at hwrite'
    cases hwrite'
    rw [hread] at hread'
    rcases Option.map_eq_some_iff.mp hread' with ⟨⟨es, a'⟩, hentries, heq⟩
    rw [← heq] at hsame
    have hes : es = f.pinsFailsafe := (List.append_nil es).symm.trans hsame
    rw [hes] at hentries
    have hreads := readsAs_of_readEntries hentries
    have hon := not_disabled_of_readsAs hbase hbyte hrange hsub hreads
    exact (readsAs_iff_readable hbase hbyte hrange hon hinside).mp hreads
  · intro hreadable
    have hon := hreadable.not_disabled
    have hreads := (readsAs_iff_readable hbase hbyte hrange hon hinside).mpr hreadable
    have hpos : ∀ e ∈ f.pinsFailsafe, 0 < getTypeBitsNb e.pinState := fun e he =>
      (hvalid e he).width_pos (hon e he)
    have hentries := readEntries_of_readsAs (by rw [hlen]; exact hfit) (Or.inl hpos) hreads
    rw [hentries] at hread
    exact ⟨buffer, _, hwrite, hread, List.append_nil _⟩

/-- A table that has been allocated and not filled. -/
def freshTable (nbPins : Nat) : Failsafe :=
  { timeout := 0, pinsFailsafe := List.replicate nbPins freshEntry }

/-- A disabled pin before a digital one. -/
def disabledFirst : Failsafe :=
  { timeout := 0, pinsFailsafe := [⟨pinTypeDisabled, 0⟩, ⟨pinTypeDigital, 1⟩] }

/-- The reader finds the digital pin one place too early. -/
theorem not_failsafe_roundTrips_disabled :
    (∀ e ∈ disabledFirst.pinsFailsafe, e.Valid) ∧
      ¬ FailsafeRoundTrips 0 4 disabledFirst (freshTable 2) := by
  refine ⟨fun e he => ?_, ?_⟩
  · simp only [disabledFirst, List.mem_cons, List.not_mem_nil, or_false] at he
    rcases he with rfl | rfl
    · exact ⟨Or.inr rfl, by decide⟩
    · exact ⟨Or.inl (by decide), by decide⟩
  · rintro ⟨buffer, g', hwrite, hread, hsame⟩
    have hresult : ((writeFailsafe (zeros 4) 0 disabledFirst disabledFirst.pinsFailsafe.length).bind
        fun buffer => (readFailsafe buffer 0 (freshTable 2) disabledFirst.pinsFailsafe.length).map
          Failsafe.pinsFailsafe) = some [⟨pinTypeDigital, 1⟩, ⟨pinTypeDigital, 0⟩] := by
      decide +kernel
    rw [hwrite, Option.bind_some, hread, Option.map_some, hsame] at hresult
    revert hresult
    decide

/-- A 16-bit value, a byte, a bit, and a 16-bit value that does not start a byte but is small. -/
def mixedTable : Failsafe :=
  { timeout := 0
    pinsFailsafe :=
      [⟨pinTypeAnalog16, 0xFFFF⟩, ⟨pinTypePwm8, 0xFF⟩, ⟨pinTypeDigital, 1⟩,
        ⟨pinTypePwm16, 0x1FF⟩] }

/-- From bit 5 on, the first value starts a byte. -/
theorem failsafe_roundTrips_mixed :
    FailsafeRoundTrips (5#16).toNat 8 mixedTable (freshTable 4) := by
  refine (failsafe_roundTrips_iff 5#16 8 mixedTable (freshTable 4) rfl (by decide)
    (fun e he => ?_) (by decide)).mpr (by decide)
  simp only [mixedTable, List.mem_cons, List.not_mem_nil, or_false] at he
  rcases he with rfl | rfl | rfl | rfl <;> exact ⟨Or.inl (by decide), by decide⟩

end PinProtocol
