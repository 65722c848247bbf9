import Mathlib.Data.List.Induction
import PinProtocol.Common.Arrays
import PinProtocol.Common.Failsafe

/-!
# FailsafeStream — writer and reader of failsafe tables on one stream

The two loops of `write_failsafe` and `read_failsafe` walk the same stream by different rules: the
writer skips disabled pins, the reader takes three bits for every pin.  `Readable` says when they
stay together; a reader that has fallen behind never finds what has been written
(`not_disabled_of_readsAs`).

Running offsets are `uint16_t` values.  An offset of this module is the number before it wraps; a
bit of the stream is named by the wrapped offset of its field and its place in the field.
-/

namespace PinProtocol

open Bits Control

/-! ## Bits of a field, seen from another offset -/

/-- A reader at offset `a` and a writer at offset `q`, both at most a table away from where the
table starts. -/
structure Near (base q a : Nat) : Prop where
  word : base < 2 ^ 16
  writer_ge : base ≤ q
  writer_le : q ≤ base + 2 ^ 13
  reader_ge : base ≤ a
  reader_le : a ≤ base + 2 ^ 13

section Field

variable {base q a i width : Nat} {v : BitVec 16}

/-- Behind a field, and in its last `k` bits if they are clear in the value, nothing is set. -/
theorem Near.fieldBits_tail (h : Near base q a) (hi : i < 2 ^ 5) {k : Nat} (hk : k ≤ width)
    (hwidth : width ≤ 16) (hdvd : 2 ^ k ∣ v.toNat) (hpos : q + width ≤ a + i + k) :
    fieldBits (q % 2 ^ 16) v width (a % 2 ^ 16 + i) = false := by
  have hword := h.word
  have hwriter := h.writer_ge
  have hwriter' := h.writer_le
  have hreader := h.reader_ge
  have hreader' := h.reader_le
  by_cases hafter : q % 2 ^ 16 + width ≤ a % 2 ^ 16 + i
  · exact fieldBits_after v hafter
  · by_cases hbefore : a % 2 ^ 16 + i < 8 * (q % 2 ^ 16 / 8)
    · exact fieldBits_before v hbefore
    · -- neither has the offset of one wrapped without that of the other, nor is the bit outside
      have hidx : q % 2 ^ 16 + width - 1 - (a % 2 ^ 16 + i) < k := by omega
      have hbit : v.toNat.testBit (q % 2 ^ 16 + width - 1 - (a % 2 ^ 16 + i)) = false := by
        obtain ⟨n, hn⟩ := hdvd
        rw [hn, Nat.testBit_two_pow_mul, decide_eq_false (by omega), Bool.false_and]
      have hshort : q % 2 ^ 16 + width - 1 - (a % 2 ^ 16 + i) < 16 := by omega
      rw [fieldBits, intBit, if_pos hshort, ← BitVec.testBit_toNat, hbit, Bool.and_false]

/-- Before a tight field, nothing is set either. -/
theorem Near.fieldBits_left (h : Near base q a) (hi : i < 2 ^ 5) (hwidth : width ≤ 16)
    (htight : Tight (q % 2 ^ 16) v width) (hpos : a + i < q) :
    fieldBits (q % 2 ^ 16) v width (a % 2 ^ 16 + i) = false := by
  have hword := h.word
  have hwriter := h.writer_ge
  have hwriter' := h.writer_le
  have hreader := h.reader_ge
  have hreader' := h.reader_le
  by_cases hbefore : a % 2 ^ 16 + i < q % 2 ^ 16
  · exact htight.fieldBits_left hbefore
  · exact fieldBits_after v (by omega)

end Field

/-! ## The pattern of a table -/

/-- Bits that the reader takes for an entry. -/
def slotLength (e : PinFailsafe) : Nat :=
  pinTypeBitsNb + getTypeBitsNb e.pinState

/-- Bits that the writer leaves for an entry. -/
def entryLength (e : PinFailsafe) : Nat :=
  if e.pinState = pinTypeDisabled then 0 else slotLength e

def slotsLength (es : List PinFailsafe) : Nat :=
  (es.map slotLength).sum

def entriesLength (es : List PinFailsafe) : Nat :=
  (es.map entryLength).sum

/-- What the writer leaves in the buffer for an entry at offset `a`. -/
def entryPattern (a : Nat) (e : PinFailsafe) (j : Nat) : Bool :=
  if e.pinState = pinTypeDisabled then false
  else
    fieldBits (a % 2 ^ 16) (e.pinState.setWidth 16) pinTypeBitsNb j ||
      fieldBits ((a + pinTypeBitsNb) % 2 ^ 16) e.pinValue (getTypeBitsNb e.pinState) j

def tablePattern : Nat → List PinFailsafe → Nat → Bool
  | _, [], _ => false
  | a, e :: es, j => entryPattern a e j || tablePattern (a + entryLength e) es j

theorem tablePattern_append (a : Nat) (es es' : List PinFailsafe) (j : Nat) :
    tablePattern a (es ++ es') j =
      (tablePattern a es j || tablePattern (a + entriesLength es) es' j) := by
  induction es generalizing a with
  | nil => simp [tablePattern, entriesLength]
  | cons x es ih =>
      have hsum : a + entryLength x + entriesLength es = a + entriesLength (x :: es) := by
        simp [entriesLength, Nat.add_assoc]
      simp [tablePattern, ih, hsum, Bool.or_assoc]

theorem tablePattern_singleton (a : Nat) (e : PinFailsafe) (j : Nat) :
    tablePattern a [e] j = entryPattern a e j := by
  simp [tablePattern]

@[simp] theorem slotsLength_append (es es' : List PinFailsafe) :
    slotsLength (es ++ es') = slotsLength es + slotsLength es' := by
  simp [slotsLength]

@[simp] theorem slotsLength_singleton (e : PinFailsafe) : slotsLength [e] = slotLength e := by
  simp [slotsLength]

theorem entryLength_le (e : PinFailsafe) : entryLength e ≤ slotLength e := by
  unfold entryLength
  split
  · exact Nat.zero_le _
  · exact Nat.le_refl _

theorem slotLength_le (e : PinFailsafe) : slotLength e ≤ 19 := by
  have hbits := getTypeBitsNb_le e.pinState
  simp only [slotLength, pinTypeBitsNb]
  omega

theorem entriesLength_le (es : List PinFailsafe) : entriesLength es ≤ slotsLength es := by
  induction es with
  | nil => exact Nat.le_refl _
  | cons e es ih => exact Nat.add_le_add (entryLength_le e) ih

theorem slotsLength_le (es : List PinFailsafe) : slotsLength es ≤ 19 * es.length := by
  induction es with
  | nil => simp [slotsLength]
  | cons e es ih =>
      have he := slotLength_le e
      simp only [slotsLength, List.map_cons, List.sum_cons, List.length_cons] at ih ⊢
      omega

/-- Without disabled pins, writer and reader take the same bits. -/
theorem entriesLength_eq {es : List PinFailsafe} (h : ∀ e ∈ es, e.pinState ≠ pinTypeDisabled) :
    entriesLength es = slotsLength es := by
  have hmap : es.map entryLength = es.map slotLength :=
    List.map_congr_left fun e he => if_neg (h e he)
  rw [entriesLength, slotsLength, hmap]

/-- An entry of a table: its type is one of the five types or `DISABLED`, its value fits. -/
structure PinFailsafe.Valid (e : PinFailsafe) : Prop where
  type : e.pinState.toNat ≤ 4 ∨ e.pinState = pinTypeDisabled
  value : e.pinValue.toNat < 2 ^ getTypeBitsNb e.pinState

/-- An entry whose type is a type code and whose value has no more bits than its type. -/
structure PinFailsafe.InRange (e : PinFailsafe) : Prop where
  pinState : e.pinState.toNat < 8
  pinValue : e.pinValue.toNat < 2 ^ getTypeBitsNb e.pinState

theorem PinFailsafe.Valid.inRange {e : PinFailsafe} (h : e.Valid) : e.InRange := by
  refine ⟨?_, h.value⟩
  rcases h.type with htype | hdisabled
  · omega
  · rw [hdisabled]
    decide

/-- From offset `from'` on, the stream `f` has no bit. -/
def ClearFrom (base from' : Nat) (f : Nat → Bool) : Prop :=
  ∀ a i, base ≤ a → a ≤ base + 2 ^ 13 → i < 2 ^ 5 → from' ≤ a + i → f (a % 2 ^ 16 + i) = false

section Pattern

variable {base q : Nat} {e : PinFailsafe}

/-- Behind an entry, and in its last bits if they are clear in the value, nothing is set. -/
theorem entryPattern_tail (hbase : base < 2 ^ 16) (hq : base ≤ q) (hq' : q + 3 ≤ base + 2 ^ 13)
    {k : Nat} (hk : k ≤ getTypeBitsNb e.pinState) (hdvd : 2 ^ k ∣ e.pinValue.toNat) {a i : Nat}
    (ha : base ≤ a) (ha' : a ≤ base + 2 ^ 13) (hi : i < 2 ^ 5)
    (hpos : q + slotLength e ≤ a + i + k) : entryPattern q e (a % 2 ^ 16 + i) = false := by
  simp only [slotLength, pinTypeBitsNb] at hpos
  by_cases hdisabled : e.pinState = pinTypeDisabled
  · rw [entryPattern, if_pos hdisabled]
  · have hwidth := getTypeBitsNb_le e.pinState
    have htype : Near base q a := ⟨hbase, hq, by omega, ha, ha'⟩
    have hvalue : Near base (q + 3) a := ⟨hbase, by omega, hq', ha, ha'⟩
    simp only [entryPattern, if_neg hdisabled, pinTypeBitsNb]
    rw [htype.fieldBits_tail hi (Nat.zero_le 3) (by decide) (by simp) (by omega),
      hvalue.fieldBits_tail hi hk hwidth hdvd (by omega)]
    rfl

theorem entryPattern_after (hbase : base < 2 ^ 16) (hq : base ≤ q) (hq' : q + 3 ≤ base + 2 ^ 13) :
    ClearFrom base (q + entryLength e) (entryPattern q e) := by
  intro a i ha ha' hi hpos
  by_cases hdisabled : e.pinState = pinTypeDisabled
  · rw [entryPattern, if_pos hdisabled]
  · rw [entryLength, if_neg hdisabled] at hpos
    exact entryPattern_tail hbase hq hq' (Nat.zero_le _) (by simp) ha ha' hi hpos

/-- Behind a table nothing is set. -/
theorem tablePattern_after (hbase : base < 2 ^ 16) (es : List PinFailsafe) (hq : base ≤ q)
    (hq' : q + slotsLength es + 3 ≤ base + 2 ^ 13) :
    ClearFrom base (q + entriesLength es) (tablePattern q es) := by
  induction es generalizing q with
  | nil =>
      intro a i _ _ _ _
      rfl
  | cons e es ih =>
      intro a i ha ha' hi hpos
      have hle := entryLength_le e
      simp only [slotsLength, entriesLength, List.map_cons, List.sum_cons] at hq' hpos ih
      have hfirst := entryPattern_after (e := e) hbase hq (by omega) a i ha ha' hi (by omega)
      have hrest := ih (q := q + entryLength e) (by omega) (by omega) a i ha ha' hi (by omega)
      rw [tablePattern, hfirst, hrest]
      rfl

/-- Before the byte that a table starts in nothing is set. -/
theorem tablePattern_before {es : List PinFailsafe} {j : Nat} (hj : j < 8 * (q / 8))
    (hword : q + slotsLength es < 2 ^ 16) : tablePattern q es j = false := by
  induction es generalizing q with
  | nil => rfl
  | cons e es ih =>
      have hsum : slotsLength (e :: es) = slotLength e + slotsLength es := rfl
      have hslot : slotLength e = 3 + getTypeBitsNb e.pinState := rfl
      have hle := entryLength_le e
      have hrest := ih (q := q + entryLength e) (by omega) (by omega)
      rw [tablePattern, hrest, Bool.or_false, entryPattern]
      split
      · rfl
      · rw [fieldBits_before _ (by omega),
          fieldBits_before _ (by simp only [pinTypeBitsNb]; omega)]
        rfl

end Pattern

/-! ## Reading -/

/-- The reader finds the entry `e` at offset `a` of the stream `f`. -/
structure EntryRead (f : Nat → Bool) (a : Nat) (e : PinFailsafe) : Prop where
  type : fieldRead f (a % 2 ^ 16) pinTypeBitsNb = e.pinState.toNat
  value : fieldRead f ((a + pinTypeBitsNb) % 2 ^ 16) (getTypeBitsNb e.pinState) % 2 ^ 16 =
    e.pinValue.toNat

def ReadsAs (f : Nat → Bool) : Nat → List PinFailsafe → Prop
  | _, [] => True
  | a, e :: es => EntryRead f a e ∧ ReadsAs f (a + slotLength e) es

theorem readsAs_append {f : Nat → Bool} {a : Nat} (es es' : List PinFailsafe) :
    ReadsAs f a (es ++ es') ↔ ReadsAs f a es ∧ ReadsAs f (a + slotsLength es) es' := by
  induction es generalizing a with
  | nil => simp [ReadsAs, slotsLength]
  | cons e es ih =>
      have hsum : a + slotLength e + slotsLength es = a + slotsLength (e :: es) := by
        simp [slotsLength, Nat.add_assoc]
      simp only [List.cons_append, ReadsAs, ih, hsum, and_assoc]

/-- The reader looks at the stream from its own offset on. -/
theorem ReadsAs.congr {f g : Nat → Bool} {a : Nat} {es : List PinFailsafe}
    (hword : a + slotsLength es ≤ 2 ^ 16) (hfg : ∀ j, a ≤ j → f j = g j) (h : ReadsAs f a es) :
    ReadsAs g a es := by
  induction es generalizing a with
  | nil => trivial
  | cons e es ih =>
      have hsum : slotsLength (e :: es) = slotLength e + slotsLength es := rfl
      have hslot : slotLength e = 3 + getTypeBitsNb e.pinState := rfl
      rcases h with ⟨⟨htype, hvalue⟩, hrest⟩
      refine ⟨⟨?_, ?_⟩, ih (by omega) (fun j hj => hfg j (by omega)) hrest⟩
      · rw [← htype]
        exact fieldRead_congr fun i hi => (hfg _ (by omega)).symm
      · rw [← hvalue]
        refine congrArg (· % 2 ^ 16) (fieldRead_congr fun i hi => (hfg _ ?_).symm)
        simp only [pinTypeBitsNb]
        omega

/-! ## A reader that has fallen behind -/

/-- Where the reader is later than the writer, it finds the last entry only if that is a digital
pin with value 0: its value ends in zeros, so it is itself more and more divisible by 2. -/
theorem last_entry_of_late {base q ρ : Nat} {e : PinFailsafe} {f g : Nat → Bool}
    (hbase : base < 2 ^ 16) (hq : base ≤ q) (hlate : q + 3 ≤ ρ) (hρ : ρ + 3 ≤ base + 2 ^ 13)
    (he : e.InRange) (hg : ClearFrom base q g)
    (hf : ∀ j, f j = true → g j = true ∨ entryPattern q e j = true) (hread : EntryRead f ρ e) :
    e.pinState = pinTypeDigital ∧ e.pinValue = 0 := by
  have hbits := getTypeBitsNb_le e.pinState
  -- past the bits of the entry that are known to be 0, the stream is clear
  have hclear : ∀ k ≤ getTypeBitsNb e.pinState, 2 ^ k ∣ e.pinValue.toNat →
      ∀ a i, base ≤ a → a ≤ base + 2 ^ 13 → i < 2 ^ 5 → q + slotLength e ≤ a + i + k →
        f (a % 2 ^ 16 + i) = false := by
    intro k hk hdvd a i ha ha' hi hpos
    have hslot : slotLength e = 3 + getTypeBitsNb e.pinState := rfl
    cases hbit : f (a % 2 ^ 16 + i) with
    | false => rfl
    | true =>
        rcases hf _ hbit with h | h
        · rw [hg a i ha ha' hi (by omega)] at h
          cases h
        · rw [entryPattern_tail hbase hq (by omega) hk hdvd ha ha' hi hpos] at h
          cases h
  -- the value read back overlaps what was written: it is cleared bit by bit from below
  have hdvd : ∀ k ≤ getTypeBitsNb e.pinState, 2 ^ k ∣ e.pinValue.toNat := by
    intro k
    induction k with
    | zero => simp
    | succ k ih =>
        intro hk
        have hprev := ih (by omega)
        have htail : 2 ^ (k + 1) ∣ fieldRead f ((ρ + pinTypeBitsNb) % 2 ^ 16)
            (getTypeBitsNb e.pinState) := by
          refine two_pow_dvd_fieldRead hk fun i hi hlow => ?_
          exact hclear k (by omega) hprev (ρ + 3) i (by omega) (by omega) (by omega)
            (by simp only [slotLength, pinTypeBitsNb]; omega)
        rw [← hread.value]
        exact (Nat.dvd_mod_iff (pow_dvd_pow 2 (by omega))).mpr htail
  have hzero : e.pinValue.toNat = 0 :=
    Nat.eq_zero_of_dvd_of_lt (hdvd _ (Nat.le_refl _)) he.pinValue
  have htype : fieldRead f (ρ % 2 ^ 16) pinTypeBitsNb = 0 := by
    refine fieldRead_eq_zero fun i hi => ?_
    exact hclear _ (Nat.le_refl _) (hdvd _ (Nat.le_refl _)) ρ i (by omega) (by omega)
      (by simp only [pinTypeBitsNb] at hi; omega) (by simp only [slotLength, pinTypeBitsNb]; omega)
  refine ⟨BitVec.eq_of_toNat_eq ?_, BitVec.eq_of_toNat_eq hzero⟩
  rw [← hread.type, htype]
  rfl

/-- An entry of a digital pin with value 0 is written as zeros. -/
theorem entryPattern_zero {q : Nat} {e : PinFailsafe} (htype : e.pinState = pinTypeDigital)
    (hvalue : e.pinValue = 0) (j : Nat) : entryPattern q e j = false := by
  have hbit : ∀ i, intBit 0#16 i = false := by
    intro i
    unfold intBit
    split <;> simp
  have htypeBits : ∀ i, intBit ((pinTypeDigital).setWidth 16) i = false := hbit
  simp [entryPattern, htype, hvalue, fieldBits, hbit, htypeBits]

/-- If a late reader finds all entries of a table without disabled pins, then the table has left
nothing but zeros. -/
theorem clear_of_late {base q ρ : Nat} {f g : Nat → Bool} (hbase : base < 2 ^ 16) (hq : base ≤ q)
    (hlate : q + 3 ≤ ρ) (es : List PinFailsafe) (hρ : ρ + slotsLength es + 3 ≤ base + 2 ^ 13)
    (hes : ∀ e ∈ es, e.InRange) (hon : ∀ e ∈ es, e.pinState ≠ pinTypeDisabled)
    (hg : ClearFrom base q g) (hf : ∀ j, f j = true → g j = true ∨ tablePattern q es j = true)
    (hread : ReadsAs f ρ es) : ClearFrom base q f := by
  induction es using List.reverseRecOn with
  | nil =>
      intro a i ha ha' hi hpos
      cases hbit : f (a % 2 ^ 16 + i) with
      | false => rfl
      | true =>
          rcases hf _ hbit with h | h
          · rw [hg a i ha ha' hi hpos] at h
            cases h
          · cases h
  | append_singleton es e ih =>
      have hinit : ∀ x ∈ es, x ∈ es ++ [e] := fun x hx => List.mem_append_left _ hx
      have hlast : e ∈ es ++ [e] := List.mem_append_right _ List.mem_cons_self
      rw [slotsLength_append, slotsLength_singleton] at hρ
      rcases (readsAs_append es [e]).mp hread with ⟨hreadInit, hreadLast, _⟩
      have hsame := entriesLength_eq fun x hx => hon x (hinit x hx)
      have hslot := Nat.le_add_right 3 (getTypeBitsNb e.pinState)
      rw [show 3 + getTypeBitsNb e.pinState = slotLength e from rfl] at hslot
      -- what the last entry follows is clear where it starts
      have hgInit : ClearFrom base (q + entriesLength es) fun j => g j || tablePattern q es j := by
        intro a i ha ha' hi hpos
        have htable := tablePattern_after hbase es hq (by omega) a i ha ha' hi hpos
        show (g _ || tablePattern q es _) = false
        rw [hg a i ha ha' hi (by omega), htable]
        rfl
      have hzero := last_entry_of_late hbase (Nat.le_trans hq (Nat.le_add_right _ _))
        (show q + entriesLength es + 3 ≤ ρ + slotsLength es by omega) (by omega)
        (hes e hlast) hgInit (f := f) (fun j hj => by
          have h := hf j hj
          rw [tablePattern_append, tablePattern_singleton] at h
          simpa [or_assoc] using h) hreadLast
      refine ih (by omega) (fun x hx => hes x (hinit x hx)) (fun x hx => hon x (hinit x hx))
        (fun j hj => ?_) hreadInit
      have h := hf j hj
      rw [tablePattern_append, tablePattern_singleton, entryPattern_zero hzero.1 hzero.2,
        Bool.or_false] at h
      exact h

/-- A table with a disabled pin is not read back: behind the last disabled pin the reader is late,
so all that follows is zeros, and so is the place where the reader looks for `DISABLED`. -/
theorem not_disabled_of_readsAs {base : Nat} {f : Nat → Bool} (hbase : base < 2 ^ 16)
    {es : List PinFailsafe} (hlen : es.length < 2 ^ 8) (hes : ∀ e ∈ es, e.InRange)
    (hf : ∀ j, f j = true → tablePattern base es j = true) (hread : ReadsAs f base es) :
    ∀ e ∈ es, e.pinState ≠ pinTypeDisabled := by
  have hbound := slotsLength_le es
  -- from the back: the entries behind a prefix are not disabled
  have hfrom : ∀ front back, es = front ++ back → (∀ e ∈ back, e.pinState ≠ pinTypeDisabled) →
      ∀ e ∈ front, e.pinState ≠ pinTypeDisabled := by
    intro front
    induction front using List.reverseRecOn with
    | nil => simp
    | append_singleton front x ih =>
        intro back hsplit hback
        have hx : x.pinState ≠ pinTypeDisabled := by
          intro hdisabled
          have hwhole : es = front ++ (x :: back) := by simp [hsplit]
          rw [hwhole] at hread hf hbound hlen
          rcases (readsAs_append front (x :: back)).mp hread with ⟨_, hreadx, hreadBack⟩
          have hle := entriesLength_le front
          have hslotx : slotLength x = 3 := by
            rw [slotLength, hdisabled]
            rfl
          have hslots : slotsLength (x :: back) = slotLength x + slotsLength back := rfl
          rw [slotsLength_append, hslots] at hbound
          have hclear := clear_of_late hbase (Nat.le_add_right base (entriesLength front))
            (show base + entriesLength front + 3 ≤ base + slotsLength front + slotLength x by omega)
            back (by omega) (fun e he => hes e (by simp [hsplit, he])) hback
            (tablePattern_after hbase front (Nat.le_refl base) (by omega))
            (f := f) (fun j hj => by
              have h := hf j hj
              have hskip : entryLength x = 0 := if_pos hdisabled
              have hnone : entryPattern (base + entriesLength front) x j = false :=
                if_pos hdisabled
              rw [tablePattern_append, tablePattern, hskip, hnone, Nat.add_zero] at h
              simpa using h) hreadBack
          have htype : fieldRead f ((base + slotsLength front) % 2 ^ 16) pinTypeBitsNb = 0 := by
            refine fieldRead_eq_zero fun i hi => ?_
            simp only [pinTypeBitsNb] at hi
            exact hclear (base + slotsLength front) i (by omega) (by omega) (by omega) (by omega)
          have hseven := hreadx.type
          rw [htype, hdisabled] at hseven
          cases hseven
        intro e he
        rcases List.mem_append.mp he with hfront | hlast
        · refine ih (x :: back) (by simp [hsplit]) (fun y hy => ?_) e hfront
          rcases List.mem_cons.mp hy with rfl | hy
          · exact hx
          · exact hback y hy
        · rw [List.mem_singleton.mp hlast]
          exact hx
  exact hfrom es [] (List.append_nil es).symm (by simp)

/-! ## A reader that keeps up -/

/-- An entry at offset `a` is read back: the pin is enabled, and a 16-bit value either starts a byte
or leaves its first byte empty. -/
def EntryReadable (a : Nat) (e : PinFailsafe) : Prop :=
  e.pinState ≠ pinTypeDisabled ∧
    (getTypeBitsNb e.pinState = 16 →
      (a + pinTypeBitsNb) % 8 = 0 ∨ e.pinValue.toNat < 2 ^ (8 + (a + pinTypeBitsNb) % 8))

instance (a : Nat) (e : PinFailsafe) : Decidable (EntryReadable a e) :=
  inferInstanceAs (Decidable (_ ∧ _))

/-- The tables that are read back, written from offset `a` on. -/
def Readable : Nat → List PinFailsafe → Prop
  | _, [] => True
  | a, e :: es => EntryReadable a e ∧ Readable (a + slotLength e) es

instance decidableReadable : (a : Nat) → (es : List PinFailsafe) → Decidable (Readable a es)
  | _, [] => isTrue trivial
  | a, e :: es =>
      have := decidableReadable (a + slotLength e) es
      inferInstanceAs (Decidable (EntryReadable a e ∧ Readable (a + slotLength e) es))

theorem readable_append {a : Nat} (es es' : List PinFailsafe) :
    Readable a (es ++ es') ↔ Readable a es ∧ Readable (a + slotsLength es) es' := by
  induction es generalizing a with
  | nil => simp [Readable, slotsLength]
  | cons e es ih =>
      have hsum : a + slotLength e + slotsLength es = a + slotsLength (e :: es) := by
        simp [slotsLength, Nat.add_assoc]
      simp only [List.cons_append, Readable, ih, hsum, and_assoc]

theorem Readable.not_disabled {a : Nat} {es : List PinFailsafe} (h : Readable a es) :
    ∀ e ∈ es, e.pinState ≠ pinTypeDisabled := by
  induction es generalizing a with
  | nil => simp
  | cons x es ih =>
      intro e he
      rcases List.mem_cons.mp he with rfl | he
      · exact h.1.1
      · exact ih h.2 e he

/-- The value of an enabled pin has a bit. -/
theorem PinFailsafe.Valid.width_pos {e : PinFailsafe} (h : e.Valid)
    (hon : e.pinState ≠ pinTypeDisabled) : 0 < getTypeBitsNb e.pinState :=
  getTypeBitsNb_pos (h.type.resolve_right hon)

/-- The value of a type code fills two bytes, or is within one. -/
theorem getTypeBitsNb_eq_or_le (type : BitVec 8) :
    getTypeBitsNb type = 16 ∨ getTypeBitsNb type ≤ 8 := by
  unfold getTypeBitsNb
  split <;> decide

section KeepsUp

variable {base q : Nat} {e : PinFailsafe} {f : Nat → Bool}

/-- Entries that are read back leave the bits before them alone. -/
theorem EntryReadable.tight (h : EntryReadable q e) (he : e.InRange) :
    Tight (q % 2 ^ 16) (e.pinState.setWidth 16) pinTypeBitsNb ∧
      Tight ((q + pinTypeBitsNb) % 2 ^ 16) e.pinValue (getTypeBitsNb e.pinState) := by
  have htype := he.pinState
  have hvalue := he.pinValue
  refine ⟨Or.inr ⟨?_, ?_⟩, ?_⟩
  · rw [BitVec.toNat_setWidth]
    simp only [pinTypeBitsNb]
    omega
  · rw [BitVec.toNat_setWidth]
    omega
  · rcases getTypeBitsNb_eq_or_le e.pinState with hwide | hnarrow
    · rcases h.2 hwide with haligned | hsmall
      · exact Or.inl (by omega)
      · have hpow : 2 ^ (8 + (q + pinTypeBitsNb) % 8) ≤ 2 ^ 15 :=
          Nat.pow_le_pow_right (by decide) (by omega)
        exact Or.inr ⟨hvalue, Nat.lt_of_lt_of_le hsmall hpow⟩
    · have hpow : 2 ^ getTypeBitsNb e.pinState ≤ 2 ^ 8 :=
        Nat.pow_le_pow_right (by decide) hnarrow
      exact Or.inr ⟨hvalue, by omega⟩

/-- Bits before an entry that is read back are not touched by it. -/
theorem entryPattern_left (hbase : base < 2 ^ 16) (hq : base ≤ q) (hq' : q + 3 ≤ base + 2 ^ 13)
    (h : EntryReadable q e) (he : e.InRange) {a i : Nat} (ha : base ≤ a) (ha' : a ≤ base + 2 ^ 13)
    (hi : i < 2 ^ 5) (hpos : a + i < q) : entryPattern q e (a % 2 ^ 16 + i) = false := by
  have hwidth := getTypeBitsNb_le e.pinState
  rcases h.tight he with ⟨htype, hvalue⟩
  have hnear : Near base q a := ⟨hbase, hq, by omega, ha, ha'⟩
  have hnear' : Near base (q + 3) a := ⟨hbase, by omega, hq', ha, ha'⟩
  simp only [pinTypeBitsNb] at htype hvalue
  simp only [entryPattern, if_neg h.1, pinTypeBitsNb]
  rw [hnear.fieldBits_left hi (by decide) htype hpos,
    hnear'.fieldBits_left hi hwidth hvalue (by omega)]
  rfl

/-- Where the stream is the pattern of an entry, the entry is read exactly when it is readable. -/
theorem entryRead_iff (hbase : base < 2 ^ 16) (hq : base ≤ q) (hq' : q + 3 ≤ base + 2 ^ 13)
    (he : e.InRange) (hon : e.pinState ≠ pinTypeDisabled)
    (hf : ∀ a i, base ≤ a → a ≤ base + 2 ^ 13 → i < 2 ^ 5 → q ≤ a + i → a + i < q + slotLength e →
      f (a % 2 ^ 16 + i) = entryPattern q e (a % 2 ^ 16 + i)) :
    EntryRead f q e ↔ EntryReadable q e := by
  have hwidth := getTypeBitsNb_le e.pinState
  have htypeLt := he.pinState
  have hslot : slotLength e = 3 + getTypeBitsNb e.pinState := rfl
  -- the bits of the value are its own: the type has ended before
  have hvalueBits : ∀ i < getTypeBitsNb e.pinState, f ((q + 3) % 2 ^ 16 + i) =
      e.pinValue.toNat.testBit (getTypeBitsNb e.pinState - 1 - i) := by
    intro i hi
    have hnear : Near base q (q + 3) := ⟨hbase, hq, by omega, by omega, hq'⟩
    rw [hf (q + 3) i (by omega) hq' (by omega) (by omega) (by omega), entryPattern, if_neg hon,
      hnear.fieldBits_tail (by omega) (Nat.zero_le _) (by decide) (by simp)
        (by simp only [pinTypeBitsNb]; omega), Bool.false_or]
    exact fieldBits_inside e.pinValue hi hwidth
  have hvalue := fieldRead_mod_eq_iff hwidth he.pinValue hvalueBits
  have hmod : (q + 3) % 2 ^ 16 % 8 = (q + 3) % 8 := by omega
  rw [hmod] at hvalue
  constructor
  · rintro ⟨_, hread⟩
    refine ⟨hon, fun hwide => ?_⟩
    rcases hvalue.mp hread with hspan | hsmall
    · exact Or.inl (by simp only [pinTypeBitsNb]; omega)
    · refine Or.inr ?_
      have hexp : (q + 3) % 8 + getTypeBitsNb e.pinState - 8 = 8 + (q + 3) % 8 := by omega
      rw [hexp] at hsmall
      exact hsmall
  · intro hok
    rcases hok.tight he with ⟨_, htight⟩
    refine ⟨?_, hvalue.mpr ?_⟩
    · have hspan : q % 2 ^ 16 % 8 + 3 ≤ 16 := by omega
      have hbits : ∀ i < 3, f (q % 2 ^ 16 + i) = e.pinState.toNat.testBit (3 - 1 - i) := by
        intro i hi
        have hnear : Near base (q + 3) q := ⟨hbase, by omega, hq', hq, by omega⟩
        have hleft : fieldBits ((q + pinTypeBitsNb) % 2 ^ 16) e.pinValue
            (getTypeBitsNb e.pinState) (q % 2 ^ 16 + i) = false :=
          hnear.fieldBits_left (by omega) hwidth htight (by omega)
        rw [hf q i hq (by omega) (by omega) (by omega) (by omega), entryPattern, if_neg hon, hleft,
          Bool.or_false, pinTypeBitsNb, fieldBits_inside _ hi (by decide), BitVec.toNat_setWidth,
          Nat.mod_eq_of_lt (by omega)]
      rw [pinTypeBitsNb, fieldRead_eq_mod hspan hbits, Nat.mod_eq_of_lt (by omega)]
    · rcases getTypeBitsNb_eq_or_le e.pinState with hwide | hnarrow
      · rcases hok.2 hwide with haligned | hsmall
        · exact Or.inl (by simp only [pinTypeBitsNb] at haligned; omega)
        · refine Or.inr ?_
          have hexp : (q + 3) % 8 + getTypeBitsNb e.pinState - 8 = 8 + (q + 3) % 8 := by omega
          rw [hexp]
          exact hsmall
      · exact Or.inl (by omega)

end KeepsUp

/-- A table without disabled pins is read back exactly when it is readable. -/
theorem readsAs_iff_readable {base : Nat} {f : Nat → Bool} (hbase : base < 2 ^ 16)
    {es : List PinFailsafe} (hlen : es.length < 2 ^ 8) (hes : ∀ e ∈ es, e.InRange)
    (hon : ∀ e ∈ es, e.pinState ≠ pinTypeDisabled)
    (hf : ∀ a i, base ≤ a → a ≤ base + 2 ^ 13 → i < 2 ^ 5 → a + i < base + slotsLength es →
      f (a % 2 ^ 16 + i) = tablePattern base es (a % 2 ^ 16 + i)) :
    ReadsAs f base es ↔ Readable base es := by
  induction es using List.reverseRecOn with
  | nil => simp [ReadsAs, Readable]
  | append_singleton es e ih =>
      have hinit : ∀ x ∈ es, x ∈ es ++ [e] := fun x hx => List.mem_append_left _ hx
      have hlast : e ∈ es ++ [e] := List.mem_append_right _ List.mem_cons_self
      have hbound := slotsLength_le (es ++ [e])
      have hsame := entriesLength_eq fun x hx => hon x (hinit x hx)
      rw [List.length_append, List.length_singleton] at hlen hbound
      rw [slotsLength_append, slotsLength_singleton] at hf hbound
      simp only [tablePattern_append, tablePattern_singleton, hsame] at hf
      have hslot : slotLength e = 3 + getTypeBitsNb e.pinState := rfl
      have hentry : EntryRead f (base + slotsLength es) e ↔
          EntryReadable (base + slotsLength es) e := by
        refine entryRead_iff hbase (Nat.le_add_right _ _) (by omega) (hes e hlast) (hon e hlast)
          fun a i ha ha' hi hlo hhi => ?_
        have hpassed := tablePattern_after hbase es (Nat.le_refl base) (by omega) a i ha ha' hi
          (by omega)
        rw [hf a i ha ha' hi (by omega), hpassed, Bool.false_or]
      rw [readsAs_append, readable_append]
      simp only [ReadsAs, Readable, and_true, hentry]
      -- a readable last entry leaves the earlier ones as they were
      refine and_congr_left fun hok => ?_
      refine ih (by omega) (fun x hx => hes x (hinit x hx)) (fun x hx => hon x (hinit x hx))
        fun a i ha ha' hi hpos => ?_
      have hleft := entryPattern_left hbase (Nat.le_add_right base (slotsLength es)) (by omega) hok
        (hes e hlast) ha ha' hi hpos
      rw [hf a i ha ha' hi (by omega), hleft, Bool.or_false]

end PinProtocol
