import PinProtocol.Common.BitFields

/-!
# WriteOrder — bit writes in any order

Handlers fill the fields of a packet in the order that suits them: the failsafe reply gets its
timeout last, behind which the entries have already been written.  This is sound because a call of
`write_bit_value` is one OR with a pattern that its arguments determine.

* `BitWrite` is a call, with a width that the accessors are made for;
* `performAll_eq` is a list of calls as one OR, the pattern being the union of theirs;
* `writes_orderFree` says what follows: the list matters only as a set.

Ranges may overlap, and values may be negative or too wide for their field.
-/

namespace PinProtocol

open Bits Control

/-- The arguments of a call of `write_bit_value`, the buffer apart. -/
structure BitWrite where
  offset : BitVec 16
  val : BitVec 16
  valSize : Nat
  valSize_le : valSize ≤ 16

namespace BitWrite

def perform (call : BitWrite) (dst : Buffer) : Option Buffer :=
  writeBitValue dst call.offset.toNat call.val call.valSize

/-- The bits that the call sets, the ones in front of its field included. -/
def pattern (call : BitWrite) : Nat → Bool :=
  fieldBits call.offset.toNat call.val call.valSize

/-- The call starts at a bit of a buffer of `len` bytes, and ends inside of it. -/
def InRange (call : BitWrite) (len : Nat) : Prop :=
  call.offset.toNat < 8 * len ∧ call.offset.toNat + call.valSize ≤ 8 * len

instance (call : BitWrite) (len : Nat) : Decidable (call.InRange len) :=
  inferInstanceAs (Decidable (_ ∧ _))

theorem perform_eq (call : BitWrite) (dst : Buffer) :
    call.perform dst =
      if call.InRange dst.length then some (orBits dst call.pattern) else none := by
  have hfits : call.offset.toNat + max call.valSize 1 ≤ 8 * dst.length ↔
      call.InRange dst.length := by
    rw [InRange]
    omega
  rw [perform, writeBitValue_eq dst call.val call.offset.isLt call.valSize_le]
  exact if_congr hfits rfl rfl

end BitWrite

/-- The calls, one after the other. -/
def performAll (calls : List BitWrite) (dst : Buffer) : Option Buffer :=
  calls.foldlM (fun dst call => call.perform dst) dst

/-- The bits that any of the calls sets. -/
def unionPattern (calls : List BitWrite) (j : Nat) : Bool :=
  calls.any fun call => call.pattern j

theorem performAll_eq (calls : List BitWrite) (dst : Buffer) :
    performAll calls dst =
      if ∀ call ∈ calls, call.InRange dst.length then some (orBits dst (unionPattern calls))
      else none :=
  foldlM_orBits (P := fun len call => BitWrite.InRange call len) calls
    (fun call _ dst => call.perform_eq dst) dst

theorem unionPattern_congr {calls calls' : List BitWrite}
    (hsame : ∀ call, call ∈ calls' ↔ call ∈ calls) : unionPattern calls' = unionPattern calls := by
  funext j
  rw [Bool.eq_iff_iff, unionPattern, unionPattern, List.any_eq_true, List.any_eq_true]
  exact exists_congr fun call => and_congr_left fun _ => hsame call

/-- What packing relies on, for a list of calls on one buffer. -/
structure OrderFree (calls : List BitWrite) (dst : Buffer) : Prop where
  /-- On every buffer of this length, a call in range is an OR that does not look at it. -/
  call : ∀ call ∈ calls, call.InRange dst.length → ∀ buf : Buffer, buf.length = dst.length →
    call.perform buf = some (orBits buf call.pattern)
  final : (∀ call ∈ calls, call.InRange dst.length) →
    performAll calls dst = some (orBits dst (unionPattern calls))
  /-- Calls in another order, or some of them made more often, give the same buffer. -/
  anyOrder : ∀ calls' : List BitWrite, (∀ call, call ∈ calls' ↔ call ∈ calls) →
    performAll calls' dst = performAll calls dst

theorem writes_orderFree (calls : List BitWrite) (dst : Buffer) : OrderFree calls dst where
  call := by
    intro call _ hin buf hlen
    rw [call.perform_eq, hlen, if_pos hin]
  final := by
    intro hin
    rw [performAll_eq, if_pos hin]
  anyOrder := by
    intro calls' hsame
    have hin : (∀ call ∈ calls', call.InRange dst.length) ↔
        ∀ call ∈ calls, call.InRange dst.length :=
      forall_congr' fun call => imp_congr_left (hsame call)
    rw [performAll_eq, performAll_eq, unionPattern_congr hsame]
    exact if_congr hin rfl rfl

/-- Two overlapping calls, one of them with a negative value. -/
example :
    let low : BitWrite := ⟨4#16, 0xFFFF#16, 8, by decide⟩
    let high : BitWrite := ⟨0#16, 2#16, 4, by decide⟩
    performAll [low, high] (zeros 2) = performAll [high, low, high] (zeros 2) := by
  decide

end PinProtocol
