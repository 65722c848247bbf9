import Mathlib.Data.Nat.Bitwise
import Mathlib.Tactic.Ring

/-!
# Window — big-endian values of bit streams

A bit stream is a function `f : Nat → Bool`.  The *window* `[lo, lo + len)` of a stream is read as
an unsigned integer whose most significant bit is `f lo`.

The lemmas below are what a proof about packed binary data needs from such windows: how they
split, which bits they have, when two of them agree, and when they are divisible by a power of
two.  Nothing here depends on how the stream is stored.
-/

namespace PinProtocol
namespace Bits

variable {f g : Nat → Bool}

/-- Big-endian value of the `len` bits of `f` that start at position `lo`. -/
def window (f : Nat → Bool) (lo : Nat) : Nat → Nat
  | 0 => 0
  | len + 1 => 2 * window f lo len + (f (lo + len)).toNat

@[simp] theorem window_zero (f : Nat → Bool) (lo : Nat) : window f lo 0 = 0 := rfl

theorem window_succ (f : Nat → Bool) (lo len : Nat) :
    window f lo (len + 1) = 2 * window f lo len + (f (lo + len)).toNat := rfl

theorem window_lt (f : Nat → Bool) (lo len : Nat) : window f lo len < 2 ^ len := by
  induction len with
  | zero => simp
  | succ len ih =>
      have hbit : (f (lo + len)).toNat ≤ 1 := Bool.toNat_le _
      rw [window_succ, pow_succ]
      omega

/-- A window splits into its first `a` bits and the `b` bits that follow them. -/
theorem window_add (f : Nat → Bool) (lo a b : Nat) :
    window f lo (a + b) = window f lo a * 2 ^ b + window f (lo + a) b := by
  induction b with
  | zero => simp
  | succ b ih =>
      calc
        window f lo (a + (b + 1))
            = 2 * window f lo (a + b) + (f (lo + (a + b))).toNat := rfl
        _ = 2 * (window f lo a * 2 ^ b + window f (lo + a) b) + (f (lo + a + b)).toNat := by
            rw [ih, Nat.add_assoc]
        _ = window f lo a * 2 ^ (b + 1) + window f (lo + a) (b + 1) := by
            rw [window_succ f (lo + a) b, pow_succ]
            ring

theorem testBit_window (f : Nat → Bool) (lo len i : Nat) :
    (window f lo len).testBit i = (decide (i < len) && f (lo + len - 1 - i)) := by
  induction len generalizing i with
  | zero => simp
  | succ len ih =>
      cases i with
      | zero =>
          have hbit : (window f lo (len + 1)).testBit 0 = f (lo + len) := by
            rw [window_succ, Nat.testBit_zero]
            cases f (lo + len) <;> simp
          simpa using hbit
      | succ i =>
          -- every other bit is one of the window without its last bit
          have hhalf : window f lo (len + 1) / 2 = window f lo len := by
            have hbit : (f (lo + len)).toNat ≤ 1 := Bool.toNat_le _
            rw [window_succ]
            omega
          have hidx : lo + (len + 1) - 1 - (i + 1) = lo + len - 1 - i := by omega
          rw [Nat.testBit_succ, hhalf, ih, hidx]
          simp

theorem window_congr {lo len : Nat} (h : ∀ i < len, f (lo + i) = g (lo + i)) :
    window f lo len = window g lo len := by
  induction len with
  | zero => rfl
  | succ len ih =>
      have hinit : window f lo len = window g lo len := ih fun i hi => h i (by omega)
      rw [window_succ, window_succ, hinit, h len (by omega)]

/-- A window whose bits are the low bits of `v` has the value of those bits. -/
theorem window_eq_mod {lo len v : Nat} (h : ∀ i < len, f (lo + i) = v.testBit (len - 1 - i)) :
    window f lo len = v % 2 ^ len := by
  apply Nat.eq_of_testBit_eq
  intro i
  rw [testBit_window, Nat.testBit_mod_two_pow]
  by_cases hi : i < len
  · have hpos : lo + len - 1 - i = lo + (len - 1 - i) := by omega
    have hback : len - 1 - (len - 1 - i) = i := by omega
    rw [hpos, h (len - 1 - i) (by omega), hback]
  · simp [hi]

theorem window_eq_zero {lo len : Nat} (h : ∀ i < len, f (lo + i) = false) :
    window f lo len = 0 := by
  have hmod : window f lo len = 0 % 2 ^ len :=
    window_eq_mod (v := 0) fun i hi => by simpa using h i hi
  simpa using hmod

theorem window_eq_zero_iff {lo len : Nat} :
    window f lo len = 0 ↔ ∀ i < len, f (lo + i) = false := by
  constructor
  · intro hzero i hi
    have hbit := testBit_window f lo len (len - 1 - i)
    have hpos : lo + len - 1 - (len - 1 - i) = lo + i := by omega
    have hlt : len - 1 - i < len := by omega
    rw [hzero, Nat.zero_testBit, hpos, decide_eq_true hlt, Bool.true_and] at hbit
    exact hbit.symm
  · exact window_eq_zero

/-- If the last `c` bits of a window are clear, its value is a multiple of `2 ^ c`. -/
theorem two_pow_dvd_window {lo len c : Nat} (hc : c ≤ len)
    (h : ∀ i < c, f (lo + len - 1 - i) = false) : 2 ^ c ∣ window f lo len := by
  obtain ⟨a, rfl⟩ : ∃ a, len = a + c := ⟨len - c, by omega⟩
  have htail : window f (lo + a) c = 0 := by
    apply window_eq_zero
    intro i hi
    have hpos : lo + (a + c) - 1 - (c - 1 - i) = lo + a + i := by omega
    rw [← hpos]
    exact h (c - 1 - i) (by omega)
  rw [window_add, htail, Nat.add_zero]
  exact Nat.dvd_mul_left _ _

end Bits
end PinProtocol
