import Mathlib.Logic.Function.Iterate

/-!
# Lasso — a counter that does not start over at zero

The counter counts from 0 up to `top - 1` and then goes on at `restart`, again and again: a tail of
`restart` values that are never seen again, and a loop of `top - restart` values.  Its value after
`n` steps has a closed form (`iterate_lassoNext`), from which follows when two values are different.
-/

namespace PinProtocol
namespace Control

variable {top restart : Nat}

def lassoNext (top restart x : Nat) : Nat :=
  if x + 1 = top then restart else x + 1

/-- The value after `n` steps from 0. -/
def lassoAt (top restart n : Nat) : Nat :=
  if n < top then n else restart + (n - top) % (top - restart)

/-- Past the tail no value lies in it. -/
theorem restart_le_lassoAt {n : Nat} (h : top ≤ n) : restart ≤ lassoAt top restart n := by
  rw [lassoAt, if_neg (Nat.not_lt.mpr h)]
  exact Nat.le_add_right _ _

theorem lassoNext_lassoAt (h : restart < top) (n : Nat) :
    lassoNext top restart (lassoAt top restart n) = lassoAt top restart (n + 1) := by
  by_cases hn : n < top
  · rw [lassoAt, if_pos hn, lassoNext, lassoAt]
    by_cases hlast : n + 1 = top
    · rw [if_pos hlast, if_neg (by omega), hlast, Nat.sub_self, Nat.zero_mod, Nat.add_zero]
    · rw [if_neg hlast, if_pos (by omega)]
  · have hpos : 0 < top - restart := by omega
    have hmod := Nat.mod_lt (n - top) hpos
    have hsucc : n + 1 - top = n - top + 1 := by omega
    have hnext : ¬ n + 1 < top := by omega
    rw [lassoAt, if_neg hn, lassoNext, lassoAt, if_neg hnext, hsucc, Nat.add_mod]
    -- one more than the remainder either stays below the length of the loop or meets it
    by_cases hlast : restart + (n - top) % (top - restart) + 1 = top
    · have hone : 1 % (top - restart) = 1 ∨ top - restart = 1 := by
        rcases Nat.lt_or_ge 1 (top - restart) with hlt | hle
        · exact Or.inl (Nat.mod_eq_of_lt hlt)
        · exact Or.inr (by omega)
      rcases hone with hone | hone
      · have hfull : (n - top) % (top - restart) + 1 = top - restart := by omega
        rw [if_pos hlast, hone, hfull, Nat.mod_self, Nat.add_zero]
      · rw [if_pos hlast, hone, Nat.mod_one, Nat.add_zero]
    · have hone : 1 % (top - restart) = 1 := Nat.mod_eq_of_lt (by omega)
      rw [if_neg hlast, hone, Nat.mod_eq_of_lt (a := (n - top) % (top - restart) + 1) (by omega)]
      omega

theorem iterate_lassoNext (h : restart < top) (n : Nat) :
    (lassoNext top restart)^[n] 0 = lassoAt top restart n := by
  induction n with
  | zero => simp [lassoAt, show 0 < top by omega]
  | succ n ih =>
      calc (lassoNext top restart)^[n + 1] 0
          = lassoNext top restart ((lassoNext top restart)^[n] 0) :=
            Function.iterate_succ_apply' _ n 0
        _ = lassoNext top restart (lassoAt top restart n) := by rw [ih]
        _ = lassoAt top restart (n + 1) := lassoNext_lassoAt h n

/-- Values that are less than one loop apart are different. -/
theorem lassoAt_ne {i j : Nat} (hij : i < j) (hnear : j - i < top - restart) :
    lassoAt top restart i ≠ lassoAt top restart j := by
  intro heq
  by_cases hi : i < top
  · by_cases hj : j < top
    · rw [lassoAt, if_pos hi, lassoAt, if_pos hj] at heq
      omega
    · -- `j` is in the first turn of the loop, and `i` is larger than its value
      rw [lassoAt, if_pos hi, lassoAt, if_neg hj, Nat.mod_eq_of_lt (by omega)] at heq
      omega
  · rw [lassoAt, if_neg hi, lassoAt, if_neg (by omega)] at heq
    have hmod : (j - top) % (top - restart) = (i - top) % (top - restart) := by omega
    have hzero := Nat.sub_mod_eq_zero_of_mod_eq hmod
    have hdiff : j - top - (i - top) = j - i := by omega
    rw [hdiff, Nat.mod_eq_of_lt hnear] at hzero
    omega

end Control
end PinProtocol
