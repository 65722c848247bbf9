import Mathlib.Data.List.Nodup
import PinProtocol.Control.Loops

/-!
# Assign — listed updates of a function

`assign is v g` is `g`, except that the `i`-th index of `is` gets the value `v i`.  It is what a
`scatter` of an array looks like to a reader who looks at one component of its entries: `shows x b`
says that the component of the entry `x` is `b`.
-/

namespace PinProtocol
namespace Control

variable {α β : Type}

/-- The `i`-th index of `is` gets the value `v i`. -/
def assign (is : List Nat) (v : Nat → β) (g : Nat → β) : Nat → β := fun q =>
  if q ∈ is then v (is.idxOf q) else g q

theorem assign_getElem {is : List Nat} (hnd : is.Nodup) (v g : Nat → β) {i : Nat}
    (hi : i < is.length) : assign is v g is[i] = v i := by
  rw [assign, if_pos (List.getElem_mem hi), hnd.idxOf_getElem i hi]

theorem assign_of_notMem {is : List Nat} (v g : Nat → β) {q : Nat} (hq : q ∉ is) :
    assign is v g q = g q :=
  if_neg hq

theorem scatter_singleton (upd : Nat → α → α) (i : Nat) (xs : List α) :
    scatter upd [i] xs = xs.modify i (upd 0) :=
  rfl

section Scatter

variable {upd : Nat → α → α} {is : List Nat} {xs : List α}

/-- An entry after the scatter. -/
theorem getD_scatter (hnd : is.Nodup) (his : ∀ i ∈ is, i < xs.length) (x₀ : α) (q : Nat) :
    (scatter upd is xs).getD q x₀ =
      if q ∈ is then upd (is.idxOf q) (xs.getD q x₀) else xs.getD q x₀ := by
  rw [List.getD_eq_getElem?_getD]
  by_cases hmem : q ∈ is
  · obtain ⟨i, hi, rfl⟩ := List.getElem_of_mem hmem
    have hlt := his _ hmem
    rw [if_pos hmem, getElem?_scatter upd hnd hi, hnd.idxOf_getElem i hi,
      List.getElem?_eq_getElem hlt, List.getD_eq_getElem _ _ hlt]
    rfl
  · rw [if_neg hmem, getElem?_scatter_of_notMem upd hmem, ← List.getD_eq_getElem?_getD]

/-- Updates that set what an entry shows. -/
theorem shows_scatter_set (shows : α → β → Prop) {v g : Nat → β}
    (hupd : ∀ i x, shows (upd i x) (v i)) (hnd : is.Nodup)
    (his : ∀ i ∈ is, i < xs.length) {x₀ : α} {q : Nat} (hq : shows (xs.getD q x₀) (g q)) :
    shows ((scatter upd is xs).getD q x₀) (assign is v g q) := by
  rw [List.getD_eq_getElem?_getD]
  by_cases hmem : q ∈ is
  · obtain ⟨i, hi, rfl⟩ := List.getElem_of_mem hmem
    rw [assign_getElem hnd _ _ hi, getElem?_scatter upd hnd hi,
      List.getElem?_eq_getElem (his _ hmem)]
    exact hupd i _
  · rw [assign_of_notMem _ _ hmem, getElem?_scatter_of_notMem upd hmem,
      ← List.getD_eq_getElem?_getD]
    exact hq

/-- Updates that leave it alone. -/
theorem shows_scatter_keep {P : α → Prop} (hupd : ∀ i x, P x → P (upd i x)) (hnd : is.Nodup)
    (his : ∀ i ∈ is, i < xs.length) {x₀ : α} {q : Nat} (hq : P (xs.getD q x₀)) :
    P ((scatter upd is xs).getD q x₀) := by
  rw [List.getD_eq_getElem?_getD]
  by_cases hmem : q ∈ is
  · obtain ⟨i, hi, rfl⟩ := List.getElem_of_mem hmem
    have hlt := his _ hmem
    rw [List.getD_eq_getElem _ _ hlt] at hq
    rw [getElem?_scatter upd hnd hi, List.getElem?_eq_getElem hlt]
    exact hupd i _ hq
  · rw [getElem?_scatter_of_notMem upd hmem, ← List.getD_eq_getElem?_getD]
    exact hq

end Scatter

end Control
end PinProtocol
