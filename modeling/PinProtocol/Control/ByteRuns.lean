import PinProtocol.Control.Loops

/-!
# ByteRuns — the turns of a loop with an 8-bit counter

`byteLoop` runs `for (uint8_t i = 0; i < n; i++)` with a bound on the number of tests, and gives up
when it is exhausted.  A `ByteRun` has no such bound: it is a finite sequence of turns that comes to
an end, and lists the values of the counter on the way.

* `byteLoop_eq_some_iff`: with enough fuel, the two agree;
* `byteRun_iff`: below `2 ^ 8` the counter takes the values `0, …, n - 1`, and from `2 ^ 8` on the
  condition never fails, so that no run ends.
-/

namespace PinProtocol
namespace Control

variable {σ : Type} {n : Nat} {body : σ → Nat → Option σ}

/-- The loop, entered with the counter at `i` in the state `s`, ends in `t` after the turns that are
listed. -/
inductive ByteRun (n : Nat) (body : σ → Nat → Option σ) : Nat → σ → List Nat → σ → Prop where
  | stop {i : Nat} {s : σ} : ¬ i < n → ByteRun n body i s [] s
  | turn {i : Nat} {s s' t : σ} {turns : List Nat} :
      i < n → body s i = some s' → ByteRun n body ((i + 1) % 2 ^ 8) s' turns t →
        ByteRun n body i s (i :: turns) t

namespace ByteRun

theorem foldlM_eq {i : Nat} {s t : σ} {turns : List Nat} (h : ByteRun n body i s turns t) :
    turns.foldlM body s = some t := by
  induction h with
  | stop _ => rfl
  | turn _ hbody _ ih => rw [List.foldlM_cons, hbody, Option.bind_eq_bind, Option.bind_some, ih]

/-- A run ends because the counter has reached the bound: the bound is a value of the counter. -/
theorem bound_lt {i : Nat} {s t : σ} {turns : List Nat} (h : ByteRun n body i s turns t)
    (hi : i < 2 ^ 8) : n < 2 ^ 8 := by
  induction h with
  | stop hstop => omega
  | turn _ _ _ ih => exact ih (Nat.mod_lt _ (by decide))

theorem turns_eq {i : Nat} {s t : σ} {turns : List Nat} (h : ByteRun n body i s turns t)
    (hn : n < 2 ^ 8) (hi : i ≤ n) : turns = List.range' i (n - i) := by
  induction h with
  | @stop i s hstop =>
      have hzero : n - i = 0 := by omega
      rw [hzero, List.range'_zero]
  | @turn i s s' t turns hlt _ _ ih =>
      have hnext : (i + 1) % 2 ^ 8 = i + 1 := Nat.mod_eq_of_lt (by omega)
      have hlen : n - i = n - (i + 1) + 1 := by omega
      rw [hnext] at ih
      rw [ih (by omega), hlen, List.range'_succ]

/-- A run needs one test for each of its turns, and the last one. -/
theorem byteLoop_eq {i : Nat} {s t : σ} {turns : List Nat} (h : ByteRun n body i s turns t) :
    ∀ fuel, turns.length < fuel → byteLoop n body fuel i s = some t := by
  induction h with
  | stop hstop =>
      intro fuel hfuel
      obtain ⟨fuel, rfl⟩ := Nat.exists_eq_add_of_lt hfuel
      rw [byteLoop, if_neg hstop]
  | turn hlt hbody _ ih =>
      intro fuel hfuel
      rw [List.length_cons] at hfuel
      obtain ⟨fuel, rfl⟩ : ∃ k, fuel = k + 1 := ⟨fuel - 1, by omega⟩
      rw [byteLoop, if_pos hlt, hbody, Option.bind_some, ih fuel (by omega)]

end ByteRun

theorem exists_byteRun {fuel i : Nat} {s t : σ} (h : byteLoop n body fuel i s = some t) :
    ∃ turns, ByteRun n body i s turns t := by
  induction fuel generalizing i s with
  | zero => cases h
  | succ fuel ih =>
      rw [byteLoop] at h
      by_cases hlt : i < n
      · rw [if_pos hlt] at h
        obtain ⟨s', hbody, hrest⟩ := Option.bind_eq_some_iff.mp h
        obtain ⟨turns, hrun⟩ := ih hrest
        exact ⟨i :: turns, .turn hlt hbody hrun⟩
      · rw [if_neg hlt] at h
        cases h
        exact ⟨[], .stop hlt⟩

/-- Below `2 ^ 8`, the turns of the counter are those of a counter that does not wrap. -/
theorem byteRun_of_foldlM {i k : Nat} {s t : σ} (hn : n < 2 ^ 8) (hk : i + k = n)
    (h : (List.range' i k).foldlM body s = some t) : ByteRun n body i s (List.range' i k) t := by
  induction k generalizing i s with
  | zero =>
      cases h
      exact .stop (by omega)
  | succ k ih =>
      rw [List.range'_succ, List.foldlM_cons] at h
      obtain ⟨s', hbody, hrest⟩ := Option.bind_eq_some_iff.mp h
      have hnext : (i + 1) % 2 ^ 8 = i + 1 := Nat.mod_eq_of_lt (by omega)
      have hrun : ByteRun n body ((i + 1) % 2 ^ 8) s' (List.range' (i + 1) k) t := by
        rw [hnext]
        exact ih (by omega) hrest
      rw [List.range'_succ]
      exact .turn (by omega) hbody hrun

theorem byteRun_iff {s t : σ} {turns : List Nat} :
    ByteRun n body 0 s turns t ↔
      n < 2 ^ 8 ∧ turns = List.range n ∧ (List.range n).foldlM body s = some t := by
  constructor
  · intro h
    have hn := h.bound_lt (by decide)
    have hturns := h.turns_eq hn (Nat.zero_le n)
    rw [Nat.sub_zero, ← List.range_eq_range'] at hturns
    exact ⟨hn, hturns, hturns ▸ h.foldlM_eq⟩
  · rintro ⟨hn, rfl, h⟩
    rw [List.range_eq_range'] at h ⊢
    exact byteRun_of_foldlM hn (Nat.zero_add n) h

/-- `2 ^ 8 + 1` tests are enough for every loop that ends. -/
theorem byteLoop_eq_some_iff {fuel : Nat} (hfuel : 2 ^ 8 < fuel) {s t : σ} :
    byteLoop n body fuel 0 s = some t ↔ ∃ turns, ByteRun n body 0 s turns t := by
  constructor
  · exact exists_byteRun
  · rintro ⟨turns, h⟩
    obtain ⟨hn, rfl, -⟩ := byteRun_iff.mp h
    exact h.byteLoop_eq fuel (by rw [List.length_range]; omega)

/-- The loop ends in `t` after exactly `n` turns, one for each of `0, …, n - 1`. -/
def TurnsOnce (n : Nat) (body : σ → Nat → Option σ) (s t : σ) : Prop :=
  ∃ turns, ByteRun n body 0 s turns t ∧ turns.length = n ∧ ∀ i < n, turns.count i = 1

theorem turnsOnce_iff {s t : σ} :
    TurnsOnce n body s t ↔ n < 2 ^ 8 ∧ (List.range n).foldlM body s = some t := by
  constructor
  · rintro ⟨turns, h, -, -⟩
    obtain ⟨hn, -, hfold⟩ := byteRun_iff.mp h
    exact ⟨hn, hfold⟩
  · rintro ⟨hn, hfold⟩
    refine ⟨List.range n, byteRun_iff.mpr ⟨hn, rfl, hfold⟩, List.length_range, fun i hi => ?_⟩
    exact List.count_eq_one_of_mem List.nodup_range (List.mem_range.mpr hi)

end Control
end PinProtocol
