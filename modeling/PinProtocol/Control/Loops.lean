import Mathlib.Data.List.Basic
import Mathlib.Data.List.Nodup
import PinProtocol.Bits.ByteStream

/-!
# Loops — rules for folds that may fault

Loops of the modelled programs are `List.foldlM` in `Option`, where `none` is a fault.  This module
collects the rules that turn such a loop into a closed form:

* `foldlM_guarded`: when every turn is a guard followed by a pure step, and no step changes what
  the guards look at, the loop is one guard followed by `List.foldl`;
* `foldlM_running`: a counter that advances by `w` on each turn can be computed from the index;
* `foldl_orBits` and `scatter`: the two pure loops that packing and unpacking come down to.
-/

namespace PinProtocol
namespace Control

open Bits

variable {α β σ τ : Type}

/-! ## Guarded loops -/

/-- A loop whose turns are guarded pure steps is a guarded pure loop, provided that the steps
preserve the part `μ` of the state that the guards depend on. -/
theorem foldlM_guarded {body : σ → α → Option σ} (step : σ → α → σ) {μ : σ → τ}
    {P : τ → α → Prop} [∀ t a, Decidable (P t a)] (l : List α)
    (hbody : ∀ a ∈ l, ∀ s, body s a = if P (μ s) a then some (step s a) else none)
    (hμ : ∀ s a, μ (step s a) = μ s) (s : σ) :
    l.foldlM body s = if ∀ a ∈ l, P (μ s) a then some (l.foldl step s) else none := by
  induction l generalizing s with
  | nil => simp
  | cons a l ih =>
      rw [List.foldlM_cons, hbody a List.mem_cons_self]
      by_cases ha : P (μ s) a
      · have hrest := ih (fun b hb => hbody b (List.mem_cons_of_mem a hb)) (step s a)
        rw [hμ] at hrest
        simpa [ha] using hrest
      · simp [ha]

/-- The invariant rule: a loop whose turns succeed and preserve `I` succeeds and ends in `I`. -/
theorem foldlM_invariant (body : σ → α → Option σ) {I : List α → σ → Prop}
    (hbody : ∀ a l s, I (a :: l) s → ∃ s', body s a = some s' ∧ I l s') :
    ∀ (l : List α) (s : σ), I l s → ∃ s', l.foldlM body s = some s' ∧ I [] s'
  | [], s, h => ⟨s, rfl, h⟩
  | a :: l, s, h => by
      obtain ⟨s', hs', hI⟩ := hbody a l s h
      obtain ⟨t, ht, hend⟩ := foldlM_invariant body hbody l s' hI
      exact ⟨t, by simp [List.foldlM_cons, hs', ht], hend⟩

/-- A loop whose turns leave `μ` as it is, if they do not fault, leaves it as it is. -/
theorem foldlM_keeps {body : σ → α → Option σ} {μ : σ → τ}
    (hbody : ∀ s a s', body s a = some s' → μ s' = μ s) :
    ∀ (l : List α) (s s' : σ), l.foldlM body s = some s' → μ s' = μ s
  | [], s, s', h => by
      rw [List.foldlM_nil] at h
      cases h
      rfl
  | a :: l, s, s', h => by
      rw [List.foldlM_cons] at h
      obtain ⟨t, ht, hrest⟩ := Option.bind_eq_some_iff.mp h
      calc μ s' = μ t := foldlM_keeps hbody l t s' hrest
        _ = μ s := hbody s a t ht

/-! ## Counters -/

/-- `for (uint8_t i = 0; i < n; i++)` with a bound `n` that may be wider than the counter.  `fuel`
bounds the number of tests of the condition. -/
def byteLoop (n : Nat) (body : σ → Nat → Option σ) : (fuel i : Nat) → σ → Option σ
  | 0, _, _ => none
  | fuel + 1, i, s =>
      if i < n then (body s i).bind (byteLoop n body fuel ((i + 1) % 2 ^ 8)) else some s

theorem byteLoop_eq_range' (n : Nat) (body : σ → Nat → Option σ) (hn : n < 2 ^ 8) (fuel i : Nat)
    (hi : i ≤ n) (hfuel : n - i < fuel) (s : σ) :
    byteLoop n body fuel i s = (List.range' i (n - i)).foldlM body s := by
  induction fuel generalizing i s with
  | zero => omega
  | succ fuel ih =>
      by_cases hlt : i < n
      · -- below the bound, the counter does not wrap
        have hnext : (i + 1) % 2 ^ 8 = i + 1 := Nat.mod_eq_of_lt (by omega)
        have hlen : n - i = n - (i + 1) + 1 := by omega
        have hrest : byteLoop n body fuel (i + 1) =
            fun s => (List.range' (i + 1) (n - (i + 1))).foldlM body s :=
          funext fun s => ih (i + 1) (by omega) (by omega) s
        simp only [byteLoop, hlt, if_true, hnext, hrest, hlen, List.range'_succ,
          List.foldlM_cons]
        rfl
      · have hend : n - i = 0 := by omega
        simp [byteLoop, hlt, hend]

/-- As long as the bound fits the counter, the loop visits `0, …, n - 1` in order. -/
theorem byteLoop_eq (n : Nat) (body : σ → Nat → Option σ) (hn : n < 2 ^ 8) {fuel : Nat}
    (hfuel : n < fuel) (s : σ) :
    byteLoop n body fuel 0 s = (List.range n).foldlM body s := by
  simpa [List.range_eq_range'] using byteLoop_eq_range' n body hn fuel 0 (by omega) hfuel s

/-- A counter advanced by `w` on each turn is a function of the index. -/
theorem foldlM_running (g : Nat → σ → α → Option σ) (w base : Nat) (l : List α) (k : Nat)
    (s : σ) :
    l.foldlM (fun (st : σ × Nat) a => (g st.2 st.1 a).map fun s' => (s', st.2 + w))
        (s, base + w * k) =
      ((l.zipIdx k).foldlM (fun s p => g (base + w * p.2) s p.1) s).map
        fun s' => (s', base + w * (k + l.length)) := by
  induction l generalizing k s with
  | nil => simp
  | cons a l ih =>
      rw [List.foldlM_cons, List.zipIdx_cons, List.foldlM_cons]
      cases hg : g (base + w * k) s a with
      | none => simp
      | some s' =>
          -- the counter of the next turn belongs to the next index
          have hnext : base + w * k + w = base + w * (k + 1) := by rw [Nat.mul_add]; omega
          have hlen : k + (a :: l).length = k + 1 + l.length := by simp; omega
          simp only [Option.map_some, Option.bind_eq_bind, Option.bind_some]
          rw [hnext, ih (k + 1) s', hlen]

/-- A pure loop on a pair whose parts do not look at each other is a pair of loops. -/
theorem foldl_prod (f : σ → α → σ) (g : τ → α → τ) (l : List α) (s : σ) (t : τ) :
    l.foldl (fun (st : σ × τ) a => (f st.1 a, g st.2 a)) (s, t) = (l.foldl f s, l.foldl g t) := by
  induction l generalizing s t with
  | nil => rfl
  | cons a l ih => exact ih (f s a) (g t a)

/-- A loop that appends one entry per turn, computed from the index. -/
theorem foldl_zipIdx_append (f : Nat → β) (l : List α) (acc : List β) :
    l.zipIdx.foldl (fun acc p => acc ++ [f p.2]) acc = acc ++ (List.range l.length).map f := by
  have hmap : (l.zipIdx.map fun p => f p.2) = (List.range l.length).map f := by
    rw [List.range_eq_range', ← List.zipIdx_map_snd 0 l, List.map_map]
    rfl
  rw [List.foldl_append_eq_append, ← hmap, ← List.flatMap_def, ← List.map_eq_flatMap]

/-- A loop over the first indices of a list that looks up one entry per turn is a loop over those
entries. -/
theorem foldlM_getElem?_append (body : σ → α → Option σ) (l tail : List α) (s : σ) :
    (List.range l.length).foldlM (fun s i => (l ++ tail)[i]?.bind (body s)) s =
      l.foldlM body s := by
  -- with `front` already visited, the indices start behind it
  have hshift : ∀ (front rest : List α) (s : σ),
      (List.range' front.length rest.length).foldlM
        (fun s i => (front ++ (rest ++ tail))[i]?.bind (body s)) s = rest.foldlM body s := by
    intro front rest
    induction rest generalizing front with
    | nil => intro s; rfl
    | cons a rest ih =>
        intro s
        have hnext := ih (front ++ [a])
        simp only [List.append_assoc, List.singleton_append, List.length_append,
          List.length_singleton] at hnext
        simp only [List.length_cons, List.range'_succ, List.foldlM_cons, List.cons_append, hnext]
        simp
  have h := hshift [] l s
  rwa [List.length_nil, List.nil_append, ← List.range_eq_range'] at h

theorem foldlM_getElem? (body : σ → α → Option σ) (l : List α) (s : σ) :
    (List.range l.length).foldlM (fun s i => l[i]?.bind (body s)) s = l.foldlM body s := by
  have h := foldlM_getElem?_append body l [] s
  rwa [List.append_nil] at h

theorem foldlM_getElem?_take (body : σ → α → Option σ) {l : List α} {n : Nat} (hn : n ≤ l.length)
    (s : σ) :
    (List.range n).foldlM (fun s i => l[i]?.bind (body s)) s = (l.take n).foldlM body s := by
  have h := foldlM_getElem?_append body (l.take n) (l.drop n) s
  rwa [List.take_append_drop, List.length_take, Nat.min_eq_left hn] at h

/-! ## OR loops -/

theorem foldl_orBits (pat : α → Nat → Bool) (l : List α) (buf : List Byte) :
    l.foldl (fun buf a => orBits buf (pat a)) buf =
      orBits buf fun j => l.any fun a => pat a j := by
  induction l generalizing buf with
  | nil => simp
  | cons a l ih =>
      rw [List.foldl_cons, ih, orBits_orBits]
      simp

/-- A loop of guarded ORs is one guarded OR. -/
theorem foldlM_orBits {body : List Byte → α → Option (List Byte)} {P : Nat → α → Prop}
    [∀ n a, Decidable (P n a)] {pat : α → Nat → Bool} (l : List α)
    (hbody : ∀ a ∈ l, ∀ buf,
      body buf a = if P buf.length a then some (orBits buf (pat a)) else none)
    (buf : List Byte) :
    l.foldlM body buf =
      if ∀ a ∈ l, P buf.length a then some (orBits buf fun j => l.any fun a => pat a j)
      else none := by
  have hguarded := foldlM_guarded (fun buf a => orBits buf (pat a)) (μ := List.length) l hbody
    (fun buf a => length_orBits buf (pat a)) buf
  rw [hguarded, foldl_orBits]

/-! ## Scattering -/

/-- Update the entries of `xs` at the indices `is`; `upd k` is the update of the `k`-th index. -/
def scatter (upd : Nat → α → α) (is : List Nat) (xs : List α) : List α :=
  is.zipIdx.foldl (fun xs p => xs.modify p.1 (upd p.2)) xs

/-- `scatter` with the first index numbered `k`. -/
def scatterFrom (upd : Nat → α → α) (k : Nat) (is : List Nat) (xs : List α) : List α :=
  (is.zipIdx k).foldl (fun xs p => xs.modify p.1 (upd p.2)) xs

@[simp] theorem length_scatterFrom (upd : Nat → α → α) (k : Nat) (is : List Nat) (xs : List α) :
    (scatterFrom upd k is xs).length = xs.length := by
  induction is generalizing k xs with
  | nil => rfl
  | cons i is ih =>
      have h := ih (k + 1) (xs.modify i (upd k))
      simpa [scatterFrom, List.zipIdx_cons] using h

@[simp] theorem length_scatter (upd : Nat → α → α) (is : List Nat) (xs : List α) :
    (scatter upd is xs).length = xs.length :=
  length_scatterFrom upd 0 is xs

theorem scatterFrom_cons (upd : Nat → α → α) (k i : Nat) (is : List Nat) (xs : List α) :
    scatterFrom upd k (i :: is) xs = scatterFrom upd (k + 1) is (xs.modify i (upd k)) := by
  simp [scatterFrom, List.zipIdx_cons]

/-- Entries whose index is not listed are unchanged. -/
theorem getElem?_scatterFrom_of_notMem (upd : Nat → α → α) {is : List Nat} {j : Nat}
    (hj : j ∉ is) (k : Nat) (xs : List α) : (scatterFrom upd k is xs)[j]? = xs[j]? := by
  induction is generalizing k xs with
  | nil => rfl
  | cons i is ih =>
      have hne : i ≠ j := fun h => hj (by simp [h])
      have hrest : j ∉ is := fun h => hj (List.mem_cons_of_mem _ h)
      rw [scatterFrom_cons, ih hrest, List.getElem?_modify_ne _ _ hne]

/-- When no index is listed twice, the `n`-th index receives its own update and no other. -/
theorem getElem?_scatterFrom (upd : Nat → α → α) {is : List Nat} (hnd : is.Nodup) {n : Nat}
    (hn : n < is.length) (k : Nat) (xs : List α) :
    (scatterFrom upd k is xs)[is[n]]? = (xs[is[n]]?).map (upd (k + n)) := by
  induction is generalizing n k xs with
  | nil => simp at hn
  | cons i is ih =>
      obtain ⟨hi, hnd⟩ := List.nodup_cons.mp hnd
      rw [scatterFrom_cons]
      cases n with
      | zero =>
          simp only [List.getElem_cons_zero, Nat.add_zero]
          rw [getElem?_scatterFrom_of_notMem upd hi, List.getElem?_modify_eq]
          rfl
      | succ n =>
          have hn' : n < is.length := by simpa using hn
          have hne : i ≠ is[n] := fun h => hi (by rw [h]; exact List.getElem_mem hn')
          have hidx : k + 1 + n = k + (n + 1) := by omega
          simp only [List.getElem_cons_succ]
          rw [ih hnd hn', List.getElem?_modify_ne _ _ hne, hidx]

/-- What an update of one entry establishes or keeps holds of all entries afterwards. -/
theorem forall_mem_modify {P : α → Prop} {xs : List α} (hxs : ∀ x ∈ xs, P x) {f : α → α}
    (hf : ∀ x, P x → P (f x)) (i : Nat) : ∀ x ∈ xs.modify i f, P x := by
  intro x hx
  rcases List.getElem?_of_mem hx with ⟨j, hj⟩
  rw [List.getElem?_modify] at hj
  rcases Option.map_eq_some_iff.mp hj with ⟨y, hy, rfl⟩
  have hmem := hxs y (List.mem_of_getElem? hy)
  by_cases h : i = j
  · simpa [h] using hf y hmem
  · simpa [h] using hmem

theorem forall_mem_scatterFrom {P : α → Prop} {upd : Nat → α → α}
    (hupd : ∀ i x, P x → P (upd i x)) (k : Nat) (is : List Nat) {xs : List α}
    (hxs : ∀ x ∈ xs, P x) : ∀ x ∈ scatterFrom upd k is xs, P x := by
  induction is generalizing k xs with
  | nil => exact hxs
  | cons i is ih =>
      rw [scatterFrom_cons]
      exact ih (k + 1) (forall_mem_modify hxs (hupd k) i)

theorem forall_mem_scatter {P : α → Prop} {upd : Nat → α → α}
    (hupd : ∀ i x, P x → P (upd i x)) (is : List Nat) {xs : List α} (hxs : ∀ x ∈ xs, P x) :
    ∀ x ∈ scatter upd is xs, P x :=
  forall_mem_scatterFrom hupd 0 is hxs

theorem getElem?_scatter_of_notMem (upd : Nat → α → α) {is : List Nat} {j : Nat} (hj : j ∉ is)
    (xs : List α) : (scatter upd is xs)[j]? = xs[j]? :=
  getElem?_scatterFrom_of_notMem upd hj 0 xs

theorem getElem?_scatter (upd : Nat → α → α) {is : List Nat} (hnd : is.Nodup) {n : Nat}
    (hn : n < is.length) (xs : List α) :
    (scatter upd is xs)[is[n]]? = (xs[is[n]]?).map (upd n) := by
  have h := getElem?_scatterFrom upd hnd hn 0 xs
  rwa [Nat.zero_add] at h

/-- Two scatters over the same indices agree exactly when they update each listed entry alike. -/
theorem scatter_eq_scatter_iff {upd upd' : Nat → α → α} {is : List Nat} (hnd : is.Nodup)
    (xs : List α) :
    scatter upd is xs = scatter upd' is xs ↔
      ∀ n (hn : n < is.length), (xs[is[n]]?).map (upd n) = (xs[is[n]]?).map (upd' n) := by
  constructor
  · intro h n hn
    have hget := congrArg (fun ys => ys[is[n]]?) h
    simpa [getElem?_scatter _ hnd hn] using hget
  · intro h
    apply List.ext_getElem?
    intro j
    by_cases hj : j ∈ is
    · obtain ⟨n, hn, rfl⟩ := List.getElem_of_mem hj
      rw [getElem?_scatter upd hnd hn, getElem?_scatter upd' hnd hn, h n hn]
    · rw [getElem?_scatter_of_notMem upd hj, getElem?_scatter_of_notMem upd' hj]

/-- A scatter changes nothing exactly when it changes no listed entry. -/
theorem scatter_eq_self_iff {upd : Nat → α → α} {is : List Nat} (hnd : is.Nodup) (xs : List α) :
    scatter upd is xs = xs ↔
      ∀ n (hn : n < is.length), (xs[is[n]]?).map (upd n) = xs[is[n]]? := by
  constructor
  · intro h n hn
    have hget := getElem?_scatter upd hnd hn xs
    rw [h] at hget
    exact hget.symm
  · intro h
    apply List.ext_getElem?
    intro j
    by_cases hj : j ∈ is
    · obtain ⟨n, hn, rfl⟩ := List.getElem_of_mem hj
      rw [getElem?_scatter upd hnd hn, h n hn]
    · rw [getElem?_scatter_of_notMem upd hj]

/-- A loop that updates one entry per turn, each under a guard of its own, is a guarded scatter. -/
theorem foldlM_scatter {body : List α → Nat × Nat → Option (List α)} {P : Nat → Prop}
    [DecidablePred P] (upd : Nat → α → α) (is : List Nat)
    (hbody : ∀ p ∈ is.zipIdx, ∀ xs, body xs p =
      if P p.2 ∧ p.1 < xs.length then some (xs.modify p.1 (upd p.2)) else none)
    (xs : List α) :
    is.zipIdx.foldlM body xs =
      if ∀ p ∈ is.zipIdx, P p.2 ∧ p.1 < xs.length then some (scatter upd is xs) else none :=
  foldlM_guarded _ (P := fun n (p : Nat × Nat) => P p.2 ∧ p.1 < n) (μ := List.length) _ hbody
    (fun _ _ => List.length_modify ..) _

end Control
end PinProtocol
