import Mathlib.Data.List.Perm.Basic
import PinProtocol.Control.History

/-!
# Cells — actions that assign constants to cells, and answer from cells

The state of a system is seen as a family of cells.  An action assigns values to some of them,
whatever they held before, and its answer depends on the cells that it reads.  `Assigning` is what
one step of such a system has to satisfy; the rest is about its runs:

* a cell holds what the latest action that assigns it has assigned (`cell_run`);
* an answer depends on the latest assignments of the cells that it reads (`answer_after_runs`);
* neighbouring actions that do not meet in a cell may change places (`run_reorders`).
-/

namespace PinProtocol
namespace Control

variable {S A O K : Type} {V : K → Type}

/-- One action after the other; the log has each with its answer. -/
def runLog (step : A → S → Option (O × S)) : List A → S → Option (List (A × O) × S)
  | [], s => some ([], s)
  | a :: as, s =>
      (step a s).bind fun r => (runLog step as r.2).map fun q => ((a, r.1) :: q.1, q.2)

theorem runLog_cons_eq_some {step : A → S → Option (O × S)} {a : A} {as : List A} {s s' : S}
    {log : List (A × O)} (h : runLog step (a :: as) s = some (log, s')) :
    ∃ o t rest, step a s = some (o, t) ∧ runLog step as t = some (rest, s') ∧
      log = (a, o) :: rest := by
  obtain ⟨⟨o, t⟩, hstep, hrest⟩ := Option.bind_eq_some_iff.mp h
  obtain ⟨⟨rest, s''⟩, hrun, heq⟩ := Option.map_eq_some_iff.mp hrest
  cases heq
  exact ⟨o, t, rest, hstep, hrun, rfl⟩

theorem runLog_cons {step : A → S → Option (O × S)} {a : A} {as : List A} {s t s' : S} {o : O}
    {rest : List (A × O)} (hstep : step a s = some (o, t))
    (hrun : runLog step as t = some (rest, s')) :
    runLog step (a :: as) s = some ((a, o) :: rest, s') := by
  rw [runLog, hstep, Option.bind_some, hrun]
  rfl

/-- The actions of `step`, in the states of `inv`, assign `assigned` and read `Reads`. -/
structure Assigning (step : A → S → Option (O × S)) (inv : S → Prop) (cell : S → (k : K) → V k)
    (assigned : A → (k : K) → Option (V k)) (Reads : A → K → Prop) : Prop where
  inv_step : ∀ {a s o s'}, inv s → step a s = some (o, s') → inv s'
  cell_step : ∀ {a s o s'}, inv s → step a s = some (o, s') →
    ∀ k, cell s' k = (assigned a k).getD (cell s k)
  answer : ∀ {a s t}, inv s → inv t → (∀ k, Reads a k → cell s k = cell t k) →
    (step a s).map Prod.fst = (step a t).map Prod.fst

/-- Two actions that do not meet: neither assigns a cell that the other assigns or reads. -/
def Apart (assigned : A → (k : K) → Option (V k)) (Reads : A → K → Prop) (a b : A) : Prop :=
  ∀ k, ((assigned a k).isSome → assigned b k = none ∧ ¬ Reads b k) ∧
    ((assigned b k).isSome → assigned a k = none ∧ ¬ Reads a k)

/-- Neighbours in relation `R` change places, any number of times. -/
inductive Reorders (R : A → A → Prop) : List A → List A → Prop where
  | nil : Reorders R [] []
  | cons (a : A) {as bs : List A} : Reorders R as bs → Reorders R (a :: as) (a :: bs)
  | swap {a b : A} (h : R a b) (as : List A) : Reorders R (a :: b :: as) (b :: a :: as)
  | trans {as bs cs : List A} : Reorders R as bs → Reorders R bs cs → Reorders R as cs

theorem Reorders.perm {R : A → A → Prop} {as bs : List A} (h : Reorders R as bs) :
    as.Perm bs := by
  induction h with
  | nil => exact .nil
  | cons a _ ih => exact ih.cons a
  | swap _ as => exact .swap _ _ as
  | trans _ _ ih ih' => exact ih.trans ih'

theorem Reorders.refl (R : A → A → Prop) (as : List A) : Reorders R as as := by
  induction as with
  | nil => exact .nil
  | cons a as ih => exact ih.cons a

namespace Assigning

variable {step : A → S → Option (O × S)} {inv : S → Prop} {cell : S → (k : K) → V k}
  {assigned : A → (k : K) → Option (V k)} {Reads : A → K → Prop}

theorem inv_run (h : Assigning step inv cell assigned Reads) {as : List A} :
    ∀ {s s' : S} {log : List (A × O)}, inv s → runLog step as s = some (log, s') → inv s' := by
  induction as with
  | nil =>
      intro s s' log hs hrun
      cases hrun
      exact hs
  | cons a as ih =>
      intro s s' log hs hrun
      obtain ⟨o, t, rest, hstep, hrest, -⟩ := runLog_cons_eq_some hrun
      exact ih (h.inv_step hs hstep) hrest

/-- At its end, a run has left in every cell what was last assigned to it. -/
theorem cell_run (h : Assigning step inv cell assigned Reads) {as : List A} :
    ∀ {s s' : S} {log : List (A × O)}, inv s → runLog step as s = some (log, s') →
      ∀ k, cell s' k = latest (fun a => assigned a k) (cell s k) as := by
  induction as with
  | nil =>
      intro s s' log _ hrun k
      cases hrun
      rfl
  | cons a as ih =>
      intro s s' log hs hrun k
      obtain ⟨o, t, rest, hstep, hrest, -⟩ := runLog_cons_eq_some hrun
      rw [ih (h.inv_step hs hstep) hrest, h.cell_step hs hstep, latest_cons]

/-- Two runs that have made the same assignments to the cells that `a` reads have the same answer
to `a`. -/
theorem answer_after_runs (h : Assigning step inv cell assigned Reads) {s t t' : S} (hs : inv s)
    {as bs : List A} {log log' : List (A × O)} (ht : runLog step as s = some (log, t))
    (ht' : runLog step bs s = some (log', t')) {a : A}
    (hsame : ∀ k, Reads a k →
      as.filterMap (fun c => assigned c k) = bs.filterMap fun c => assigned c k) :
    (step a t).map Prod.fst = (step a t').map Prod.fst := by
  refine h.answer (h.inv_run hs ht) (h.inv_run hs ht') fun k hk => ?_
  calc cell t k
      = latest (fun c => assigned c k) (cell s k) as := h.cell_run hs ht k
    _ = latest (fun c => assigned c k) (cell s k) bs := by rw [latest, latest, hsame k hk]
    _ = cell t' k := (h.cell_run hs ht' k).symm

/-- A step in a state that has the same in all cells that the action reads. -/
theorem step_of_same (h : Assigning step inv cell assigned Reads) {a : A} {s s' t : S} {o : O}
    (hs : inv s) (ht : inv t) (hsame : ∀ k, Reads a k → cell s k = cell t k)
    (hstep : step a s = some (o, s')) :
    ∃ t', step a t = some (o, t') ∧ inv t' ∧
      ∀ k, cell t' k = (assigned a k).getD (cell t k) := by
  have hanswer := h.answer hs ht hsame
  rw [hstep, Option.map_some] at hanswer
  obtain ⟨⟨o', t'⟩, hstep', rfl⟩ := Option.map_eq_some_iff.mp hanswer.symm
  exact ⟨t', hstep', h.inv_step ht hstep', h.cell_step ht hstep'⟩

/-- Runs from two states that look the same: they go the same way. -/
theorem run_of_same (h : Assigning step inv cell assigned Reads) {as : List A} :
    ∀ {s s' t : S} {log : List (A × O)}, inv s → inv t → (∀ k, cell s k = cell t k) →
      runLog step as s = some (log, s') →
        ∃ t', runLog step as t = some (log, t') ∧ ∀ k, cell s' k = cell t' k := by
  induction as with
  | nil =>
      intro s s' t log _ _ hsame hrun
      cases hrun
      exact ⟨t, rfl, hsame⟩
  | cons a as ih =>
      intro s s' t log hs ht hsame hrun
      obtain ⟨o, s₁, rest, hstep, hrest, rfl⟩ := runLog_cons_eq_some hrun
      obtain ⟨t₁, hstep', ht₁, hcells⟩ := h.step_of_same hs ht (fun k _ => hsame k) hstep
      have hsame₁ : ∀ k, cell s₁ k = cell t₁ k := by
        intro k
        rw [h.cell_step hs hstep k, hcells k, hsame k]
      obtain ⟨t', hrest', hend⟩ := ih (h.inv_step hs hstep) ht₁ hsame₁ hrest
      exact ⟨t', runLog_cons hstep' hrest', hend⟩

/-- Two neighbours that do not meet: the other order has the same answers, and ends in a state that
looks the same. -/
theorem step_swap (h : Assigning step inv cell assigned Reads) {a b : A}
    (hapart : Apart assigned Reads a b) {s s₁ s₂ : S} {o o' : O} (hs : inv s)
    (ha : step a s = some (o, s₁)) (hb : step b s₁ = some (o', s₂)) :
    ∃ t₁ t₂, step b s = some (o', t₁) ∧ step a t₁ = some (o, t₂) ∧ inv t₂ ∧
      ∀ k, cell s₂ k = cell t₂ k := by
  have hs₁ := h.inv_step hs ha
  have hkeep : ∀ k, Reads b k → cell s₁ k = cell s k := by
    intro k hk
    rw [h.cell_step hs ha k]
    cases hassigned : assigned a k with
    | none => rfl
    | some v => exact absurd hk ((hapart k).1 (by rw [hassigned]; rfl)).2
  obtain ⟨t₁, hb', ht₁, hcells₁⟩ := h.step_of_same hs₁ hs hkeep hb
  have hkeep' : ∀ k, Reads a k → cell s k = cell t₁ k := by
    intro k hk
    rw [hcells₁ k]
    cases hassigned : assigned b k with
    | none => rfl
    | some v => exact absurd hk ((hapart k).2 (by rw [hassigned]; rfl)).2
  obtain ⟨t₂, ha', ht₂, hcells₂⟩ := h.step_of_same hs ht₁ hkeep' ha
  refine ⟨t₁, t₂, hb', ha', ht₂, fun k => ?_⟩
  rw [h.cell_step hs₁ hb k, h.cell_step hs ha k, hcells₂ k, hcells₁ k]
  -- at most one of the two assigns the cell
  cases hassigned : assigned a k with
  | none => rfl
  | some v =>
      rw [((hapart k).1 (by rw [hassigned]; rfl)).1]
      rfl

/-- Actions that do not meet may be taken in another order. -/
theorem run_reorders (h : Assigning step inv cell assigned Reads) {as bs : List A}
    (hreorder : Reorders (Apart assigned Reads) as bs) :
    ∀ {s s' : S} {log : List (A × O)}, inv s → runLog step as s = some (log, s') →
      ∃ log' t', runLog step bs s = some (log', t') ∧
        Reorders (fun x y => Apart assigned Reads x.1 y.1) log log' ∧
          ∀ k, cell s' k = cell t' k := by
  induction hreorder with
  | nil =>
      intro s s' log _ hrun
      cases hrun
      exact ⟨[], s, rfl, .nil, fun _ => rfl⟩
  | cons a _ ih =>
      intro s s' log hs hrun
      obtain ⟨o, s₁, rest, hstep, hrest, rfl⟩ := runLog_cons_eq_some hrun
      obtain ⟨log', t', hrun', hlog, hend⟩ := ih (h.inv_step hs hstep) hrest
      exact ⟨_, t', runLog_cons hstep hrun', hlog.cons _, hend⟩
  | @swap a b hapart as =>
      intro s s' log hs hrun
      obtain ⟨o, s₁, _, ha, hrun₁, rfl⟩ := runLog_cons_eq_some hrun
      obtain ⟨o', s₂, rest, hb, hrest, rfl⟩ := runLog_cons_eq_some hrun₁
      obtain ⟨t₁, t₂, hb', ha', ht₂, hsame⟩ := h.step_swap hapart hs ha hb
      have hs₂ := h.inv_step (h.inv_step hs ha) hb
      obtain ⟨t', hrest', hend⟩ := h.run_of_same hs₂ ht₂ hsame hrest
      exact ⟨_, t', runLog_cons hb' (runLog_cons ha' hrest'),
        .swap (a := (a, o)) (b := (b, o')) hapart rest, hend⟩
  | trans _ _ ih ih' =>
      intro s s' log hs hrun
      obtain ⟨log₁, t₁, hrun₁, hlog₁, hend₁⟩ := ih hs hrun
      obtain ⟨log₂, t₂, hrun₂, hlog₂, hend₂⟩ := ih' hs hrun₁
      exact ⟨log₂, t₂, hrun₂, hlog₁.trans hlog₂, fun k => (hend₁ k).trans (hend₂ k)⟩

end Assigning

end Control
end PinProtocol
