import Mathlib.Data.List.Basic
import Mathlib.Data.List.Forall2

/-!
# Streams — a stream that is cut and padded

A stream is the concatenation of frames.  A reader receives it in chunks, pads each chunk with
blanks and takes what stands at its start for one frame.  When every chunk yields the frame of its
turn, the chunks are the frames: a chunk that is too long leaves too few marks for the others, and
blanks cannot move over a boundary.
-/

namespace PinProtocol
namespace Control

variable {α : Type} [DecidableEq α] {blank : α}

/-- `frame` is at the start of `chunk`, once that has been padded with blanks. -/
def StartsWith (blank : α) (chunk frame : List α) : Prop :=
  ∃ n, frame <+: chunk ++ List.replicate n blank

/-- The number of entries that are not blank. -/
def marks (blank : α) (l : List α) : Nat :=
  l.countP (· ≠ blank)

@[simp] theorem marks_append (l m : List α) :
    marks blank (l ++ m) = marks blank l + marks blank m :=
  List.countP_append

@[simp] theorem marks_replicate (n : Nat) : marks blank (List.replicate n blank) = 0 := by
  simp [marks]

theorem eq_replicate_of_marks {l : List α} (h : marks blank l = 0) :
    l = List.replicate l.length blank := by
  refine List.eq_replicate_iff.mpr ⟨rfl, fun x hx => ?_⟩
  have hblank := List.countP_eq_zero.mp h x hx
  simpa using hblank

theorem StartsWith.marks_le {chunk frame : List α} (h : StartsWith blank chunk frame) :
    marks blank frame ≤ marks blank chunk := by
  rcases h with ⟨n, hprefix⟩
  calc marks blank frame
      ≤ marks blank (chunk ++ List.replicate n blank) := hprefix.sublist.countP_le
    _ = marks blank chunk := by simp

/-- With equally many marks, the chunk and the frame differ in their trailing blanks only. -/
theorem StartsWith.common {chunk frame : List α} (h : StartsWith blank chunk frame)
    (hmarks : marks blank chunk = marks blank frame) :
    ∃ core m n,
      chunk = core ++ List.replicate m blank ∧ frame = core ++ List.replicate n blank := by
  rcases h with ⟨pad, rest, hrest⟩
  rcases List.append_eq_append_iff.mp hrest with ⟨extra, hchunk, -⟩ | ⟨extra, hframe, hpad⟩
  · -- the chunk goes on after the frame; nothing but blanks can follow
    have hzero : marks blank extra = 0 := by
      rw [hchunk, marks_append] at hmarks
      omega
    refine ⟨frame, extra.length, 0, ?_, by simp⟩
    rw [hchunk, ← eq_replicate_of_marks hzero]
  · have hzero : marks blank extra = 0 := by
      rw [hframe, marks_append] at hmarks
      omega
    refine ⟨chunk, 0, extra.length, by simp, ?_⟩
    rw [hframe, ← eq_replicate_of_marks hzero]

/-- A core with a mark stands behind equally many blanks in equal streams. -/
theorem blanks_unique {core : List α} (hcore : 0 < marks blank core) {m n : Nat} {l l' : List α}
    (h : List.replicate m blank ++ (core ++ l) = List.replicate n blank ++ (core ++ l')) :
    m = n := by
  have hfirst : ∀ k (rest : List α),
      (List.replicate k blank ++ (core ++ rest)).findIdx (· ≠ blank) =
        core.findIdx (· ≠ blank) + k := by
    intro k rest
    have hmark : core.findIdx (· ≠ blank) < core.length := by
      rcases List.countP_pos_iff.mp hcore with ⟨x, hx, hne⟩
      exact List.findIdx_lt_length_of_exists ⟨x, hx, hne⟩
    have hnone : (List.replicate k blank).findIdx (· ≠ blank) = k := by
      rw [List.findIdx_eq_length_of_false (by simp), List.length_replicate]
    rw [List.findIdx_append, List.findIdx_append, hnone, List.length_replicate,
      if_neg (Nat.lt_irrefl k), if_pos hmark]
  have heq := congrArg (List.findIdx (· ≠ blank)) h
  rw [hfirst, hfirst] at heq
  exact Nat.add_left_cancel heq

/-- Frames that all have a mark are what the chunks of their stream must be. -/
theorem chunks_eq_frames {chunks frames : List (List α)}
    (hstarts : List.Forall₂ (StartsWith blank) chunks frames)
    (hmark : ∀ frame ∈ frames, 0 < marks blank frame) :
    ∀ {m n : Nat}, List.replicate m blank ++ chunks.flatten =
      List.replicate n blank ++ frames.flatten → m = n ∧ chunks = frames := by
  have hle : ∀ {cs fs : List (List α)}, List.Forall₂ (StartsWith blank) cs fs →
      marks blank fs.flatten ≤ marks blank cs.flatten := by
    intro cs fs hall
    induction hall with
    | nil => exact Nat.le_refl _
    | cons hhead _ ih =>
        simp only [List.flatten_cons, marks_append]
        exact Nat.add_le_add hhead.marks_le ih
  -- the blanks in front are what the chunks and frames so far may still differ in
  induction hstarts with
  | nil =>
      intro m n h
      have hlen := congrArg List.length h
      simp only [List.flatten_nil, List.append_nil, List.length_replicate] at hlen
      exact ⟨hlen, rfl⟩
  | @cons chunk frame cs fs hhead htail ih =>
      intro m n h
      have htotal := congrArg (marks blank) h
      have hhead_le := hhead.marks_le
      have htail_le := hle htail
      simp only [List.flatten_cons, marks_append, marks_replicate, Nat.zero_add] at htotal
      rcases hhead.common (by omega) with ⟨core, x, y, hchunk, hframe⟩
      have hcore : 0 < marks blank core := by
        have hpos := hmark frame (by simp)
        rw [hframe, marks_append, marks_replicate] at hpos
        exact hpos
      rw [List.flatten_cons, List.flatten_cons, hchunk, hframe, List.append_assoc,
        List.append_assoc] at h
      have hmn := blanks_unique hcore h
      subst hmn
      have hrest := List.append_cancel_left (List.append_cancel_left h)
      rcases ih (fun f hf => hmark f (List.mem_cons_of_mem _ hf)) hrest with ⟨hxy, hcs⟩
      refine ⟨rfl, ?_⟩
      rw [hchunk, hframe, hxy, hcs]

end Control
end PinProtocol
