/-
Streams that arrive in pieces, and the search for a pattern in them.

A reader that asks a stream for up to `n` elements gets between one and `n` of them, or
none at its end.  `Pieces` is such a stream: its content, cut into the non-empty pieces in
which it arrives.  Every way of cutting the content is a value of the type, so a statement
about all `Pieces` with a given content is a statement about every fragmentation of it.

The second part is about a reader that looks for a pattern in a stream by the last elements
it has seen.  When no non-empty proper prefix of the pattern is also a suffix of it
(`Unbordered`), the pattern is seen exactly at the end of `g ++ p`, for every `g` that does
not contain it (`suffix_iff_of_unbordered`), even where `g` ends like the pattern begins.
-/
import Mathlib.Data.List.DropRight
import Mathlib.Data.List.Infix

variable {α : Type*}

/-- A stream, cut into the non-empty pieces in which it arrives. -/
structure Pieces (α : Type*) where
  /-- The pieces that are still to come. -/
  pieces : List (List α)
  /-- A piece is never empty: an empty read means the end of the stream. -/
  ne_nil : ∀ p ∈ pieces, p ≠ []

namespace Pieces

/-- What is still to come. -/
def content (s : Pieces α) : List α := s.pieces.flatten

/-- The stream that arrives in a single piece. -/
def whole (l : List α) : Pieces α where
  pieces := if l.isEmpty then [] else [l]
  ne_nil := by
    intro p hp
    split at hp
    · simp at hp
    · next h =>
        obtain rfl : p = l := by simpa using hp
        simpa using h

@[simp] lemma content_whole (l : List α) : (whole l).content = l := by
  cases l <;> simp [content, whole]

/-- What a read of up to `n` elements returns, and the stream after it. -/
def read (n : ℕ) (s : Pieces α) : List α × Pieces α :=
  match h : s.pieces with
  | [] => ([], s)
  | p :: ps =>
      if hp : p.length ≤ n then
        (p, ⟨ps, fun q hq => s.ne_nil q (h ▸ List.mem_cons_of_mem p hq)⟩)
      else
        (p.take n, ⟨p.drop n :: ps, fun q hq => by
          rcases List.mem_cons.1 hq with rfl | hq
          · simpa using hp
          · exact s.ne_nil q (h ▸ List.mem_cons_of_mem p hq)⟩)

/-- A read takes what it returns off the front of the stream. -/
lemma read_append_content (n : ℕ) (s : Pieces α) :
    (s.read n).1 ++ (s.read n).2.content = s.content := by
  unfold read
  split
  · rename_i h
    simp [content, h]
  · rename_i p ps h
    split
    · simp [content, h]
    · simp [content, h, ← List.append_assoc]

lemma length_read_le (n : ℕ) (s : Pieces α) : (s.read n).1.length ≤ n := by
  unfold read
  split
  · simp
  · split
    · assumption
    · exact List.length_take_le _ _

/-- Only the end of the stream is read as nothing. -/
lemma read_eq_nil_iff {n : ℕ} (hn : 0 < n) (s : Pieces α) :
    (s.read n).1 = [] ↔ s.content = [] := by
  unfold read
  split
  · rename_i h
    simp [content, h]
  · rename_i p ps h
    have hp : p ≠ [] := s.ne_nil p (h ▸ List.mem_cons_self)
    have hc : s.content ≠ [] := by simp [content, h, hp]
    split <;> simp [hp, hc, hn.ne']

lemma length_content_read (n : ℕ) (s : Pieces α) :
    (s.read n).1.length + (s.read n).2.content.length = s.content.length := by
  rw [← List.length_append, read_append_content]

end Pieces

/-! ### Patterns without borders -/

/-- No proper non-empty prefix of `p` is a suffix of `p`. -/
def Unbordered (p : List α) : Prop := ∀ b, b ≠ [] → b <+: p → b <:+ p → b = p

/-- In a prefix of `g ++ p`, where `g` does not contain the unbordered pattern `p`, the
pattern is the last thing seen only when all of `g ++ p` has been seen. -/
theorem suffix_iff_of_unbordered {p g xs : List α} (hp : Unbordered p)
    (hg : ¬ p <:+: g) (hxs : xs <+: g ++ p) : p <:+ xs ↔ xs = g ++ p := by
  constructor
  · intro hsuf
    rcases le_or_gt xs.length g.length with hlen | hlen
    · have hpre : xs <+: g := List.prefix_of_prefix_length_le hxs (List.prefix_append g p) hlen
      exact absurd (hsuf.isInfix.trans hpre.isInfix) hg
    · -- `xs = g ++ b` with `b` a non-empty prefix of `p`, so a border of `p`
      obtain ⟨b, rfl⟩ : g <+: xs :=
        List.prefix_of_prefix_length_le (List.prefix_append g p) hxs hlen.le
      have hb : b <+: p := (List.prefix_append_right_inj g).1 hxs
      have hbne : b ≠ [] := by
        rintro rfl
        simp at hlen
      have hbsuf : b <:+ p :=
        List.suffix_of_suffix_length_le (List.suffix_append g b) hsuf hb.length_le
      rw [hp b hbne hb hbsuf]
  · rintro rfl
    exact List.suffix_append g p

/-- A window of the length of the pattern is enough to see it. -/
lemma suffix_rtake_iff (p xs : List α) : p <:+ xs.rtake p.length ↔ p <:+ xs := by
  constructor
  · intro h
    exact h.trans (List.drop_suffix _ _)
  · intro h
    refine List.suffix_of_suffix_length_le h (List.drop_suffix _ _) ?_
    have := h.length_le
    rw [List.rtake, List.length_drop]
    omega

lemma length_rtake (n : ℕ) (xs : List α) : (xs.rtake n).length = min n xs.length := by
  rw [List.rtake, List.length_drop]
  omega

/-- The window over a list is the window over any suffix that is long enough. -/
lemma rtake_of_suffix {n : ℕ} {xs ys : List α} (h : ys <:+ xs)
    (hlen : min n xs.length ≤ ys.length) : ys.rtake n = xs.rtake n := by
  have hys : ys.rtake n <:+ xs := (List.drop_suffix _ _).trans h
  have hxs : xs.rtake n <:+ xs := List.drop_suffix _ _
  have hle := h.length_le
  have heq : (ys.rtake n).length = (xs.rtake n).length := by
    rw [length_rtake, length_rtake]
    omega
  exact (List.suffix_of_suffix_length_le hys hxs heq.le).eq_of_length heq

/-- Sliding the window by one element. -/
lemma rtake_append_singleton (n : ℕ) (xs : List α) (x : α) :
    (xs.rtake n ++ [x]).rtake n = (xs ++ [x]).rtake n := by
  refine rtake_of_suffix ?_ ?_
  · obtain ⟨zs, hzs⟩ : xs.rtake n <:+ xs := List.drop_suffix _ _
    exact ⟨zs, by rw [← List.append_assoc, hzs]⟩
  · rw [List.length_append, List.length_append, length_rtake, List.length_singleton]
    omega
