/-
Writing into the middle of a file or of a memory.

`write pad bs start piece` is `bs` with `piece` written from `start` on; where that lies behind the
end, `pad` fills the gap.  What is read there afterwards is the piece (`slice_write_self`), and what
is read beside it is what was there before (`slice_write_of_apart`).
-/
import Mathlib.Data.List.Basic
import Mathlib.Tactic.Linarith

namespace Patch

variable {α : Type*}

/-- The `n` elements from `start` on, as far as there are any. -/
def slice (bs : List α) (start n : ℕ) : List α := (bs.drop start).take n

/-- The list with a piece written from `start` on. -/
def write (pad : α) (bs : List α) (start : ℕ) (piece : List α) : List α :=
  (bs.rightpad start pad).take start ++ (piece ++ bs.drop (start + piece.length))

/-- Nothing lies both in one part and in the other. -/
def Apart (start n start' n' : ℕ) : Prop := start + n ≤ start' ∨ start' + n' ≤ start

variable {pad : α} {bs bs' piece : List α} {start o n : ℕ}

lemma length_slice (h : o + n ≤ bs.length) : (slice bs o n).length = n := by
  rw [slice, List.length_take, List.length_drop]
  omega

/-- Lists that agree from some place on. -/
lemma slice_congr {lo : ℕ} (h : bs.drop lo = bs'.drop lo) (ho : lo ≤ o) :
    slice bs o n = slice bs' o n := by
  obtain ⟨k, rfl⟩ := Nat.exists_eq_add_of_le ho
  rw [slice, slice, ← List.drop_drop, ← List.drop_drop, h]

lemma length_take_rightpad : ((bs.rightpad start pad).take start).length = start := by
  rw [List.length_take, List.length_rightpad]
  omega

lemma length_write : (write pad bs start piece).length = max bs.length (start + piece.length) := by
  rw [write, List.length_append, length_take_rightpad, List.length_append, List.length_drop]
  omega

lemma length_write_of_le (h : start + piece.length ≤ bs.length) :
    (write pad bs start piece).length = bs.length := by
  rw [length_write, max_eq_left h]

/-- What lies behind the piece stays. -/
lemma drop_write_of_ge (h : start + piece.length ≤ o) :
    (write pad bs start piece).drop o = bs.drop o := by
  rw [write, List.drop_append, length_take_rightpad, List.drop_append, List.drop_drop,
    List.drop_eq_nil_of_le (by rw [length_take_rightpad]; omega), List.nil_append,
    List.drop_eq_nil_of_le (by omega), List.nil_append]
  congr 1
  omega

/-- What lies before the piece stays. -/
lemma take_write_of_le (h : n ≤ start) (hn : n ≤ bs.length) :
    (write pad bs start piece).take n = bs.take n := by
  rw [write, List.take_append_of_le_length (by rw [length_take_rightpad]; omega), List.take_take,
    min_eq_left h, List.rightpad, List.take_append_of_le_length hn]

/-- The piece is read where it has been written. -/
lemma slice_write_self : slice (write pad bs start piece) start piece.length = piece := by
  rw [slice, write, List.drop_left' length_take_rightpad, List.take_left]

/-- What lies apart from the piece is read as before. -/
lemma slice_write_of_apart (h : Apart o n start piece.length) (hn : o + n ≤ bs.length) :
    slice (write pad bs start piece) o n = slice bs o n := by
  rcases h with hle | hge
  · rw [slice, slice, List.take_drop, List.take_drop, take_write_of_le hle hn]
  · rw [slice, slice, drop_write_of_ge hge]

end Patch
