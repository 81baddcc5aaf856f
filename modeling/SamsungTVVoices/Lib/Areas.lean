/-
Pieces of a file, and areas that are only appended to.

`At file start piece` says that the piece stands in the file from `start` on.  Appending leaves
every piece where it is (`At.append`), and what is put in front moves it by its length
(`At.prepend`).  So whoever notes where each piece begins when it is appended can read every piece
back, in whatever order the pieces have come (`stored_foldl`).
-/
import Mathlib.Logic.Function.Basic
import Mathlib.Data.List.Perm.Basic

variable {α : Type*}

/-- The piece stands in the file from `start` on. -/
def At (file : List α) (start : ℕ) (piece : List α) : Prop :=
  ∃ front back, file = front ++ (piece ++ back) ∧ front.length = start

namespace At

variable {file piece : List α} {start : ℕ}

/-- The piece is read. -/
lemma take_drop (h : At file start piece) : (file.drop start).take piece.length = piece := by
  obtain ⟨front, back, rfl, rfl⟩ := h
  rw [List.drop_left, List.take_left]

lemma append (h : At file start piece) (more : List α) : At (file ++ more) start piece := by
  obtain ⟨front, back, rfl, hfront⟩ := h
  exact ⟨front, back ++ more, by rw [List.append_assoc, List.append_assoc], hfront⟩

lemma prepend (h : At file start piece) (pre : List α) :
    At (pre ++ file) (pre.length + start) piece := by
  obtain ⟨front, back, rfl, rfl⟩ := h
  exact ⟨pre ++ front, back, by rw [List.append_assoc], List.length_append⟩

lemma last (file piece : List α) : At (file ++ piece) file.length piece :=
  ⟨file, [], by rw [List.append_nil], rfl⟩

lemma le_length (h : At file start piece) : start + piece.length ≤ file.length := by
  obtain ⟨front, back, rfl, rfl⟩ := h
  rw [List.length_append, List.length_append]
  omega

/-- The beginning of the piece. -/
lemma take (h : At file start piece) (n : ℕ) : At file start (piece.take n) := by
  obtain ⟨front, back, rfl, hfront⟩ := h
  refine ⟨front, piece.drop n ++ back, ?_, hfront⟩
  rw [← List.append_assoc (piece.take n), List.take_append_drop]

end At

/-! ### Areas -/

/-- Some areas that are only appended to, and where in its area each piece begins. -/
structure Areas (κ ι α : Type*) where
  area : κ → List α
  start : ι → ℕ

namespace Areas

variable {κ ι : Type*} [DecidableEq κ] [DecidableEq ι]

/-- A piece is appended to an area. -/
def store (s : Areas κ ι α) (k : κ) (i : ι) (piece : List α) : Areas κ ι α where
  area := Function.update s.area k (s.area k ++ piece)
  start := Function.update s.start i (s.area k).length

variable (area : ι → κ) (piece : ι → List α)

/-- Storing a piece finds it where it has been noted, and no other piece is moved. -/
lemma stored_store {s : Areas κ ι α} {i j : ι}
    (h : i = j ∨ At (s.area (area i)) (s.start i) (piece i)) :
    At ((s.store (area j) j (piece j)).area (area i)) ((s.store (area j) j (piece j)).start i)
      (piece i) := by
  by_cases hij : i = j
  · subst hij
    rw [store]
    dsimp only
    rw [Function.update_self, Function.update_self]
    exact At.last _ _
  · have hat := h.resolve_left hij
    rw [store]
    dsimp only
    rw [Function.update_of_ne hij]
    by_cases hk : area i = area j
    · rw [hk] at hat ⊢
      rw [Function.update_self]
      exact hat.append _
    · rw [Function.update_of_ne hk]
      exact hat

/-- **Any order.** In whatever order the pieces are stored, each is found where it has been
noted. -/
theorem stored_foldl (order : List ι) (s : Areas κ ι α) {i : ι}
    (h : i ∈ order ∨ At (s.area (area i)) (s.start i) (piece i)) :
    At ((order.foldl (fun s j => s.store (area j) j (piece j)) s).area (area i))
      ((order.foldl (fun s j => s.store (area j) j (piece j)) s).start i) (piece i) := by
  induction order generalizing s with
  | nil =>
      rcases h with hmem | hat
      · cases hmem
      · exact hat
  | cons j order ih =>
      rw [List.foldl_cons]
      refine ih _ ?_
      rcases h with hmem | hat
      · rcases List.mem_cons.1 hmem with rfl | hmem
        · exact Or.inr (stored_store area piece (Or.inl rfl))
        · exact Or.inl hmem
      · exact Or.inr (stored_store area piece (Or.inr hat))

/-- What is in an area then. -/
lemma area_foldl (order : List ι) (s : Areas κ ι α) (k : κ) :
    (order.foldl (fun s j => s.store (area j) j (piece j)) s).area k =
      s.area k ++ (order.filter (area · = k)).flatMap piece := by
  induction order generalizing s with
  | nil => rw [List.foldl_nil, List.filter_nil, List.flatMap_nil, List.append_nil]
  | cons j order ih =>
      rw [List.foldl_cons, ih, store]
      dsimp only
      by_cases hk : area j = k
      · subst hk
        rw [Function.update_self, List.filter_cons_of_pos (by simp),
          List.flatMap_cons, List.append_assoc]
      · rw [Function.update_of_ne (Ne.symm hk), List.filter_cons_of_neg (by simpa using hk)]

end Areas
