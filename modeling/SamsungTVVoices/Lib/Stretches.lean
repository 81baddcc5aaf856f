/-
Sets of numbers as stretches, and the handing out of stretches.

A list of stretches that do not touch one another stands for the set of the numbers in them.  As
they do not touch, a stretch of numbers of the set lies in one of them (`exists_of_Ico_subset`).

`Grants` is an allocator on sets: a request for `n` numbers is granted with the first place where
there are as many in a row, a request for a certain place if `accepts` says so, and what is handed
out is taken from the set.  Whatever is requested, no two stretches that have been granted meet
(`Grants.pairwise`).
-/
import Mathlib.Order.Interval.Set.Nat
import Mathlib.Order.Bounds.Basic
import Mathlib.Data.List.Pairwise
import Mathlib.Data.Set.Lattice
import Mathlib.Order.CompletePartialOrder

namespace Stretches

/-- The numbers of the stretches, each given by its start and its length. -/
def numbers (l : List (ℕ × ℕ)) : Set ℕ := {n | ∃ c ∈ l, n ∈ Set.Ico c.1 (c.1 + c.2)}

/-- The stretches are not empty, stand in order and do not touch. -/
structure Separate (l : List (ℕ × ℕ)) : Prop where
  pos : ∀ c ∈ l, 0 < c.2
  pairwise : l.Pairwise fun c d => c.1 + c.2 < d.1

variable {l l' : List (ℕ × ℕ)} {c d : ℕ × ℕ} {a n : ℕ}

lemma numbers_nil : numbers [] = ∅ := by
  ext n
  simp [numbers]

lemma numbers_cons : numbers (c :: l) = Set.Ico c.1 (c.1 + c.2) ∪ numbers l := by
  ext n
  simp [numbers]

lemma numbers_append : numbers (l ++ l') = numbers l ∪ numbers l' := by
  ext n
  simp only [numbers, List.mem_append, Set.mem_union, Set.mem_ofPred_eq, or_and_right, exists_or]

namespace Separate

lemma tail (h : Separate (c :: l)) : Separate l :=
  ⟨fun d hd => h.pos d (List.mem_cons_of_mem _ hd), h.pairwise.tail⟩

/-- Two different stretches do not touch. -/
lemma lt_or_lt (h : Separate l) (hc : c ∈ l) (hd : d ∈ l) (hne : c ≠ d) :
    c.1 + c.2 < d.1 ∨ d.1 + d.2 < c.1 := by
  induction l with
  | nil => cases hc
  | cons e l ih =>
      obtain ⟨hhead, -⟩ := List.pairwise_cons.1 h.pairwise
      rcases List.mem_cons.1 hc with rfl | hc'
      · rcases List.mem_cons.1 hd with rfl | hd'
        · exact absurd rfl hne
        · exact .inl (hhead d hd')
      · rcases List.mem_cons.1 hd with rfl | hd'
        · exact .inr (hhead c hc')
        · exact ih h.tail hc' hd'

/-- **One stretch.**  Numbers in a row that all belong to the stretches belong to one of them. -/
theorem exists_of_Ico_subset (h : Separate l) (hn : 0 < n)
    (hsub : Set.Ico a (a + n) ⊆ numbers l) : ∃ c ∈ l, c.1 ≤ a ∧ a + n ≤ c.1 + c.2 := by
  obtain ⟨c, hc, hac⟩ := hsub ⟨le_refl a, Nat.lt_add_of_pos_right hn⟩
  refine ⟨c, hc, hac.1, ?_⟩
  -- by induction, the number behind each of them is in the same stretch
  have hall : ∀ k, k < n → a + k < c.1 + c.2 := by
    intro k
    induction k with
    | zero => exact fun _ => hac.2
    | succ k ih =>
        intro hk
        have hlt := ih (Nat.lt_of_succ_lt hk)
        obtain ⟨d, hd, had⟩ := hsub (show a + (k + 1) ∈ Set.Ico a (a + n) from ⟨by omega, by omega⟩)
        by_cases hcd : c = d
        · exact hcd ▸ had.2
        · have hle : d.1 ≤ a + (k + 1) := had.1
          have hlt' : a + (k + 1) < d.1 + d.2 := had.2
          have hca : c.1 ≤ a := hac.1
          rcases h.lt_or_lt hc hd hcd with hcd | hdc
          · omega
          · omega
  have := hall (n - 1) (by omega)
  omega

end Separate

lemma Ico_subset_of_mem (hc : c ∈ l) (hle : c.1 ≤ a) (hend : a + n ≤ c.1 + c.2) :
    Set.Ico a (a + n) ⊆ numbers l :=
  fun _ hm => ⟨c, hc, hle.trans hm.1, lt_of_lt_of_le hm.2 hend⟩

/-! ### Taking a part of a stretch -/

/-- What is left of a stretch when `n` numbers are taken from `a` on. -/
def leftover (c : ℕ × ℕ) (a n : ℕ) : List (ℕ × ℕ) :=
  [(c.1, a - c.1), (a + n, c.1 + c.2 - (a + n))].filter fun d => 0 < d.2

lemma mem_leftover : d ∈ leftover c a n ↔
    (d = (c.1, a - c.1) ∨ d = (a + n, c.1 + c.2 - (a + n))) ∧ 0 < d.2 := by
  rw [leftover, List.mem_filter, List.mem_pair, decide_eq_true_iff]

lemma numbers_leftover (hle : c.1 ≤ a) (hend : a + n ≤ c.1 + c.2) :
    numbers (leftover c a n) = Set.Ico c.1 (c.1 + c.2) \ Set.Ico a (a + n) := by
  ext m
  simp only [numbers, Set.mem_ofPred_eq, mem_leftover, Set.mem_sdiff, Set.mem_Ico]
  constructor
  · rintro ⟨d, ⟨rfl | rfl, hpos⟩, hm⟩
    · dsimp only at hpos hm
      omega
    · dsimp only at hpos hm
      omega
  · rintro ⟨hm, hout⟩
    by_cases hlt : m < a
    · exact ⟨_, ⟨.inl rfl, by dsimp only; omega⟩, by dsimp only; omega⟩
    · exact ⟨_, ⟨.inr rfl, by dsimp only; omega⟩, by dsimp only; omega⟩

/-- A part is taken of one of the stretches. -/
theorem Separate.carve {front back : List (ℕ × ℕ)} (h : Separate (front ++ c :: back)) (hn : 0 < n)
    (hle : c.1 ≤ a) (hend : a + n ≤ c.1 + c.2) :
    Separate (front ++ (leftover c a n ++ back)) ∧
      numbers (front ++ (leftover c a n ++ back)) =
        numbers (front ++ c :: back) \ Set.Ico a (a + n) := by
  obtain ⟨hfront, hcb, hcross⟩ := List.pairwise_append.1 h.pairwise
  obtain ⟨hcback, hback⟩ := List.pairwise_cons.1 hcb
  -- what is left lies within the stretch
  have hwithin : ∀ d ∈ leftover c a n, c.1 ≤ d.1 ∧ d.1 + d.2 ≤ c.1 + c.2 := by
    intro d hd
    obtain ⟨rfl | rfl, hpos⟩ := mem_leftover.1 hd
    · exact ⟨le_refl _, by dsimp only; omega⟩
    · exact ⟨by dsimp only; omega, by dsimp only at hpos ⊢; omega⟩
  refine ⟨⟨?_, ?_⟩, ?_⟩
  · intro d hd
    rcases List.mem_append.1 hd with hd | hd
    · exact h.pos d (List.mem_append_left _ hd)
    · rcases List.mem_append.1 hd with hd | hd
      · exact (mem_leftover.1 hd).2
      · exact h.pos d (List.mem_append_right _ (List.mem_cons_of_mem _ hd))
  · refine List.pairwise_append.2 ⟨hfront, List.pairwise_append.2 ⟨?_, hback, ?_⟩, ?_⟩
    · refine List.Pairwise.filter _ ?_
      refine List.pairwise_cons.2 ⟨?_, List.pairwise_singleton _ _⟩
      intro d hd
      obtain rfl := List.mem_singleton.1 hd
      dsimp only
      omega
    · intro d hd e he
      have := (hwithin d hd).2
      have := hcback e he
      omega
    · intro d hd e he
      have hdc := hcross d hd c List.mem_cons_self
      rcases List.mem_append.1 he with he | he
      · have := (hwithin e he).1
        omega
      · have := hcback e he
        omega
  · -- the other stretches lie apart from what is taken
    have hother : ∀ d ∈ front ++ back, Disjoint (Set.Ico d.1 (d.1 + d.2)) (Set.Ico a (a + n)) := by
      intro d hd
      refine Set.disjoint_left.2 fun m hm hma => ?_
      have h₁ : d.1 ≤ m := hm.1
      have h₂ : m < d.1 + d.2 := hm.2
      have h₃ : a ≤ m := hma.1
      have h₄ : m < a + n := hma.2
      rcases List.mem_append.1 hd with hd | hd
      · have := hcross d hd c List.mem_cons_self
        omega
      · have := hcback d hd
        omega
    have hdiff : ∀ l : List (ℕ × ℕ), (∀ d ∈ l, d ∈ front ++ back) →
        numbers l \ Set.Ico a (a + n) = numbers l := by
      intro l hl
      refine sdiff_eq_left.2 (Set.disjoint_left.2 ?_)
      rintro m ⟨d, hd, hm⟩ hma
      exact Set.disjoint_left.1 (hother d (hl d hd)) hm hma
    rw [numbers_append, numbers_append, numbers_append, numbers_cons, Set.union_sdiff_distrib,
      Set.union_sdiff_distrib, numbers_leftover hle hend,
      hdiff front fun d hd => List.mem_append_left _ hd,
      hdiff back fun d hd => List.mem_append_right _ hd]

/-! ### Handing out -/

/-- A request for so many numbers, perhaps at a certain place. -/
structure Request where
  place : Option ℕ
  size : ℕ

/-- What a request is granted: where, or that it is refused, and what is left then.  A request
without a place gets the first one that there is. -/
inductive Grant (accepts : Set ℕ → ℕ → ℕ → Prop) (free : Set ℕ) :
    Request → Option ℕ → Set ℕ → Prop
  | first {n a : ℕ} (ha : IsLeast {a | Set.Ico a (a + n) ⊆ free} a) :
      Grant accepts free ⟨none, n⟩ (some a) (free \ Set.Ico a (a + n))
  | nowhere {n : ℕ} (hnone : ∀ a, ¬ Set.Ico a (a + n) ⊆ free) :
      Grant accepts free ⟨none, n⟩ none free
  | there {n a : ℕ} (haccepts : accepts free a n) (hsub : Set.Ico a (a + n) ⊆ free) :
      Grant accepts free ⟨some a, n⟩ (some a) (free \ Set.Ico a (a + n))
  | refused {n a : ℕ} (hnone : ¬ accepts free a n) : Grant accepts free ⟨some a, n⟩ none free

/-- What requests are granted that are made one after the other. -/
inductive Grants (accepts : Set ℕ → ℕ → ℕ → Prop) :
    Set ℕ → List Request → List (Option ℕ) → Set ℕ → Prop
  | nil {free : Set ℕ} : Grants accepts free [] [] free
  | cons {free free' free'' : Set ℕ} {r : Request} {a : Option ℕ} {rs : List Request}
      {as : List (Option ℕ)} (hgrant : Grant accepts free r a free')
      (hrest : Grants accepts free' rs as free'') : Grants accepts free (r :: rs) (a :: as) free''

/-- The stretches that have been granted. -/
def granted (rs : List Request) (as : List (Option ℕ)) : List (Set ℕ) :=
  (rs.zip as).filterMap fun x => x.2.map fun a => Set.Ico a (a + x.1.size)

namespace Grants

variable {accepts : Set ℕ → ℕ → ℕ → Prop} {free free' : Set ℕ} {rs : List Request}
  {as : List (Option ℕ)}

lemma eq_diff_cons {s : Set ℕ} {ss : List (Set ℕ)} (hs : s ⊆ free)
    (h : (∀ t ∈ ss, t ⊆ free \ s) ∧ free' = {n ∈ free \ s | ∀ t ∈ ss, n ∉ t}) :
    (∀ t ∈ s :: ss, t ⊆ free) ∧ free' = {n ∈ free | ∀ t ∈ s :: ss, n ∉ t} := by
  refine ⟨fun t ht => ?_, ?_⟩
  · rcases List.mem_cons.1 ht with rfl | ht
    · exact hs
    · exact (h.1 t ht).trans Set.sdiff_subset
  · rw [h.2]
    ext n
    simp only [Set.mem_sdiff, Set.mem_ofPred_eq, List.forall_mem_cons, and_assoc]

/-- What is granted was free, and what is left is the rest. -/
theorem eq_diff (h : Grants accepts free rs as free') :
    (∀ s ∈ granted rs as, s ⊆ free) ∧ free' = {n ∈ free | ∀ s ∈ granted rs as, n ∉ s} := by
  induction h with
  | nil =>
      refine ⟨fun s hs => (List.not_mem_nil hs).elim, ?_⟩
      ext n
      simp [granted]
  | cons hgrant _ ih =>
      cases hgrant with
      | first ha => exact eq_diff_cons ha.1 ih
      | nowhere _ => exact ih
      | there _ hsub => exact eq_diff_cons hsub ih
      | refused _ => exact ih

/-- What has been taken is not granted again. -/
lemma disjoint_of_grants {s : Set ℕ} (h : Grants accepts (free \ s) rs as free') :
    ∀ t ∈ granted rs as, Disjoint s t :=
  fun t ht => Set.disjoint_sdiff_right.mono_right (h.eq_diff.1 t ht)

/-- **Apart.**  No two of the stretches that are granted meet. -/
theorem pairwise (h : Grants accepts free rs as free') :
    (granted rs as).Pairwise Disjoint := by
  induction h with
  | nil => exact .nil
  | cons hgrant hrest ih =>
      cases hgrant with
      | first _ => exact .cons (disjoint_of_grants hrest) ih
      | nowhere _ => exact ih
      | there _ _ => exact .cons (disjoint_of_grants hrest) ih
      | refused _ => exact ih

end Grants

end Stretches
