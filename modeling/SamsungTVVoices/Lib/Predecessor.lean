/-
The last element of a sorted list that does not lie behind a key.

A search tree with ordered keys finds, for any key, the last element that is not greater
(`PredAt`).  The position is the only one with the property, it can be read off where two
neighbours enclose the key, and the elements behind it are what is left when those that are not
greater are dropped.  A list that is cut into blocks is searched block by block: the position in a
block is the position in the whole list if the next block begins behind the key.
-/
import Mathlib.Data.List.Induction
import Mathlib.Order.Lattice
import Mathlib.Order.Nat

variable {α β K : Type*} [LinearOrder K]

/-- The keys of the list increase. -/
def Ascending (key : α → K) (l : List α) : Prop := l.Pairwise fun a b => key a < key b

instance (key : α → K) (l : List α) : Decidable (Ascending key l) :=
  inferInstanceAs (Decidable (l.Pairwise fun a b => key a < key b))

/-- Position `i` of the list holds the last element whose key is not greater than `k`. -/
structure PredAt (key : α → K) (k : K) (l : List α) (i : ℕ) : Prop where
  le : ∃ a, l[i]? = some a ∧ key a ≤ k
  lt : ∀ j a, i < j → l[j]? = some a → k < key a

variable {key : α → K} {k : K} {l r : List α} {a b : α} {i j : ℕ}

namespace Ascending

lemma lt_of_lt (h : Ascending key l) (hij : i < j) (ha : l[i]? = some a) (hb : l[j]? = some b) :
    key a < key b := by
  obtain ⟨hi, rfl⟩ := List.getElem?_eq_some_iff.1 ha
  obtain ⟨hj, rfl⟩ := List.getElem?_eq_some_iff.1 hb
  exact List.pairwise_iff_getElem.1 h i j hi hj hij

lemma le_of_le (h : Ascending key l) (hij : i ≤ j) (ha : l[i]? = some a) (hb : l[j]? = some b) :
    key a ≤ key b := by
  rcases hij.lt_or_eq with hlt | rfl
  · exact (h.lt_of_lt hlt ha hb).le
  · rw [Option.some.inj (ha.symm.trans hb)]

lemma left (h : Ascending key (l ++ r)) : Ascending key l := (List.pairwise_append.1 h).1

lemma right (h : Ascending key (l ++ r)) : Ascending key r := (List.pairwise_append.1 h).2.1

/-- Where the first element lies behind the key, all of them do. -/
lemma lt_of_head (h : Ascending key (a :: l)) (hk : k < key a) : ∀ b ∈ a :: l, k < key b := by
  intro b hb
  rcases List.mem_cons.1 hb with rfl | hb
  · exact hk
  · exact hk.trans ((List.pairwise_cons.1 h).1 b hb)

end Ascending

/-- The elements behind the key are left when those up to it are dropped. -/
lemma Ascending.dropWhile_eq_filter (h : Ascending key l) (k : K) :
    (l.dropWhile fun a => key a ≤ k) = l.filter fun a => k < key a := by
  induction l with
  | nil => rfl
  | cons a l ih =>
      rcases le_or_gt (key a) k with hle | hlt
      · rw [List.dropWhile_cons_of_pos (by simpa using hle),
          List.filter_cons_of_neg (by simpa using hle)]
        exact ih (List.pairwise_cons.1 h).2
      · rw [List.dropWhile_cons_of_neg (by simpa using hlt), eq_comm, List.filter_eq_self]
        intro b hb
        simpa using h.lt_of_head hlt b hb

/-- What holds of an element only if it holds of all before it holds of a first part. -/
lemma filter_eq_takeWhile {p : α → Bool} (h : l.Pairwise fun a b => p b → p a) :
    l.filter p = l.takeWhile p := by
  induction l with
  | nil => rfl
  | cons a l ih =>
      obtain ⟨ha, hl⟩ := List.pairwise_cons.1 h
      by_cases hp : p a
      · rw [List.filter_cons_of_pos hp, List.takeWhile_cons_of_pos hp, ih hl]
      · rw [List.filter_cons_of_neg hp, List.takeWhile_cons_of_neg hp, List.filter_eq_nil_iff]
        exact fun b hb hb' => hp (ha b hb hb')

namespace PredAt

lemma lt_length (h : PredAt key k l i) : i < l.length := by
  obtain ⟨a, ha, -⟩ := h.le
  exact (List.getElem?_eq_some_iff.1 ha).1

/-- There is only one such position. -/
lemma unique (hi : PredAt key k l i) (hj : PredAt key k l j) : i = j := by
  obtain ⟨a, ha, hak⟩ := hi.le
  obtain ⟨b, hb, hbk⟩ := hj.le
  rcases lt_trichotomy i j with hlt | heq | hgt
  · exact absurd hbk (not_le.2 (hi.lt j b hlt hb))
  · exact heq
  · exact absurd hak (not_le.2 (hj.lt i a hgt ha))

/-- Two neighbours that enclose the key. -/
lemma of_adjacent (h : Ascending key l) (ha : l[i]? = some a) (hak : key a ≤ k)
    (hb : l[i + 1]? = some b) (hbk : k < key b) : PredAt key k l i where
  le := ⟨a, ha, hak⟩
  lt _ _ hlt hc := hbk.trans_le (h.le_of_le hlt hb hc)

/-- The last element of the list. -/
lemma of_last (ha : l[i]? = some a) (hak : key a ≤ k) (hlast : l.length = i + 1) :
    PredAt key k l i where
  le := ⟨a, ha, hak⟩
  lt j b hlt hb := by
    have := (List.getElem?_eq_some_iff.1 hb).1
    omega

/-- An element with the key itself. -/
lemma of_eq (h : Ascending key l) (ha : l[i]? = some a) (hak : key a = k) : PredAt key k l i where
  le := ⟨a, ha, hak.le⟩
  lt _ _ hlt hb := hak ▸ h.lt_of_lt hlt ha hb

/-- Elements behind the key may follow. -/
lemma append_right (h : PredAt key k l i) (hr : ∀ b ∈ r, k < key b) : PredAt key k (l ++ r) i where
  le := by
    obtain ⟨a, ha, hak⟩ := h.le
    exact ⟨a, by rw [List.getElem?_append_left h.lt_length, ha], hak⟩
  lt j b hlt hb := by
    rcases lt_or_ge j l.length with hj | hj
    · rw [List.getElem?_append_left hj] at hb
      exact h.lt j b hlt hb
    · rw [List.getElem?_append_right hj] at hb
      exact hr b (List.mem_of_getElem? hb)

/-- Any elements may come first. -/
lemma append_left (h : PredAt key k r i) : PredAt key k (l ++ r) (l.length + i) where
  le := by
    obtain ⟨a, ha, hak⟩ := h.le
    refine ⟨a, ?_, hak⟩
    rw [List.getElem?_append_right (Nat.le_add_right ..), Nat.add_sub_cancel_left, ha]
  lt j b hlt hb := by
    rw [List.getElem?_append_right (by omega)] at hb
    exact h.lt _ b (by omega) hb

/-- The elements behind the position are those that are left when the ones up to the key are
dropped. -/
lemma drop_eq (hl : Ascending key l) (h : PredAt key k l i) :
    l.drop (i + 1) = l.dropWhile fun a => key a ≤ k := by
  obtain ⟨a, ha, hak⟩ := h.le
  have hfront : ∀ b ∈ l.take (i + 1), key b ≤ k := by
    intro b hb
    obtain ⟨n, hn, rfl⟩ := List.mem_iff_getElem.1 hb
    rw [List.getElem_take]
    have hle : n < i + 1 := by
      rw [List.length_take] at hn
      omega
    exact (hl.le_of_le (by omega) (List.getElem?_eq_getElem _) ha).trans hak
  conv_rhs => rw [← List.take_append_drop (i + 1) l]
  rw [List.dropWhile_append_of_pos (by simpa using hfront)]
  cases hrest : l.drop (i + 1) with
  | nil => rfl
  | cons b rest =>
      have hb : l[i + 1]? = some b := by
        have hhead := congrArg (·[0]?) hrest
        simpa using hhead
      have hbk := h.lt (i + 1) b (Nat.lt_succ_self i) hb
      rw [List.dropWhile_cons_of_neg (by simpa using hbk)]

/-- The position in a block is one in the list of all blocks, if what follows the block lies behind
the key. -/
lemma flatMap {items : β → List α} {front back : List β} {x : β} (h : PredAt key k (items x) i)
    (hback : ∀ b ∈ back.flatMap items, k < key b) :
    PredAt key k ((front ++ x :: back).flatMap items) ((front.flatMap items).length + i) := by
  rw [List.flatMap_append, List.flatMap_cons]
  exact (h.append_right hback).append_left

end PredAt
