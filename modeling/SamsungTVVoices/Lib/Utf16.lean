/-
The UTF-16 code units of a string of code points, in which surrogates may stand alone.

A lone surrogate is its own code unit, so a high surrogate before a low one is written as a code
point above `0xFFFF` is.  `flatMap_units_inj` says that nothing else is written twice.
-/
import Mathlib.Data.List.Chain
import Mathlib.Data.List.Flatten

namespace Utf16

/-- The code units of a code point. -/
def units (c : ℕ) : List ℕ :=
  if c < 0x10000 then [c]
  else [0xD800 + (c - 0x10000) / 0x400, 0xDC00 + (c - 0x10000) % 0x400]

def IsHigh (c : ℕ) : Prop := 0xD800 ≤ c ∧ c < 0xDC00

def IsLow (c : ℕ) : Prop := 0xDC00 ≤ c ∧ c < 0xE000

instance (c : ℕ) : Decidable (IsHigh c) := inferInstanceAs (Decidable (_ ∧ _))

instance (c : ℕ) : Decidable (IsLow c) := inferInstanceAs (Decidable (_ ∧ _))

/-- No high surrogate is directly followed by a low one. -/
def NoPair (s : List ℕ) : Prop := s.IsChain fun c d => ¬ (IsHigh c ∧ IsLow d)

instance (s : List ℕ) : Decidable (NoPair s) := inferInstanceAs (Decidable (List.IsChain _ s))

variable {c d : ℕ} {s t : List ℕ}

lemma units_of_lt (h : c < 0x10000) : units c = [c] := if_pos h

lemma units_of_le (h : 0x10000 ≤ c) :
    units c = [0xD800 + (c - 0x10000) / 0x400, 0xDC00 + (c - 0x10000) % 0x400] :=
  if_neg (by omega)

/-- A code unit is below `0x10000`. -/
lemma lt_of_mem_units (hc : c < 0x110000) {u : ℕ} (hu : u ∈ units c) : u < 0x10000 := by
  by_cases h : c < 0x10000
  · rw [units_of_lt h, List.mem_singleton] at hu
    omega
  · rw [units_of_le (by omega), List.mem_pair] at hu
    omega

/-- What begins with a low surrogate begins with a lone one. -/
lemma exists_low_of_flatMap {u : ℕ} (hu : IsLow u) (hs : ∀ c ∈ s, c < 0x110000) {rest : List ℕ}
    (h : s.flatMap units = u :: rest) : ∃ s', s = u :: s' := by
  unfold IsLow at hu
  cases s with
  | nil => cases h
  | cons d s =>
      have hd := hs d List.mem_cons_self
      rw [List.flatMap_cons] at h
      by_cases hlt : d < 0x10000
      · rw [units_of_lt hlt] at h
        exact ⟨s, by rw [(List.cons.inj h).1]⟩
      · rw [units_of_le (by omega)] at h
        have := (List.cons.inj h).1
        omega

/-- Where a single code unit and a pair of them agree, there is a high surrogate before a low
one. -/
lemma not_noPair_of_flatMap (hc : c < 0x10000) (hd : 0x10000 ≤ d) (hd' : d < 0x110000)
    (hs : ∀ c ∈ s, c < 0x110000)
    (h : units c ++ s.flatMap units = units d ++ t.flatMap units) : ¬ NoPair (c :: s) := by
  rw [units_of_lt hc, units_of_le hd] at h
  obtain ⟨hhigh, hrest⟩ := List.cons.inj h
  have hlow : IsLow (0xDC00 + (d - 0x10000) % 0x400) := by
    unfold IsLow
    omega
  obtain ⟨s', rfl⟩ := exists_low_of_flatMap hlow hs hrest
  intro hpair
  refine (List.isChain_cons_cons.1 hpair).1 ⟨?_, hlow⟩
  unfold IsHigh
  omega

/-- **UTF-16.**  Strings without a surrogate pair are told apart by their code units. -/
theorem flatMap_units_inj (s : List ℕ) : ∀ t : List ℕ, (∀ c ∈ s, c < 0x110000) →
    (∀ c ∈ t, c < 0x110000) → NoPair s → NoPair t → s.flatMap units = t.flatMap units → s = t := by
  have hne (c : ℕ) (r : List ℕ) : units c ++ r ≠ [] := by
    unfold units
    split <;> simp
  induction s with
  | nil =>
      intro t _ _ _ _ h
      cases t with
      | nil => rfl
      | cons d t => exact absurd h.symm (hne d _)
  | cons c s ih =>
      intro t hs ht hsp htp h
      cases t with
      | nil => exact absurd h (hne c _)
      | cons d t =>
          rw [List.flatMap_cons, List.flatMap_cons] at h
          have hc := hs c List.mem_cons_self
          have hd := ht d List.mem_cons_self
          have hs' : ∀ c ∈ s, c < 0x110000 := fun e he => hs e (List.mem_cons_of_mem _ he)
          have ht' : ∀ c ∈ t, c < 0x110000 := fun e he => ht e (List.mem_cons_of_mem _ he)
          have hcons (hcd : c = d) (hrest : s.flatMap units = t.flatMap units) :
              c :: s = d :: t := by
            rw [hcd, ih t hs' ht' hsp.tail htp.tail hrest]
          by_cases hclt : c < 0x10000
          · by_cases hdlt : d < 0x10000
            · rw [units_of_lt hclt, units_of_lt hdlt] at h
              obtain ⟨hcd, hrest⟩ := List.cons.inj h
              exact hcons hcd hrest
            · exact absurd hsp (not_noPair_of_flatMap hclt (by omega) hd hs' h)
          · by_cases hdlt : d < 0x10000
            · exact absurd htp (not_noPair_of_flatMap hdlt (by omega) hc ht' h.symm)
            · rw [units_of_le (by omega), units_of_le (by omega)] at h
              obtain ⟨hhigh, h⟩ := List.cons.inj h
              obtain ⟨hlow, hrest⟩ := List.cons.inj h
              exact hcons (by omega) hrest

end Utf16
