/-
Where UTF-8 text can be cut.

A byte string is UTF-8 when it is the encoding of some characters.  Such a string can be cut in
front of every byte that is not a continuation byte (`IsUtf8.cut`), no more than three continuation
bytes stand in a row (`IsUtf8.length_continuations`), and none follows an ASCII byte
(`IsUtf8.not_continuation_after`).
-/
import Mathlib.Data.List.Basic

namespace Utf8

/-- A byte inside the encoding of a character. -/
def IsContinuation (b : UInt8) : Prop := b &&& 0xC0 = 0x80

instance : DecidablePred IsContinuation := fun b => inferInstanceAs (Decidable (b &&& 0xC0 = 0x80))

/-- The bytes are the encoding of some characters. -/
def IsUtf8 (bs : List UInt8) : Prop := ∃ cs : List Char, cs.flatMap String.utf8EncodeChar = bs

lemma isUtf8_nil : IsUtf8 [] := ⟨[], rfl⟩

lemma IsUtf8.append {bs bs' : List UInt8} (h : IsUtf8 bs) (h' : IsUtf8 bs') :
    IsUtf8 (bs ++ bs') := by
  obtain ⟨cs, rfl⟩ := h
  obtain ⟨cs', rfl⟩ := h'
  exact ⟨cs ++ cs', List.flatMap_append⟩

/-! ### One character -/

lemma isContinuation_tail {n : ℕ} (h : n < 64) : IsContinuation (UInt8.ofNat (n + 0x80)) := by
  revert n
  decide

lemma not_isContinuation_ascii {n : ℕ} (h : n < 128) : ¬IsContinuation (UInt8.ofNat n) := by
  revert n
  decide

lemma not_isContinuation_of_ascii {b : UInt8} (h : b < 0x80) : ¬IsContinuation b := by
  have hnat : b.toNat < 128 := h
  rw [← UInt8.ofNat_toNat (x := b)]
  exact not_isContinuation_ascii hnat

lemma not_isContinuation_lead {n : ℕ} (h : n < 64) :
    ¬IsContinuation (UInt8.ofNat (n + 0xC0)) ∧ ¬UInt8.ofNat (n + 0xC0) < 0x80 := by
  revert n
  decide

/-- The encoding of a character: an ASCII byte, or a lead byte and up to three others. -/
structure IsChar (b : UInt8) (tail : List UInt8) : Prop where
  isUtf8 : IsUtf8 (b :: tail)
  lead : ¬IsContinuation b
  continuations : ∀ x ∈ tail, IsContinuation x
  length_le : tail.length ≤ 3
  ascii : b < 0x80 → tail = []

lemma exists_isChar (c : Char) :
    ∃ b tail, String.utf8EncodeChar c = b :: tail ∧ IsChar b tail := by
  have hutf8 : IsUtf8 (String.utf8EncodeChar c) := ⟨[c], by simp⟩
  have htail (v : ℕ) : IsContinuation (UInt8.ofNat (v % 0x40 + 0x80)) :=
    isContinuation_tail (Nat.mod_lt v (by decide))
  unfold String.utf8EncodeChar at hutf8 ⊢
  dsimp only at hutf8 ⊢
  split
  · next h =>
      rw [if_pos h] at hutf8
      exact ⟨_, [], rfl, hutf8, not_isContinuation_ascii (Nat.lt_succ_of_le h), nofun,
        Nat.zero_le _, fun _ => rfl⟩
  next h1 =>
  rw [if_neg h1] at hutf8
  split
  · next h =>
      rw [if_pos h] at hutf8
      have hlead := not_isContinuation_lead (n := c.val.toNat / 64 % 0x20) (by omega)
      exact ⟨_, _, rfl, hutf8, hlead.1, List.forall_mem_singleton.2 (htail _),
        Nat.le_of_ble_eq_true rfl, fun h => absurd h hlead.2⟩
  next h2 =>
  rw [if_neg h2] at hutf8
  split
  · next h =>
      rw [if_pos h] at hutf8
      have hlead := not_isContinuation_lead (n := c.val.toNat / 4096 % 0x10 + 0x20) (by omega)
      exact ⟨_, _, rfl, hutf8, hlead.1,
        List.forall_mem_cons.2 ⟨htail _, List.forall_mem_singleton.2 (htail _)⟩,
        Nat.le_of_ble_eq_true rfl, fun h => absurd h hlead.2⟩
  · next h =>
      rw [if_neg h] at hutf8
      have hlead := not_isContinuation_lead (n := c.val.toNat / 262144 % 0x08 + 0x30) (by omega)
      exact ⟨_, _, rfl, hutf8, hlead.1, List.forall_mem_cons.2 ⟨htail _,
        List.forall_mem_cons.2 ⟨htail _, List.forall_mem_singleton.2 (htail _)⟩⟩,
        Nat.le_of_ble_eq_true rfl, fun h => absurd h hlead.2⟩

/-- A text as its characters, one after the other. -/
inductive Chars : List UInt8 → Prop
  | nil : Chars []
  | cons {b : UInt8} {tail rest : List UInt8} (hchar : IsChar b tail) (hrest : Chars rest) :
      Chars (b :: tail ++ rest)

lemma IsUtf8.chars {bs : List UInt8} (h : IsUtf8 bs) : Chars bs := by
  obtain ⟨cs, rfl⟩ := h
  induction cs with
  | nil => exact .nil
  | cons c cs ih =>
      obtain ⟨b, tail, hencode, hchar⟩ := exists_isChar c
      rw [List.flatMap_cons, hencode]
      exact .cons hchar ih

lemma Chars.isUtf8 {bs : List UInt8} (h : Chars bs) : IsUtf8 bs := by
  induction h with
  | nil => exact isUtf8_nil
  | cons hchar hrest ih => exact hchar.isUtf8.append ih

/-- A text does not start with a continuation byte. -/
lemma Chars.head_not_continuation {bs : List UInt8} (h : Chars bs) :
    ∀ b ∈ bs[0]?, ¬IsContinuation b := by
  cases h with
  | nil => exact nofun
  | cons hchar hrest =>
      rintro _ ⟨⟩
      exact hchar.lead

lemma IsChar.getElem? {b : UInt8} {tail : List UInt8} (h : IsChar b tail) (rest : List UInt8)
    {p : ℕ} (hp : p < tail.length) : ∃ x ∈ (b :: tail ++ rest)[p + 1]?, IsContinuation x := by
  refine ⟨tail[p], ?_, h.continuations _ (List.getElem_mem hp)⟩
  rw [List.cons_append, List.getElem?_cons_succ, List.getElem?_append_left hp]
  exact List.getElem?_eq_getElem hp

/-! ### Cuts -/

/-- **Cuts.** A text can be cut in front of every byte that starts a character, and at its end. -/
theorem IsUtf8.cut {bs : List UInt8} (h : IsUtf8 bs) {p : ℕ} (hp : p ≤ bs.length)
    (hcut : ∀ b ∈ bs[p]?, ¬IsContinuation b) : IsUtf8 (bs.take p) ∧ IsUtf8 (bs.drop p) := by
  induction h.chars generalizing p with
  | nil => simpa using isUtf8_nil
  | @cons b tail rest hchar hrest ih =>
      rcases Nat.lt_or_ge p (b :: tail).length with hlt | hge
      · cases p with
        | zero => exact ⟨isUtf8_nil, h⟩
        | succ p =>
            -- a cut inside of the character
            obtain ⟨x, hx, hcont⟩ := hchar.getElem? rest (Nat.lt_of_succ_lt_succ hlt)
            exact absurd hcont (hcut x hx)
      · obtain ⟨q, rfl⟩ := Nat.exists_eq_add_of_le hge
        rw [List.take_length_add_append, List.drop_length_add_append]
        rw [List.getElem?_append_right (Nat.le_add_right _ _), Nat.add_sub_cancel_left] at hcut
        rw [List.length_append] at hp
        obtain ⟨htake, hdrop⟩ := ih hrest.isUtf8 (Nat.le_of_add_le_add_left hp) hcut
        exact ⟨hchar.isUtf8.append htake, hdrop⟩

/-- No continuation byte follows an ASCII byte. -/
lemma IsUtf8.not_continuation_after {bs : List UInt8} (h : IsUtf8 bs) {p : ℕ} {a : UInt8}
    (ha : bs[p]? = some a) (hascii : a < 0x80) : ∀ x ∈ bs[p + 1]?, ¬IsContinuation x := by
  induction h.chars generalizing p with
  | nil => exact nofun
  | @cons b tail rest hchar hrest ih =>
      intro x hx
      rcases Nat.lt_or_ge p (b :: tail).length with hlt | hge
      · cases p with
        | zero =>
            cases ha
            obtain rfl := hchar.ascii hascii
            exact hrest.head_not_continuation x hx
        | succ p =>
            obtain ⟨y, hy, hcont⟩ := hchar.getElem? rest (Nat.lt_of_succ_lt_succ hlt)
            obtain rfl := Option.some.inj (ha.symm.trans hy)
            exact absurd hcont (not_isContinuation_of_ascii hascii)
      · obtain ⟨q, rfl⟩ := Nat.exists_eq_add_of_le hge
        rw [List.getElem?_append_right (Nat.le_add_right _ _), Nat.add_sub_cancel_left] at ha
        rw [Nat.add_assoc, List.getElem?_append_right (Nat.le_add_right _ _),
          Nat.add_sub_cancel_left] at hx
        exact ih hrest.isUtf8 ha x hx

/-- No more than three continuation bytes stand in a row. -/
lemma IsUtf8.length_continuations {bs : List UInt8} (h : IsUtf8 bs) {p n : ℕ}
    (hrow : ∀ i < n, ∃ x ∈ bs[p + i]?, IsContinuation x) : n ≤ 3 := by
  induction h.chars generalizing p with
  | nil =>
      by_contra hn
      obtain ⟨x, hx, -⟩ := hrow 0 (by omega)
      cases hx
  | @cons b tail rest hchar hrest ih =>
      rcases Nat.lt_or_ge p (b :: tail).length with hlt | hge
      · by_contra hn
        cases p with
        | zero =>
            obtain ⟨x, hx, hcont⟩ := hrow 0 (by omega)
            cases hx
            exact hchar.lead hcont
        | succ p =>
            -- the byte behind the character is in the row, and starts another
            have hlength := hchar.length_le
            rw [List.length_cons] at hlt
            obtain ⟨x, hx, hcont⟩ := hrow (tail.length - p) (by omega)
            rw [show p + 1 + (tail.length - p) = (b :: tail).length + 0 by
                rw [List.length_cons]; omega,
              List.getElem?_append_right (Nat.le_add_right _ _), Nat.add_sub_cancel_left] at hx
            exact hrest.head_not_continuation x hx hcont
      · obtain ⟨q, rfl⟩ := Nat.exists_eq_add_of_le hge
        refine ih hrest.isUtf8 (p := q) fun i hi => ?_
        obtain ⟨x, hx, hcont⟩ := hrow i hi
        rw [Nat.add_assoc, List.getElem?_append_right (Nat.le_add_right _ _),
          Nat.add_sub_cancel_left] at hx
        exact ⟨x, hx, hcont⟩

end Utf8
