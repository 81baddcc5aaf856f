/-
Readers of binary data.

A reader takes a value off the front of its input or stops with an error.  What a reader
accepts is described by a syntax: `Reads p valid encode value` says that `p` returns exactly
the values of the valid elements of the syntax, each from the bytes that encode it.  Such a
description is at once completeness (what is well formed is read) and soundness (what is read
was well formed), and it passes from the body of a counted loop to the loop (`Reads.iterate`).
-/
import SamsungTVVoices.Lib.Digits
import Mathlib.Algebra.Order.Ring.Nat

open FixedDigits

/-- A reader takes a value off the front of the bytes, or stops. -/
abbrev Reader (ε α : Type) := StateT (List UInt8) (Except ε) α

namespace Reader

variable {ε α β τ : Type} {bs rest : List UInt8}

/-! ### Steps -/

/-- The next `n` bytes. -/
def bytes (eof : ε) (n : ℕ) : Reader ε (List UInt8) := fun bs =>
  if n ≤ bs.length then .ok (bs.take n, bs.drop n) else .error eof

/-- The next number of `w` little-endian bytes. -/
def uint (eof : ε) (w : ℕ) : Reader ε ℕ := do return ofLeBytes (← bytes eof w)

/-- `n` rounds of a loop that changes `b`. -/
def iterate (step : β → Reader ε β) : ℕ → β → Reader ε β
  | 0, b => return b
  | n + 1, b => do iterate step n (← step b)

@[simp] lemma pure_eq_ok {a a' : α} :
    (pure a : Reader ε α) bs = .ok (a', rest) ↔ a = a' ∧ bs = rest := by
  change Except.ok (a, bs) = Except.ok (a', rest) ↔ _
  rw [Except.ok.injEq, Prod.mk.injEq]

@[simp] lemma throw_eq_ok {e : ε} {a : α} : (throw e : Reader ε α) bs = .ok (a, rest) ↔ False :=
  iff_of_false nofun id

@[simp] lemma bind_eq_ok {p : Reader ε α} {f : α → Reader ε β} {b : β} :
    (p >>= f) bs = .ok (b, rest) ↔
      ∃ a mid, p bs = .ok (a, mid) ∧ f a mid = .ok (b, rest) := by
  change (p bs >>= fun x => f x.1 x.2) = .ok (b, rest) ↔ _
  rcases h : p bs with e | ⟨a, mid⟩
  · exact iff_of_false nofun nofun
  · constructor
    · exact fun hf => ⟨a, mid, rfl, hf⟩
    · rintro ⟨a', mid', heq, hf⟩
      obtain ⟨rfl, rfl⟩ := Prod.mk.inj (Except.ok.inj heq)
      exact hf

/-- A step whose value is only changed. -/
lemma bind_pure_eq_ok {p : Reader ε α} {f : α → β} {b : β} :
    (p >>= fun a => pure (f a)) bs = .ok (b, rest) ↔ ∃ a, p bs = .ok (a, rest) ∧ f a = b := by
  simp only [bind_eq_ok, pure_eq_ok]
  constructor
  · rintro ⟨a, _, hp, hf, rfl⟩
    exact ⟨a, hp, hf⟩
  · rintro ⟨a, hp, hf⟩
    exact ⟨a, rest, hp, hf, rfl⟩

@[simp] lemma bytes_eq_ok {eof : ε} {n : ℕ} {a : List UInt8} :
    bytes eof n bs = .ok (a, rest) ↔ a.length = n ∧ bs = a ++ rest := by
  rw [bytes]
  split
  · next hle =>
      rw [Except.ok.injEq, Prod.mk.injEq]
      constructor
      · rintro ⟨rfl, rfl⟩
        exact ⟨List.length_take_of_le hle, (List.take_append_drop n bs).symm⟩
      · rintro ⟨rfl, rfl⟩
        exact ⟨List.take_left, List.drop_left⟩
  · next hlt =>
      refine iff_of_false nofun ?_
      rintro ⟨rfl, rfl⟩
      exact hlt (by rw [List.length_append]; exact Nat.le_add_right _ _)

lemma fixedDigits_ofDigits {b : ℕ} (hb : 0 < b) {ds : List ℕ} (h : ∀ d ∈ ds, d < b) :
    fixedDigits b ds.length (Nat.ofDigits b ds) = ds := by
  induction ds with
  | nil => rfl
  | cons d ds ih =>
      have hd := h d List.mem_cons_self
      rw [List.length_cons, Nat.ofDigits_cons, fixedDigits, Nat.add_mul_mod_self_left,
        Nat.mod_eq_of_lt hd, Nat.add_mul_div_left _ _ hb, Nat.div_eq_of_lt hd, Nat.zero_add,
        ih fun d hd => h d (List.mem_cons_of_mem _ hd)]

/-- A byte string is the number it stands for, written with as many bytes. -/
lemma leBytes_ofLeBytes (bs : List UInt8) : leBytes bs.length (ofLeBytes bs) = bs := by
  have hlt : ∀ d ∈ bs.map UInt8.toNat, d < 256 := by
    intro d hd
    obtain ⟨c, -, rfl⟩ := List.mem_map.1 hd
    exact c.toNat_lt
  have h := fixedDigits_ofDigits (by norm_num) hlt
  rw [List.length_map] at h
  rw [leBytes, ofLeBytes, h, List.map_map]
  exact (List.map_congr_left fun c _ => UInt8.ofNat_toNat).trans (List.map_id bs)

lemma ofLeBytes_lt (bs : List UInt8) : ofLeBytes bs < 256 ^ bs.length := by
  have h := ofLeBytes_leBytes bs.length (ofLeBytes bs)
  rw [leBytes_ofLeBytes] at h
  rw [h]
  exact Nat.mod_lt _ (by positivity)

@[simp] lemma uint_eq_ok {eof : ε} {w n : ℕ} :
    uint eof w bs = .ok (n, rest) ↔ n < 256 ^ w ∧ bs = leBytes w n ++ rest := by
  rw [uint, bind_eq_ok]
  simp only [bytes_eq_ok, pure_eq_ok]
  constructor
  · rintro ⟨front, mid, ⟨rfl, rfl⟩, rfl, rfl⟩
    exact ⟨ofLeBytes_lt front, by rw [leBytes_ofLeBytes]⟩
  · rintro ⟨hlt, rfl⟩
    refine ⟨leBytes w n, rest, ⟨length_leBytes w n, rfl⟩, ?_, rfl⟩
    rw [ofLeBytes_leBytes, Nat.mod_eq_of_lt hlt]

/-! ### Descriptions -/

/-- The reader returns exactly the values of the valid elements of a syntax. -/
def Reads (p : Reader ε α) (valid : τ → Prop) (encode : τ → List UInt8) (value : τ → α) : Prop :=
  ∀ bs a rest, p bs = .ok (a, rest) ↔ ∃ t, valid t ∧ value t = a ∧ bs = encode t ++ rest

variable {valid : τ → Prop} {encode : τ → List UInt8}

/-- A loop whose body reads an element reads a list of them. -/
theorem Reads.iterate {step : β → Reader ε β} {apply : β → τ → β}
    (h : ∀ b, Reads (step b) valid encode (apply b)) : ∀ (n : ℕ) (b : β),
      Reads (Reader.iterate step n b) (fun ts : List τ => ts.length = n ∧ ∀ t ∈ ts, valid t)
        (fun ts => ts.flatMap encode) (fun ts => ts.foldl apply b) := by
  intro n
  induction n with
  | zero =>
      intro b bs a rest
      rw [Reader.iterate, pure_eq_ok]
      constructor
      · rintro ⟨rfl, rfl⟩
        exact ⟨[], ⟨rfl, nofun⟩, rfl, rfl⟩
      · rintro ⟨ts, ⟨hlength, -⟩, rfl, rfl⟩
        obtain rfl := List.length_eq_zero_iff.1 hlength
        exact ⟨rfl, rfl⟩
  | succ n ih =>
      intro b bs a rest
      rw [Reader.iterate, bind_eq_ok]
      constructor
      · rintro ⟨b', mid, hstep, hloop⟩
        obtain ⟨t, ht, rfl, rfl⟩ := (h b _ _ _).1 hstep
        obtain ⟨ts, ⟨rfl, hts⟩, rfl, rfl⟩ := (ih _ _ _ _).1 hloop
        refine ⟨t :: ts, ⟨rfl, List.forall_mem_cons.2 ⟨ht, hts⟩⟩, rfl, ?_⟩
        dsimp only
        rw [List.flatMap_cons, List.append_assoc]
      · rintro ⟨ts, ⟨hlength, hts⟩, rfl, rfl⟩
        obtain ⟨t, ts, rfl⟩ := List.exists_cons_of_length_eq_add_one hlength
        obtain ⟨ht, hts⟩ := List.forall_mem_cons.1 hts
        dsimp only
        rw [List.flatMap_cons, List.append_assoc]
        exact ⟨apply b t, ts.flatMap encode ++ rest, (h b _ _ _).2 ⟨t, ht, rfl, rfl⟩,
          (ih _ _ _ _).2 ⟨ts, ⟨Nat.succ.inj hlength, hts⟩, rfl, rfl⟩⟩

end Reader
