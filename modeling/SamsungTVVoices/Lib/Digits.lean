/-
Numbers written with a fixed number of digits.

`fixedDigits b w n` are the `w` least significant digits of `n` in base `b`, least
significant first; reading them back with `Nat.ofDigits` gives `n` modulo `b ^ w`
(`ofDigits_fixedDigits`).  The two notations built on it are little-endian byte strings
(`leBytes`) and fixed-width hexadecimal fields (`hexField`), each with its reader.
-/
import Mathlib.Data.Nat.Digits.Lemmas
import Mathlib.Data.Nat.Log

namespace FixedDigits

/-- The `w` least significant digits of `n` in base `b`, least significant first. -/
def fixedDigits (b : ℕ) : ℕ → ℕ → List ℕ
  | 0, _ => []
  | w + 1, n => n % b :: fixedDigits b w (n / b)

@[simp] lemma length_fixedDigits (b w n : ℕ) : (fixedDigits b w n).length = w := by
  induction w generalizing n with
  | zero => rfl
  | succ w ih => simp [fixedDigits, ih]

lemma lt_of_mem_fixedDigits {b w n d : ℕ} (hb : 0 < b) (h : d ∈ fixedDigits b w n) : d < b := by
  induction w generalizing n with
  | zero => simp [fixedDigits] at h
  | succ w ih =>
      rcases List.mem_cons.1 h with rfl | h
      · exact Nat.mod_lt _ hb
      · exact ih h

/-- Reading the digits back gives the number modulo `b ^ w`. -/
theorem ofDigits_fixedDigits (b w n : ℕ) : Nat.ofDigits b (fixedDigits b w n) = n % b ^ w := by
  induction w generalizing n with
  | zero => simp [fixedDigits, Nat.mod_one]
  | succ w ih =>
      rw [fixedDigits, Nat.ofDigits_cons, ih, pow_succ', Nat.mod_mul]

/-! ### Little-endian byte strings -/

/-- `n` as a little-endian string of `w` bytes. -/
def leBytes (w n : ℕ) : List UInt8 := (fixedDigits 256 w n).map UInt8.ofNat

/-- The number a little-endian byte string stands for. -/
def ofLeBytes (bs : List UInt8) : ℕ := Nat.ofDigits 256 (bs.map UInt8.toNat)

@[simp] lemma length_leBytes (w n : ℕ) : (leBytes w n).length = w := by simp [leBytes]

/-- Digits below `256` survive the passage through bytes. -/
lemma map_toNat_map_ofNat {ds : List ℕ} (h : ∀ d ∈ ds, d < 256) :
    (ds.map UInt8.ofNat).map UInt8.toNat = ds := by
  rw [List.map_map]
  conv_rhs => rw [← List.map_id ds]
  refine List.map_congr_left fun d hd => ?_
  simpa using Nat.mod_eq_of_lt (h d hd)

theorem ofLeBytes_leBytes (w n : ℕ) : ofLeBytes (leBytes w n) = n % 256 ^ w := by
  rw [ofLeBytes, leBytes,
    map_toNat_map_ofNat fun d hd => lt_of_mem_fixedDigits (by norm_num) hd, ofDigits_fixedDigits]

/-! ### Hexadecimal fields -/

/-- The ASCII code of a lower-case hexadecimal digit. -/
def hexDigit (d : ℕ) : UInt8 := UInt8.ofNat (if d < 10 then 48 + d else 87 + d)

/-- The value of an ASCII hexadecimal digit of either case. -/
def hexValue (c : UInt8) : Option ℕ :=
  let n := c.toNat
  if 48 ≤ n ∧ n ≤ 57 then some (n - 48)
  else if 97 ≤ n ∧ n ≤ 102 then some (n - 87)
  else if 65 ≤ n ∧ n ≤ 70 then some (n - 55)
  else none

lemma hexValue_hexDigit {d : ℕ} (h : d < 16) : hexValue (hexDigit d) = some d := by
  interval_cases d <;> rfl

/-- `n` in lower-case hexadecimal, padded on the left with zeros to at least `w` digits: a
number that does not fit in `w` digits is written with as many as it needs. -/
def hexField (w n : ℕ) : List UInt8 :=
  (fixedDigits 16 (max w (Nat.log 16 n + 1)) n).reverse.map hexDigit

/-- The number written by hexadecimal digits, most significant first. -/
def ofHexField (cs : List UInt8) : Option ℕ :=
  (cs.mapM hexValue).map fun ds => Nat.ofDigits 16 ds.reverse

lemma length_hexField (w n : ℕ) : (hexField w n).length = max w (Nat.log 16 n + 1) := by
  simp [hexField]

/-- A number below `16 ^ w` is written with exactly `w` digits. -/
lemma length_hexField_of_lt {w n : ℕ} (hw : 0 < w) (h : n < 16 ^ w) :
    (hexField w n).length = w := by
  rw [length_hexField, max_eq_left]
  have := Nat.log_lt_of_lt_pow' (by omega) h
  omega

lemma mapM_hexValue {ds : List ℕ} (h : ∀ d ∈ ds, d < 16) :
    (ds.map hexDigit).mapM hexValue = some ds := by
  induction ds with
  | nil => rfl
  | cons d ds ih =>
      have hd := hexValue_hexDigit (h d List.mem_cons_self)
      have hds := ih fun e he => h e (List.mem_cons_of_mem _ he)
      simp [List.mapM_cons, hd, hds]

/-- A field is read back as the number it was written for. -/
theorem ofHexField_hexField (w n : ℕ) : ofHexField (hexField w n) = some n := by
  have hlt : n < 16 ^ max w (Nat.log 16 n + 1) :=
    lt_of_lt_of_le (Nat.lt_pow_succ_log_self (by norm_num) n)
      (Nat.pow_le_pow_right (by norm_num) (le_max_right _ _))
  rw [ofHexField, hexField, mapM_hexValue]
  · simp [ofDigits_fixedDigits, Nat.mod_eq_of_lt hlt]
  · intro d hd
    exact lt_of_mem_fixedDigits (by norm_num) (List.mem_reverse.1 hd)

end FixedDigits
