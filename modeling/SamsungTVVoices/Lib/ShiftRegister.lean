/-
Linear feedback shift registers, one bit at a time and several bytes at a time.

A step moves the register down by a place and, if a one falls out, adds the polynomial.  Steps are
linear (`steps_xor`), and bits that stand high enough only move down (`steps_shift`).  So `n + k`
steps from `c` are the `n + k` steps from the low `k` bits of `c` and `n` steps from the others
(`steps_split`).  Splitting off the low bits again and again turns the steps into lookups of words
of `k` bits, which is what table-driven implementations do.
-/
import Mathlib.Logic.Function.Iterate
import Mathlib.Data.Nat.Bitwise

namespace ShiftRegister

variable {w : ℕ} (poly : BitVec w)

/-- A step of the register. -/
def step (c : BitVec w) : BitVec w := (c >>> 1) ^^^ (if c.getLsbD 0 then poly else 0#w)

/-- Several steps. -/
def steps (n : ℕ) (c : BitVec w) : BitVec w := (step poly)^[n] c

@[simp] lemma steps_zero (c : BitVec w) : steps poly 0 c = c := rfl

lemma steps_succ (n : ℕ) (c : BitVec w) : steps poly (n + 1) c = steps poly n (step poly c) :=
  Function.iterate_succ_apply _ _ _

lemma steps_add (m n : ℕ) (c : BitVec w) : steps poly (m + n) c = steps poly m (steps poly n c) :=
  Function.iterate_add_apply _ _ _ _

lemma step_xor (a b : BitVec w) : step poly (a ^^^ b) = step poly a ^^^ step poly b := by
  have hfeed : ∀ x y : Bool, (if (x ^^ y) = true then poly else 0#w) =
      (if x = true then poly else 0#w) ^^^ (if y = true then poly else 0#w) := by
    intro x y
    cases x <;> cases y <;> simp
  rw [step, step, step, BitVec.ushiftRight_xor_distrib, BitVec.getLsbD_xor, hfeed]
  ac_rfl

/-- **Steps are linear.** -/
theorem steps_xor (n : ℕ) (a b : BitVec w) :
    steps poly n (a ^^^ b) = steps poly n a ^^^ steps poly n b := by
  induction n generalizing a b with
  | zero => rfl
  | succ n ih => rw [steps_succ, step_xor, ih, ← steps_succ, ← steps_succ]

/-- Bits that stand high enough only move down. -/
lemma steps_shift {n : ℕ} {c : BitVec w} (hlow : ∀ i < n, c.getLsbD i = false) :
    steps poly n c = c >>> n := by
  induction n generalizing c with
  | zero => rw [steps_zero, BitVec.ushiftRight_zero]
  | succ n ih =>
      have hstep : step poly c = c >>> 1 := by
        rw [step, hlow 0 (Nat.succ_pos n), if_neg Bool.false_ne_true, BitVec.xor_zero]
      have hnext : ∀ i < n, (c >>> 1).getLsbD i = false := by
        intro i hi
        rw [BitVec.getLsbD_ushiftRight, hlow (1 + i) (by omega)]
      rw [steps_succ, hstep, ih hnext, ← BitVec.shiftRight_add, Nat.add_comm]

/-- The low bits of a register. -/
def low (k : ℕ) (c : BitVec w) : BitVec w := c &&& BitVec.ofNat w (2 ^ k - 1)

lemma getLsbD_low (k : ℕ) (c : BitVec w) (i : ℕ) :
    (low k c).getLsbD i = (decide (i < k) && c.getLsbD i) := by
  rw [low, BitVec.getLsbD_and, BitVec.getLsbD_ofNat, Nat.testBit_two_pow_sub_one]
  by_cases hi : i < w
  · simp only [hi, decide_true, Bool.true_and]
    exact Bool.and_comm _ _
  · rw [BitVec.getLsbD_of_ge c i (not_lt.1 hi), Bool.false_and, Bool.and_false]

/-- **Splitting.** The low bits go through all the steps, and the others move down first. -/
theorem steps_split (n k : ℕ) (c : BitVec w) :
    steps poly (n + k) c = steps poly (n + k) (low k c) ^^^ steps poly n (c >>> k) := by
  have hhigh : ∀ i < k, (c ^^^ low k c).getLsbD i = false := by
    intro i hi
    rw [BitVec.getLsbD_xor, getLsbD_low, decide_eq_true hi, Bool.true_and, Bool.xor_self]
  have hshift : (c ^^^ low k c) >>> k = c >>> k := by
    refine BitVec.eq_of_getLsbD_eq fun i hi => ?_
    rw [BitVec.getLsbD_ushiftRight, BitVec.getLsbD_ushiftRight, BitVec.getLsbD_xor, getLsbD_low,
      decide_eq_false (by omega : ¬ k + i < k), Bool.false_and, Bool.xor_false]
  have hsplit : c = low k c ^^^ (c ^^^ low k c) := by
    rw [BitVec.xor_comm c, ← BitVec.xor_assoc, BitVec.xor_self, BitVec.zero_xor]
  calc steps poly (n + k) c
      = steps poly (n + k) (low k c) ^^^ steps poly (n + k) (c ^^^ low k c) := by
        rw [← steps_xor, ← hsplit]
    _ = steps poly (n + k) (low k c) ^^^ steps poly n (c >>> k) := by
        rw [steps_add poly n k (c ^^^ low k c), steps_shift poly hhigh, hshift]

/-! ### Feeding several words at once -/

/-- A word of `k` bits goes into the low end of the register. -/
def feed (k : ℕ) (c x : BitVec w) : BitVec w := steps poly k (c ^^^ x)

/-- The words side by side, the first one lowest. -/
def pack (k : ℕ) : List (BitVec w) → BitVec w
  | [] => 0#w
  | x :: xs => x ^^^ (pack k xs <<< k)

/-- The value has no more than `k` bits. -/
def Fits (k : ℕ) (x : BitVec w) : Prop := ∀ i, k ≤ i → x.getLsbD i = false

variable {k : ℕ} {xs : List (BitVec w)}

lemma fits_pack (hxs : ∀ x ∈ xs, Fits k x) : Fits (k * xs.length) (pack k xs) := by
  induction xs with
  | nil =>
      intro i _
      exact BitVec.getLsbD_zero
  | cons x xs ih =>
      intro i hi
      rw [List.length_cons, Nat.mul_succ] at hi
      have hx := hxs x List.mem_cons_self i (by omega)
      have hrest := ih (fun y hy => hxs y (List.mem_cons_of_mem x hy)) (i - k) (by omega)
      rw [pack, BitVec.getLsbD_xor, BitVec.getLsbD_shiftLeft, hx, hrest, Bool.and_false,
        Bool.false_xor]

/-- What is fed behind a word waits above it. -/
lemma steps_xor_shiftLeft {n : ℕ} {c y : BitVec w} (hy : Fits n y) (hle : n + k ≤ w) :
    steps poly k (c ^^^ (y <<< k)) = steps poly k c ^^^ y := by
  have hlow : ∀ i < k, (y <<< k).getLsbD i = false := by
    intro i hi
    rw [BitVec.getLsbD_shiftLeft, decide_eq_true hi, Bool.not_true, Bool.and_false, Bool.false_and]
  have hback : (y <<< k) >>> k = y := by
    refine BitVec.eq_of_getLsbD_eq fun i hi => ?_
    rw [BitVec.getLsbD_ushiftRight, BitVec.getLsbD_shiftLeft, Nat.add_sub_cancel_left,
      decide_eq_false (by omega : ¬ k + i < k), Bool.not_false, Bool.and_true]
    by_cases hn : n ≤ i
    · rw [hy i hn, Bool.and_false]
    · rw [decide_eq_true (by omega : k + i < w), Bool.true_and]
  rw [steps_xor, steps_shift poly hlow, hback]

/-- **Words at once.** Feeding words one after the other is feeding them packed. -/
theorem foldl_feed (hxs : ∀ x ∈ xs, Fits k x) (hle : k * xs.length ≤ w) (c : BitVec w) :
    xs.foldl (feed poly k) c = steps poly (k * xs.length) (c ^^^ pack k xs) := by
  induction xs generalizing c with
  | nil => rw [List.foldl_nil, pack, BitVec.xor_zero, List.length_nil, Nat.mul_zero, steps_zero]
  | cons x xs ih =>
      rw [List.length_cons, Nat.mul_succ] at hle
      have hrest : ∀ y ∈ xs, Fits k y := fun y hy => hxs y (List.mem_cons_of_mem x hy)
      rw [List.foldl_cons, ih hrest (by omega), List.length_cons, Nat.mul_succ, steps_add, pack,
        ← BitVec.xor_assoc, steps_xor_shiftLeft poly (fits_pack hrest) hle, feed]

end ShiftRegister
