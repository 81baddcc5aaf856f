/-
The nodes of the trees of an image and the search in one of them (`btree.h` and `btree.c`).

A node is a page of bytes.  In front there is a descriptor; at the end, before the checksum, there
is a table with the offsets of the records that grows towards the front.  Record `i` is what begins
at offset `i`, and one more offset leads to the free space.

`binary_search` looks for the last record that does not lie behind a key.  It finds the position
that the library calls `PredAt`, if the records of the node can be read and their keys increase
(`binarySearch_of_le`, `binarySearch_of_lt`).
-/
import SamsungTVVoices.Extractor.Image
import SamsungTVVoices.Lib.Predecessor
import Mathlib.Tactic.Linarith

open FixedDigits

namespace SamsungTVVoices.Extractor

/-- Why an operation on a tree gives no record: it returns a negative error code, an assertion
fails, or it follows the nodes of a level for ever. -/
inductive TreeError where
  | errno (code : ℤ)
  | bug
  | endless
deriving DecidableEq

/-- The little-endian number in the `n` bytes at `offset`. -/
def field (d : Bytes) (offset n : ℕ) : ℕ := ofLeBytes ((d.drop offset).take n)

/-- `struct vdfs4_bnode`: the number of a node, and its bytes, `node_size_bytes` of them. -/
structure Bnode where
  nodeId : ℕ
  data : Bytes
deriving DecidableEq

/-- `VDFS4_BNODE_FIRST_OFFSET`: the checksum at the end of a node. -/
def bnodeFirstOffset : ℕ := 4

/-- `sizeof(vdfs4_bt_off_t)` -/
def offsetSize : ℕ := 4

/-- `VDFS4_MAX_BTREE_KEY_LEN` -/
def maxBtreeKeyLen : ℕ := 288

/-- `get_value_pointer`: where the value of a record begins. -/
def getValuePointer (record : Bytes) : Except TreeError ℕ :=
  if maxBtreeKeyLen < field record 4 2 then .error (.errno (-einval)) else .ok (field record 4 2)

namespace Bnode

/-- `recs_count` of the descriptor. -/
def recsCount (b : Bnode) : ℕ := field b.data 14 2

/-- `next_node_id` of the descriptor. -/
def nextNodeId (b : Bnode) : ℕ := field b.data 24 4

/-- `vdfs4_get_offset_addr`, as an offset in the node.  An index is a 32-bit number here, so that
-1 is the checksum; an address outside of the node fails the assertion. -/
def offsetAddr (b : Bnode) (index : ℤ) : Except TreeError ℕ :=
  let back := bnodeFirstOffset + offsetSize * ((index + 1) % 2 ^ 32).toNat
  if back ≤ b.data.length then .ok (b.data.length - back) else .error .bug

/-- `is_offset_correct` -/
def isOffsetCorrect (b : Bnode) (offset : ℕ) : Bool := offset ≠ 0 && offset < b.data.length

/-- `get_record`: the bytes from the record on.  The index may be the number of the records, which
leads to the free space. -/
def getRecord (b : Bnode) (index : ℤ) : Except TreeError Bytes :=
  if b.recsCount < index then .error (.errno (-einval))
  else do
    let addr ← b.offsetAddr index
    let offset := field b.data addr offsetSize
    if b.isOffsetCorrect offset then .ok (b.data.drop offset) else .error (.errno (-einval))

end Bnode

/-! ### The search in a node -/

section Search

variable (compFn : Bytes → Bytes → ℤ)

/-- The loop of `binary_search`. -/
def searchLoop (b : Bnode) (key : Bytes) (first last : ℤ) (firstRecord : Bytes) :
    Except TreeError (ℤ × Bytes) :=
  if _h : first < last - 1 then
    let mid := first + (last + 1 - first) / 2
    match b.getRecord mid with
    | .error e => .error e
    | .ok record =>
      if compFn record key = 0 then .ok (mid, record)
      else if compFn record key < 0 then searchLoop b key mid last record
      else searchLoop b key first mid firstRecord
  else .ok (first, firstRecord)
termination_by (last - first).toNat
decreasing_by
  · omega
  · omega

/-- `binary_search`: the position and the record there. -/
def binarySearch (b : Bnode) (key : Bytes) : Except TreeError (ℤ × Bytes) :=
  let last : ℤ := b.recsCount - 1
  match b.getRecord 0 with
  | .error e => .error e
  | .ok firstRecord =>
    if 0 < compFn firstRecord key then .error (.errno (-enoent))
    else if compFn firstRecord key = 0 ∨ last = 0 then .ok (0, firstRecord)
    else match b.getRecord last with
      | .error e => .error e
      | .ok record =>
        if compFn record key ≤ 0 then .ok (last, record)
        else searchLoop compFn b key 0 last firstRecord

end Search

/-- The comparison function of a tree compares keys. -/
structure Compares {K : Type*} [LinearOrder K] (compFn : Bytes → Bytes → ℤ) (keyOf : Bytes → K) :
    Prop where
  eq_zero : ∀ r s, compFn r s = 0 ↔ keyOf r = keyOf s
  neg : ∀ r s, compFn r s < 0 ↔ keyOf r < keyOf s

namespace Compares

variable {K : Type*} [LinearOrder K] {compFn : Bytes → Bytes → ℤ} {keyOf : Bytes → K} {r s : Bytes}

lemma nonpos (h : Compares compFn keyOf) : compFn r s ≤ 0 ↔ keyOf r ≤ keyOf s := by
  rw [le_iff_lt_or_eq, le_iff_lt_or_eq, h.neg, h.eq_zero]

lemma pos (h : Compares compFn keyOf) : 0 < compFn r s ↔ keyOf s < keyOf r := by
  rw [← not_le, ← not_le, h.nonpos]

end Compares

/-- The node has these records, and all of them can be read. -/
structure Bnode.Holds (b : Bnode) (records : List Bytes) : Prop where
  recsCount : b.recsCount = records.length
  ne_nil : records ≠ []
  getRecord : ∀ i r, records[i]? = some r → b.getRecord (i : ℕ) = .ok r
  value : ∀ r ∈ records, field r 4 2 ≤ maxBtreeKeyLen

namespace Bnode.Holds

variable {K : Type*} [LinearOrder K] {compFn : Bytes → Bytes → ℤ} {keyOf : Bytes → K}
  {b : Bnode} {records : List Bytes} {key : Bytes}

lemma getRecord_zero (h : b.Holds records) : ∃ r, records[0]? = some r ∧ b.getRecord 0 = .ok r := by
  cases hrecords : records with
  | nil => exact absurd hrecords h.ne_nil
  | cons r rest => exact ⟨r, rfl, h.getRecord 0 r (by rw [hrecords]; rfl)⟩

lemma getRecord_last (h : b.Holds records) : ∃ r, records[records.length - 1]? = some r ∧
    b.getRecord (b.recsCount - 1 : ℤ) = .ok r := by
  have hpos := List.length_pos_iff.2 h.ne_nil
  obtain ⟨r, hr⟩ : ∃ r, records[records.length - 1]? = some r :=
    ⟨_, List.getElem?_eq_getElem (by omega)⟩
  refine ⟨r, hr, ?_⟩
  have hlast : ((b.recsCount : ℤ) - 1) = ((records.length - 1 : ℕ) : ℤ) := by
    rw [h.recsCount]
    omega
  rw [hlast]
  exact h.getRecord _ _ hr

lemma getValuePointer (h : b.Holds records) {r : Bytes} (hr : r ∈ records) :
    Extractor.getValuePointer r = .ok (field r 4 2) := by
  rw [Extractor.getValuePointer, if_neg (not_lt.2 (h.value r hr))]

/-- The loop of the search keeps the key between the records at its two ends. -/
lemma searchLoop_eq (hcmp : Compares compFn keyOf) (h : b.Holds records)
    (hasc : Ascending keyOf records) {first last : ℕ} {rf rl : Bytes}
    (hrf : records[first]? = some rf) (hf : keyOf rf ≤ keyOf key)
    (hrl : records[last]? = some rl) (hl : keyOf key < keyOf rl) (hlt : first < last) :
    ∃ i r, searchLoop compFn b key first last rf = .ok ((i : ℕ), r) ∧ records[i]? = some r ∧
      PredAt keyOf (keyOf key) records i := by
  induction hn : last - first using Nat.strongRecOn generalizing first last rf rl with
  | ind n ih =>
      rw [searchLoop]
      by_cases hstep : (first : ℤ) < last - 1
      · -- the middle lies strictly between the two ends
        obtain ⟨mid, hmid⟩ : ∃ mid : ℕ, (mid : ℤ) = (first : ℤ) + ((last : ℤ) + 1 - first) / 2 :=
          ⟨first + (last + 1 - first) / 2, by omega⟩
        have hfm : first < mid := by omega
        have hml : mid < last := by omega
        obtain ⟨rm, hrm⟩ : ∃ rm, records[mid]? = some rm :=
          ⟨_, List.getElem?_eq_getElem (by have := (List.getElem?_eq_some_iff.1 hrl).1; omega)⟩
        rw [dif_pos hstep, ← hmid]
        dsimp only
        rw [h.getRecord mid rm hrm]
        dsimp only
        by_cases hzero : compFn rm key = 0
        · rw [if_pos hzero]
          exact ⟨mid, rm, rfl, hrm, .of_eq hasc hrm ((hcmp.eq_zero _ _).1 hzero)⟩
        rw [if_neg hzero]
        by_cases hneg : compFn rm key < 0
        · rw [if_pos hneg]
          exact ih _ (by omega) hrm ((hcmp.neg _ _).1 hneg).le hrl hl hml rfl
        · rw [if_neg hneg]
          have hpos : 0 < compFn rm key := by omega
          exact ih _ (by omega) hrf hf hrm (hcmp.pos.1 hpos) hfm rfl
      · rw [dif_neg hstep]
        obtain rfl : last = first + 1 := by omega
        exact ⟨first, rf, rfl, hrf, .of_adjacent hasc hrf hf hrl hl⟩

/-- **Search in a node.**  If the first record does not lie behind the key, the search finds the
last one that does not. -/
theorem binarySearch_of_le (hcmp : Compares compFn keyOf) (h : b.Holds records)
    (hasc : Ascending keyOf records) (hle : ∀ r ∈ records.head?, keyOf r ≤ keyOf key) :
    ∃ i r, binarySearch compFn b key = .ok ((i : ℕ), r) ∧ records[i]? = some r ∧
      PredAt keyOf (keyOf key) records i := by
  obtain ⟨rf, hrf, hgetf⟩ := h.getRecord_zero
  obtain ⟨rl, hrl, hgetl⟩ := h.getRecord_last
  have hf : keyOf rf ≤ keyOf key := hle rf (by rw [List.head?_eq_getElem?, hrf]; rfl)
  have hpos := List.length_pos_iff.2 h.ne_nil
  unfold binarySearch
  dsimp only
  rw [hgetf]
  dsimp only
  rw [if_neg (not_lt.2 (hcmp.nonpos.2 hf))]
  by_cases hzero : compFn rf key = 0
  · rw [if_pos (Or.inl hzero)]
    exact ⟨0, rf, rfl, hrf, .of_eq hasc hrf ((hcmp.eq_zero _ _).1 hzero)⟩
  by_cases hone : (b.recsCount : ℤ) - 1 = 0
  · rw [if_pos (Or.inr hone)]
    have hlength : records.length = 0 + 1 := by
      have := h.recsCount
      omega
    exact ⟨0, rf, rfl, hrf, .of_last hrf hf hlength⟩
  rw [if_neg (by tauto), hgetl]
  dsimp only
  have hlast : ((b.recsCount : ℤ) - 1) = ((records.length - 1 : ℕ) : ℤ) := by
    rw [h.recsCount]
    omega
  by_cases hnonpos : compFn rl key ≤ 0
  · rw [if_pos hnonpos, hlast]
    exact ⟨_, rl, rfl, hrl, .of_last hrl (hcmp.nonpos.1 hnonpos) (by omega)⟩
  · rw [if_neg hnonpos, hlast]
    have hl : keyOf key < keyOf rl := hcmp.pos.1 (not_le.1 hnonpos)
    have hlt : 0 < records.length - 1 := by omega
    exact searchLoop_eq hcmp h hasc hrf hf hrl hl hlt

/-- If the first record lies behind the key, there is no such record. -/
lemma binarySearch_of_lt (hcmp : Compares compFn keyOf) (h : b.Holds records)
    (hlt : ∀ r ∈ records.head?, keyOf key < keyOf r) :
    binarySearch compFn b key = .error (.errno (-enoent)) := by
  obtain ⟨rf, hrf, hgetf⟩ := h.getRecord_zero
  have hf : keyOf key < keyOf rf := hlt rf (by rw [List.head?_eq_getElem?, hrf]; rfl)
  unfold binarySearch
  dsimp only
  rw [hgetf]
  dsimp only
  rw [if_pos (hcmp.pos.2 hf)]

end Bnode.Holds

end SamsungTVVoices.Extractor
