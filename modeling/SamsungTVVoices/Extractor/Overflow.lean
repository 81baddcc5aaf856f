/-
The overflow extents as a tree of bytes (`extents.c`).

The extents of a file that do not fit in its record are in a tree of their own, keyed by the number
of the object and the first block.  The walk of `get_file_block_num_in_image` over this tree gives
the number that `Image.walkOverflow` gives on the list of the extents, and so the block lookup on
the bytes is the one of the image (`getFileBlockNum_eq`).
-/
import SamsungTVVoices.Extractor.Catalog

open FixedDigits

namespace SamsungTVVoices.Extractor

/-! ### Records of the overflow tree -/

namespace ExtRecord

variable (record : Bytes)

/-- The fields of `struct vdfs4_exttree_key`. -/
def objectId : ℕ := field record 8 8

def iblock : ℕ := field record 16 8

/-- An extent that lies at an offset of the record, with the first block that the key says. -/
def lextent (offset : ℕ) : Extent where
  iblock := iblock record
  begin := field record offset 8
  length := field record (offset + 8) 8

/-- `sizeof(struct vdfs4_exttree_key)` -/
def keySize : ℕ := 24

/-- The object, and its extent: `struct vdfs4_exttree_lrecord`.  The length in a key is not told by
its type, so a record where it is another one is none. -/
def decode : Option (ℕ × Extent) :=
  if field record 4 2 = keySize then some (objectId record, lextent record keySize) else none

/-- The key of a record. -/
def key : ℕ ×ₗ ℕ := toLex (objectId record, iblock record)

end ExtRecord

/-- `vdfs4_exttree_cmpfn`, with `cmp_2_le64` -/
def exttreeCmpfn (r s : Bytes) : ℤ :=
  if ExtRecord.objectId r ≠ ExtRecord.objectId s then
    if ExtRecord.objectId s < ExtRecord.objectId r then 1 else -1
  else if ExtRecord.iblock r = ExtRecord.iblock s then 0
  else if ExtRecord.iblock s < ExtRecord.iblock r then 1
  else -1

/-- The comparison function of the overflow tree compares keys. -/
theorem compares_exttreeCmpfn : Compares exttreeCmpfn ExtRecord.key := by
  constructor
  · intro r s
    simp only [exttreeCmpfn, ExtRecord.key, toLex_inj, Prod.mk.injEq]
    constructor
    · intro h
      split_ifs at h <;> omega
    · intro h
      rw [if_neg (by omega), if_pos h.2]
  · intro r s
    simp only [exttreeCmpfn, ExtRecord.key, Prod.Lex.toLex_lt_toLex]
    split_ifs <;> omega

/-- A key to look for: `struct vdfs4_exttree_key`.  Its first bytes are not set, and not read. -/
def exttreeKey (objectId iblock : ℕ) : Bytes :=
  List.replicate 8 0 ++ leBytes 8 objectId ++ leBytes 8 iblock

lemma key_exttreeKey {objectId iblock : ℕ} (ho : objectId < 2 ^ 64) (hi : iblock < 2 ^ 64) :
    ExtRecord.key (exttreeKey objectId iblock) = toLex (objectId, iblock) := by
  have hobject : ExtRecord.objectId (exttreeKey objectId iblock) = objectId :=
    field_eq (List.replicate 8 0) (leBytes 8 iblock)
      (by simp only [exttreeKey, List.append_assoc]) List.length_replicate ho
  have hiblock : ExtRecord.iblock (exttreeKey objectId iblock) = iblock :=
    field_eq (List.replicate 8 0 ++ leBytes 8 objectId) []
      (by simp only [exttreeKey, List.append_assoc, List.append_nil]) (by simp) hi
  rw [ExtRecord.key, hobject, hiblock]

/-! ### The walk over the extents of a file -/

namespace Btree

variable (t : Btree)

/-- `vdfs4_exttree_find_first_record`, and where in the record its extent is read: behind the key
where the search has stopped, else behind a key of the usual size. -/
def exttreeFindFirstRecord (fuel objectId : ℕ) : Except TreeError (RecordInfo × ℕ) := do
  let info ← t.find fuel (exttreeKey objectId 0)
  if ExtRecord.objectId info.record = objectId then .ok (info, field info.record 4 2)
  else do
    let next ← t.getNextRecord info
    if ExtRecord.objectId next.record = objectId then .ok (next, ExtRecord.keySize)
    else .error (.errno (-enoent))

/-- The loop of `get_file_block_num_in_image` over the overflow extents. -/
def overflowLoop (obj i : ℕ) : ℕ → RecordInfo → ℕ → Except TreeError ℤ
  | 0, _, _ => .error .endless
  | fuel + 1, info, offset =>
    if ExtRecord.objectId info.record = obj then
      let e := ExtRecord.lextent info.record offset
      if i < e.stop then .ok ((e.blockAt i).bmod (2 ^ 32))
      else match t.getNextRecord info with
        | .ok next => overflowLoop obj i fuel next ExtRecord.keySize
        | .error (.errno e) => .ok e
        | .error e => .error e
    else .ok 0

/-- What `get_file_block_num_in_image` does when no extent of the record has the block. -/
def lookupOverflow (fuel obj i : ℕ) : Except TreeError ℤ :=
  match t.exttreeFindFirstRecord fuel obj with
  | .ok (info, offset) => t.overflowLoop obj i fuel info offset
  | .error (.errno e) => .ok e
  | .error e => .error e

/-- `get_file_block_num_in_image` -/
def getFileBlockNum (fuel obj : ℕ) (r : Record) (i : ℕ) : Except TreeError ℤ :=
  if r.totalBlocksCount < i then .ok (-einval)
  else match r.extents.find? (i < ·.stop) with
    | some e => .ok ((e.blockAt i).bmod (2 ^ 64))
    | none => t.lookupOverflow fuel obj i

end Btree

/-- The tree holds the overflow extents of the list.  The first one is the record without an object
that `dummy_exttree_record_init` makes. -/
structure OverflowTree (t : Btree) (leaves : List Btree.Node) (overflow : List (ℕ × Extent)) : Prop
    extends t.Stores ExtRecord.key ExtRecord.decode (fun x => toLex (x.1, x.2.iblock)) leaves
      overflow where
  dummy : ∀ x ∈ overflow.head?, x.1 = 0

namespace OverflowTree

variable {t : Btree} {leaves : List Btree.Node} {img : Image} {index obj i : ℕ} {info : RecordInfo}
  {x : ℕ × Extent}

lemma of_decode {record : Bytes} (h : ExtRecord.decode record = some x) :
    field record 4 2 = ExtRecord.keySize ∧ ExtRecord.objectId record = x.1 ∧
      ExtRecord.lextent record ExtRecord.keySize = x.2 := by
  unfold ExtRecord.decode at h
  split at h
  · next hkey =>
      obtain rfl := Option.some.inj h
      exact ⟨hkey, rfl, rfl⟩
  · cases h

/-- The loop does on the bytes what the walk does on the list. -/
lemma overflowLoop_eq (h : OverflowTree t leaves img.overflow) {fuel : ℕ}
    (hat : Btree.IsAt leaves index info) (hx : img.overflow[index]? = some x)
    (hdecode : ExtRecord.decode info.record = some x) (hfuel : img.overflow.length ≤ index + fuel) :
    t.overflowLoop obj i fuel info ExtRecord.keySize =
      .ok (Image.walkOverflow obj i (img.overflow.drop index)) := by
  induction fuel generalizing index info x with
  | zero =>
      have hlt := (List.getElem?_eq_some_iff.1 hx).1
      omega
  | succ fuel ih =>
      obtain ⟨-, hobject, hextent⟩ := of_decode hdecode
      obtain ⟨hlt, hget⟩ := List.getElem?_eq_some_iff.1 hx
      obtain ⟨o, e⟩ := x
      rw [Btree.overflowLoop, List.drop_eq_getElem_cons hlt, hget, Image.walkOverflow, hobject,
        hextent]
      by_cases ho : o = obj
      · rw [if_pos ho, if_pos ho]
        by_cases hi : i < e.stop
        · rw [if_pos hi, if_pos hi]
        · rw [if_neg hi, if_neg hi]
          rcases h.getNextRecord hat with ⟨next, y, hnext, hy, hdecode', hat'⟩ | ⟨hnext, hnil⟩
          · rw [hnext]
            exact ih hat' hy hdecode' (by omega)
          · rw [hnext, hnil, Image.walkOverflow]
      · rw [if_neg ho, if_neg ho]

/-- The key of an extent in the list. -/
def itemKey (x : ℕ × Extent) : ℕ ×ₗ ℕ := toLex (x.1, x.2.iblock)

lemma itemKey_le_iff : itemKey x ≤ toLex (obj, 0) ↔ x.1 < obj ∨ x.1 = obj ∧ x.2.iblock = 0 := by
  rw [itemKey, Prod.Lex.toLex_le_toLex, Nat.le_zero]

lemma fst_le_of_le {y : ℕ × Extent} (h : itemKey y ≤ itemKey x) : y.1 ≤ x.1 := by
  rw [itemKey, itemKey, Prod.Lex.toLex_le_toLex] at h
  omega

/-- The overflow extents of an object begin where those before it end. -/
lemma overflowFrom_eq {n : ℕ} (hfront : ∀ j y, j < n → img.overflow[j]? = some y → y.1 ≠ obj)
    (hhead : ∀ y ∈ (img.overflow.drop n).head?, y.1 = obj) :
    img.overflowFrom obj = img.overflow.drop n := by
  have htake : ∀ y ∈ img.overflow.take n, y.1 ≠ obj := by
    intro y hy
    obtain ⟨j, hj⟩ := List.getElem?_of_mem hy
    rw [List.getElem?_take] at hj
    split at hj
    · next hjn => exact hfront j y hjn hj
    · cases hj
  rw [Image.overflowFrom]
  conv_lhs => rw [← List.take_append_drop n img.overflow]
  rw [List.dropWhile_append_of_pos (by simpa using htake)]
  cases hrest : img.overflow.drop n with
  | nil => rfl
  | cons y rest =>
      have hy : y.1 = obj := hhead y (by rw [hrest]; rfl)
      rw [List.dropWhile_cons_of_neg (by simpa using hy)]

section List

variable (hasc : Ascending itemKey img.overflow)
  (hpred : PredAt itemKey (toLex (obj, 0)) img.overflow index) (hx : img.overflow[index]? = some x)

include hasc hpred hx

/-- The record where the search stops is the first one of the object, if it is one of it. -/
lemma overflowFrom_of_eq (h : x.1 = obj) : img.overflowFrom obj = img.overflow.drop index := by
  obtain ⟨x', hx', hle⟩ := hpred.le
  obtain rfl := Option.some.inj (hx.symm.trans hx')
  refine overflowFrom_eq (fun j y hj hy => ?_) ?_
  · have hlt := (hasc.lt_of_lt hj hy hx).trans_le hle
    rw [itemKey, Prod.Lex.toLex_lt_toLex] at hlt
    omega
  · intro y hy
    rw [Option.mem_def, List.head?_drop, hx, Option.some.injEq] at hy
    exact hy ▸ h

/-- Else the first one of the object can only be the next one. -/
lemma overflowFrom_of_ne (h : x.1 ≠ obj) : img.overflowFrom obj =
    if ∃ y ∈ img.overflow[index + 1]?, y.1 = obj then img.overflow.drop (index + 1) else [] := by
  obtain ⟨x', hx', hle⟩ := hpred.le
  obtain rfl := Option.some.inj (hx.symm.trans hx')
  have hfront : ∀ j y, j < index + 1 → img.overflow[j]? = some y → y.1 ≠ obj := by
    intro j y hj hy
    have hyx := fst_le_of_le (hasc.le_of_le (Nat.lt_succ_iff.1 hj) hy hx)
    rw [itemKey_le_iff] at hle
    omega
  split
  · next hnext =>
      obtain ⟨y, hy, hobj⟩ := hnext
      refine overflowFrom_eq hfront ?_
      rw [List.head?_drop]
      intro z hz
      rwa [Option.mem_unique hz hy]
  · next hnext =>
      have hnone : img.overflowFrom obj = img.overflow.drop img.overflow.length := by
        refine overflowFrom_eq (fun j y _ hy => ?_) (by simp)
        rcases Nat.lt_or_ge j (index + 1) with hlt | hge
        · exact hfront j y hlt hy
        · -- the next record has a greater object, and so have those behind it
          have hlen := (List.getElem?_eq_some_iff.1 hy).1
          obtain ⟨z, hz⟩ : ∃ z, img.overflow[index + 1]? = some z :=
            ⟨_, List.getElem?_eq_getElem (by omega)⟩
          have hzobj : z.1 ≠ obj := fun heq => hnext ⟨z, hz, heq⟩
          have hbehind := hpred.lt (index + 1) z (Nat.lt_succ_self index) hz
          rw [itemKey, Prod.Lex.toLex_lt_toLex] at hbehind
          have hzy := fst_le_of_le (hasc.le_of_le hge hz hy)
          omega
      rw [hnone, List.drop_length]

end List

/-- The walk over the tree gives the number that the walk over the list gives, with its errors. -/
lemma lookupOverflow_eq (h : OverflowTree t leaves img.overflow) (hobj : 0 < obj)
    (hlt : obj < 2 ^ 64) (i : ℕ) : ∃ steps, ∀ fuel, steps ≤ fuel →
      t.lookupOverflow fuel obj i = .ok (Image.walkOverflow obj i (img.overflowFrom obj)) := by
  have hkey : ExtRecord.key (exttreeKey obj 0) = toLex (obj, 0) :=
    key_exttreeKey hlt (by norm_num)
  have hhead : ∀ x ∈ img.overflow.head?, itemKey x ≤ ExtRecord.key (exttreeKey obj 0) := by
    intro x hx
    rw [hkey, itemKey_le_iff, h.dummy x hx]
    exact Or.inl hobj
  obtain ⟨steps, index, info, x, hpred, hat, hx, hdecode, hrun⟩ := h.find (exttreeKey obj 0) hhead
  rw [hkey] at hpred
  obtain ⟨hsize, hobject, -⟩ := of_decode hdecode
  refine ⟨max steps img.overflow.length, fun fuel hfuel => ?_⟩
  have hlength : img.overflow.length ≤ fuel := le_of_max_le_right hfuel
  rw [Btree.lookupOverflow, Btree.exttreeFindFirstRecord, hrun fuel (le_of_max_le_left hfuel)]
  change (match (if _ then _ else _ : Except TreeError (RecordInfo × ℕ)) with
    | .ok (info, offset) => _ | .error (.errno e) => _ | .error e => _) = _
  rw [hobject, hsize]
  by_cases hx1 : x.1 = obj
  · rw [if_pos hx1, overflowFrom_of_eq h.ascending hpred hx hx1]
    exact h.overflowLoop_eq hat hx hdecode (by omega)
  rw [if_neg hx1, overflowFrom_of_ne h.ascending hpred hx hx1]
  rcases h.getNextRecord hat with ⟨next, y, hnext, hy, hdecode', hat'⟩ | ⟨hnext, hnil⟩
  · rw [hnext]
    obtain ⟨-, hobject', -⟩ := of_decode hdecode'
    change (match (if _ then _ else _ : Except TreeError (RecordInfo × ℕ)) with
      | .ok (info, offset) => _ | .error (.errno e) => _ | .error e => _) = _
    rw [hobject', hy]
    by_cases hy1 : y.1 = obj
    · rw [if_pos hy1, if_pos ⟨y, rfl, hy1⟩]
      exact h.overflowLoop_eq hat' hy hdecode' (by omega)
    · rw [if_neg hy1, if_neg (by simpa using hy1)]
      rfl
  · rw [hnext, List.drop_eq_nil_iff] at *
    rw [List.getElem?_eq_none hnil, if_neg (by simp)]
    rfl

/-- **Block lookup.**  On a tree that holds the overflow extents, the lookup of a block of a file
gives the number that it gives on the list of the extents, with its errors.  That is the number as
the code has it, which is an `int` if the extent is one of the tree; whether it is the block of the
file is for `eq_mappedBlock_of_found` to say.  No file has the number 0. -/
theorem getFileBlockNum_eq (h : OverflowTree t leaves img.overflow) (hobj : 0 < obj)
    (hlt : obj < 2 ^ 64) (r : Record) (i : ℕ) : ∃ steps, ∀ fuel, steps ≤ fuel →
      t.getFileBlockNum fuel obj r i = .ok (img.getFileBlockNum true obj r i) := by
  obtain ⟨steps, hrun⟩ := h.lookupOverflow_eq hobj hlt i
  refine ⟨steps, fun fuel hfuel => ?_⟩
  rw [Btree.getFileBlockNum, Image.getFileBlockNum]
  by_cases htotal : r.totalBlocksCount < i
  · rw [if_pos htotal, if_pos htotal]
  rw [if_neg htotal, if_neg htotal]
  cases r.extents.find? (i < ·.stop) with
  | some e => rfl
  | none => exact hrun fuel hfuel

/-- `struct vdfs4_exttree_lrecord` -/
def smallExtent (obj iblock begin length : ℕ) : Bytes :=
  List.replicate 4 0 ++ leBytes 2 24 ++ leBytes 2 40 ++ leBytes 8 obj ++ leBytes 8 iblock ++
    leBytes 8 begin ++ leBytes 8 length

/-- The dummy, and two overflow extents of object 9. -/
def smallOverflow : List Bytes :=
  [smallExtent 0 0 0 0, smallExtent 9 20 100 5, smallExtent 9 25 300 8]

/-- The leaf. -/
def smallLeaf : Btree.Node := Btree.smallNode (Btree.smallBnode 1 0 smallOverflow) [32, 72, 112]

/-- The tree. -/
def smallOverflowTree : Btree where
  getBnode id := if id = 1 then .ok (Btree.smallBnode 1 0 smallOverflow) else .error (.errno (-139))
  rootId := 1
  height := 1
  compFn := exttreeCmpfn

/-- An image with these extents. -/
def smallOverflowImage : Image :=
  { CatalogTree.smallImage with overflow := smallLeaf.records.filterMap ExtRecord.decode }

lemma smallOverflow_tree : OverflowTree smallOverflowTree [smallLeaf] smallOverflowImage.overflow where
  compares := compares_exttreeCmpfn
  hasLeaves := ⟨0, [smallLeaf], rfl, .leaf
    (.last rfl rfl (Btree.holds_of_forall (by decide) (by decide) (by decide +kernel) (by decide))
      (by decide)) (by decide +kernel)⟩
  records := by decide +kernel
  key _ _ h := by
    obtain ⟨-, hobject, hextent⟩ := of_decode h
    rw [ExtRecord.key, hobject, ← hextent]
    rfl
  dummy := by decide +kernel

theorem getFileBlockNum_eq_smallOverflow : ∃ steps, ∀ fuel, steps ≤ fuel →
    smallOverflowTree.getFileBlockNum fuel 9 ⟨1, 9, [], .file, 0, 0, 0, 0, 40, [], 0, 0, 0⟩ 27 =
      .ok (smallOverflowImage.getFileBlockNum true 9
        ⟨1, 9, [], .file, 0, 0, 0, 0, 40, [], 0, 0, 0⟩ 27) :=
  getFileBlockNum_eq smallOverflow_tree (by decide) (by decide) _ _

end OverflowTree

end SamsungTVVoices.Extractor
