/-
An image of the television's file system as the unpacking tool reads it (`cattree.c`, `extents.c`,
`disk_op.c` and the block lookup of `unpack.c`).

An image is its bytes and the records of its two trees in the order of their keys.
`getFileBlockNum` looks for a block of a file in the nine extents of the record and then in the
overflow tree.  `mappedBlock` says which block of the image that is by the extents alone, and
`eq_mappedBlock_of_found` when the lookup is right: where it finds an extent that begins behind the
block, or runs from the file's overflow extents into those of another, it gives the number of some
other block.
-/
import SamsungTVVoices.Protocol
import Mathlib.Algebra.Order.Ring.Int
import Mathlib.Data.List.Basic

namespace SamsungTVVoices.Extractor

/-! ### Records -/

/-- `struct vdfs4_iextent`, and a record of the overflow tree: the blocks of a file from `iblock`
on lie in the `length` blocks of the image from `begin` on. -/
structure Extent where
  iblock : ℕ
  begin : ℕ
  length : ℕ
deriving DecidableEq

/-- The first block of the file behind the extent, as a 64-bit number. -/
def Extent.stop (e : Extent) : ℕ := (e.iblock + e.length) % 2 ^ 64

/-- The block of the image that stands for block `i` of the file. -/
def Extent.blockAt (e : Extent) (i : ℕ) : ℤ := e.begin + i - e.iblock

/-- `record_type`. -/
inductive RecordType
  | dummy | folder | file | hlink | dlink | ilink
deriving DecidableEq

/-- A record of the catalog tree: its key and its value.  A value of one type may be read as one of
another, so all of them have all the fields. -/
structure Record where
  parentId : ℕ
  objectId : ℕ
  name : Bytes
  recordType : RecordType
  fileMode : ℕ := 0o100644
  flags : ℕ := 0
  totalItemsCount : ℕ := 0
  /-- `data_fork`, with its nine extents. -/
  sizeInBytes : ℕ := 0
  totalBlocksCount : ℕ := 0
  extents : List Extent := []
  /-- `struct vdfs4_catalog_dlink_record`. -/
  dataInode : ℕ := 0
  dataOffset : ℕ := 0
  dataLength : ℕ := 0
deriving DecidableEq

namespace Record

/-- `flags & (1 << bit)`. -/
def hasFlag (r : Record) (bit : ℕ) : Bool := r.flags.testBit bit

/-- `S_IFMT`. -/
def format (r : Record) : ℕ := r.fileMode &&& 0o170000

/-- `S_ISLNK`. -/
def isLink (r : Record) : Bool := r.format = 0o120000

/-- `S_ISBLK`, `S_ISCHR`, `S_ISFIFO` or `S_ISSOCK`. -/
def isSpecial (r : Record) : Bool :=
  r.format = 0o060000 || r.format = 0o020000 || r.format = 0o010000 || r.format = 0o140000

end Record

/-- `ORPHAN_INODE`. -/
def orphanInode : ℕ := 12

/-- `VDFS4_COMPRESSED_FILE`. -/
def compressedFile : ℕ := 13

/-- `SIGNED_DLINK`. -/
def signedDlink : ℕ := 14

/-- `VDFS4_AUTH_FILE`. -/
def authFile : ℕ := 15

/-- `VDFS4_READ_ONLY_AUTH`. -/
def readOnlyAuth : ℕ := 16

/-- `VDFS4_ROOT_INO`. -/
def rootIno : ℕ := 1

/-- `VDFS4_1ST_FILE_INO`. -/
def firstFileIno : ℕ := 9

/-- `ENOENT`. -/
def enoent : ℤ := 2

/-- `EINVAL`. -/
def einval : ℤ := 22

/-- `ENFILE`. -/
def enfile : ℤ := 23

/-- `ESPIPE`. -/
def espipe : ℤ := 29

/-- `ENODATA`. -/
def enodata : ℤ := 61

/-- `EWRFAIL`. -/
def ewrfail : ℤ := 138

/-- `ERDFAIL`. -/
def erdfail : ℤ := 139

/-- What the tool unpacks: the records of the catalog and of the overflow tree in the order of
their keys, which begin with the id of the parent, and the bytes of the device.  `decodeFile` is the
decompressor of `decompress.c`: the code it returns and the bytes that it writes; `authenticated` is
what it says about a signature. -/
structure Image where
  catalog : List Record
  overflow : List (ℕ × Extent) := []
  blockSize : ℕ
  data : Bytes
  decodeFile : Bytes → ℤ × Bytes
  authenticated : Bytes → Bool
  sorted : catalog.Pairwise fun a b => a.parentId ≤ b.parentId
  blockSize_pos : 0 < blockSize
  length_data_lt : data.length < 2 ^ 64

namespace Image

variable (img : Image)

/-! ### The catalog tree -/

/-- The key of the record lies behind `(ino, "", 0)`. -/
def after (ino : ℕ) (r : Record) : Bool :=
  ino < r.parentId || (r.parentId = ino && (r.name ≠ [] || 0 < r.objectId))

/-- `vdfs4_cattree_get_first_child` and the records that follow it. -/
def children (ino : ℕ) : List Record := img.catalog.dropWhile fun r => !after ino r

/-- No record that follows the key of an object has a parent before it. -/
lemma le_parentId_of_mem_children {ino : ℕ} {r : Record} (h : r ∈ img.children ino) :
    ino ≤ r.parentId := by
  have hsorted : (img.children ino).Pairwise fun a b => a.parentId ≤ b.parentId :=
    img.sorted.sublist (List.dropWhile_sublist _)
  cases hchildren : img.children ino with
  | nil =>
    rw [hchildren] at h
    cases h
  | cons first rest =>
    have hfirst : ino ≤ first.parentId := by
      have hafter := List.head?_dropWhile_not (fun r => !after ino r) img.catalog
      rw [← children, hchildren] at hafter
      simp only [List.head?_cons, Bool.not_eq_false', after, Bool.or_eq_true,
        decide_eq_true_eq, Bool.and_eq_true] at hafter
      rcases hafter with hlt | ⟨heq, -⟩
      · exact hlt.le
      · exact heq.ge
    rw [hchildren] at h hsorted
    rcases List.mem_cons.1 h with rfl | h
    · exact hfirst
    · exact hfirst.trans ((List.pairwise_cons.1 hsorted).1 r h)

/-- `vdfs4_cattree_is_orphan`. -/
def isOrphan (r : Record) : Bool :=
  match r.recordType with
  | .folder | .file | .dlink => r.hasFlag orphanInode
  | _ => false

/-- The records with the key `(ino, "", _)`. -/
def bodies (ino : ℕ) : List Record :=
  img.catalog.filter fun r => r.parentId = ino && r.name = []

/-- `vdfs4_cattree_find` for the empty name: the last record with the key, or, if that is an
orphan, the first one that is not. -/
def cattreeFind (ino : ℕ) : Option Record :=
  (img.bodies ino).getLast?.bind fun r =>
    if isOrphan r then (img.bodies ino).find? fun b => 0 < b.objectId && !isOrphan b else some r

/-! ### Where the blocks of a file lie -/

/-- The overflow extents of an object, from the first one on to the end of the tree. -/
def overflowFrom (obj : ℕ) : List (ℕ × Extent) := img.overflow.dropWhile (·.1 ≠ obj)

/-- The walk of `get_file_block_num_in_image` along the overflow tree.  Its result is an `int`; it
is 0 when the walk leaves the extents of the object. -/
def walkOverflow (obj i : ℕ) : List (ℕ × Extent) → ℤ
  | [] => -enoent
  | (o, e) :: rest =>
    if o = obj then if i < e.stop then (e.blockAt i).bmod (2 ^ 32) else walkOverflow obj i rest
    else 0

/-- `get_file_block_num_in_image`, where `readable` says whether the overflow tree can be read. -/
def getFileBlockNum (readable : Bool) (obj : ℕ) (r : Record) (i : ℕ) : ℤ :=
  if r.totalBlocksCount < i then -einval
  else match r.extents.find? (i < ·.stop) with
    | some e => (e.blockAt i).bmod (2 ^ 64)
    | none => if readable then walkOverflow obj i (img.overflowFrom obj) else -erdfail

/-- The overflow extents of an object. -/
def overflowExtents (obj : ℕ) : List Extent :=
  ((img.overflowFrom obj).takeWhile (·.1 = obj)).map (·.2)

/-- The block of the image that the extents of the file give for its block `i`: extents stand in the
order of their first blocks, so it is in the first one that ends behind `i`, if in any. -/
def mappedBlock (obj : ℕ) (r : Record) (i : ℕ) : Option ℕ :=
  ((r.extents ++ img.overflowExtents obj).find? (i < ·.stop)).bind fun e =>
    if e.iblock ≤ i then some (e.begin + (i - e.iblock)) else none

/-- The first extent that ends behind block `i` holds it, and the number of the block fits: in 63
bits, or in 31 if the extent is one of the overflow tree. -/
def Found (obj : ℕ) (r : Record) (i : ℕ) : Prop :=
  (∃ e, r.extents.find? (i < ·.stop) = some e ∧ e.iblock ≤ i ∧ e.begin + (i - e.iblock) < 2 ^ 63) ∨
    (r.extents.find? (i < ·.stop) = none ∧
      ∃ e, (img.overflowExtents obj).find? (i < ·.stop) = some e ∧ e.iblock ≤ i ∧
        e.begin + (i - e.iblock) < 2 ^ 31)

variable {img} {obj i : ℕ} {r : Record} {e : Extent} {readable : Bool}

lemma blockAt_eq (h : e.iblock ≤ i) : e.blockAt i = ((e.begin + (i - e.iblock) : ℕ) : ℤ) := by
  unfold Extent.blockAt
  omega

/-- A number that fits is not changed by the conversion. -/
lemma bmod_of_lt {n k : ℕ} (h : n < 2 ^ k) : ((n : ℤ)).bmod (2 ^ (k + 1)) = n := by
  apply Int.bmod_eq_of_le
  · have : (0 : ℤ) ≤ ((2 ^ (k + 1) : ℕ) : ℤ) / 2 := by positivity
    omega
  · have hpow : 2 ^ (k + 1) = 2 * 2 ^ k := by ring
    omega

/-- A number that is not changed by the conversion fits. -/
lemma lt_of_bmod_eq {n k : ℕ} (h : ((n : ℤ)).bmod (2 ^ (k + 1)) = n) : n < 2 ^ k := by
  have hpow : 2 ^ (k + 1) = 2 * 2 ^ k := by ring
  have hlt := Int.bmod_lt (x := (n : ℤ)) (show 0 < 2 ^ (k + 1) by positivity)
  rw [h, hpow] at hlt
  omega

/-- The walk finds the extent that the object has for the block. -/
lemma walkOverflow_of_find {run : List (ℕ × Extent)}
    (h : ((run.takeWhile (·.1 = obj)).map (·.2)).find? (i < ·.stop) = some e) :
    walkOverflow obj i run = (e.blockAt i).bmod (2 ^ 32) := by
  induction run with
  | nil => simp at h
  | cons x rest ih =>
    obtain ⟨o, e'⟩ := x
    by_cases ho : o = obj
    · by_cases hi : i < e'.stop
      · simp only [ho, List.takeWhile_cons, decide_true, if_true, List.map_cons, List.find?_cons,
          hi, Option.some.injEq] at h
        rw [← h, walkOverflow, if_pos ho, if_pos hi]
      · simp only [ho, List.takeWhile_cons, decide_true, if_true, List.map_cons, List.find?_cons,
          hi, decide_false] at h
        rw [walkOverflow, if_pos ho, if_neg hi, ih h]
    · simp [ho] at h

/-- **Where the lookup is right.**  If the block is found and the lookup does not fail, it gives
the block that the extents map. -/
theorem eq_mappedBlock_of_found (readable : Bool) (h : img.Found obj r i) :
    (∃ b, img.mappedBlock obj r i = some b ∧ img.getFileBlockNum readable obj r i = b) ∨
      img.getFileBlockNum readable obj r i = -einval ∨
      img.getFileBlockNum readable obj r i = -erdfail := by
  unfold getFileBlockNum
  by_cases htotal : r.totalBlocksCount < i
  · exact Or.inr (Or.inl (by rw [if_pos htotal]))
  rw [if_neg htotal]
  unfold mappedBlock
  rw [List.find?_append]
  rcases h with ⟨e, hfind, hle, hlt⟩ | ⟨hnone, e, hfind, hle, hlt⟩
  · refine Or.inl ⟨e.begin + (i - e.iblock), by rw [hfind]; simp [hle], ?_⟩
    simp only [hfind]
    rw [blockAt_eq hle, bmod_of_lt hlt]
  · cases readable with
    | false => exact Or.inr (Or.inr (by simp [hnone]))
    | true =>
      refine Or.inl ⟨e.begin + (i - e.iblock), by rw [hnone, hfind]; simp [hle], ?_⟩
      simp only [hnone, if_true]
      rw [walkOverflow_of_find hfind, blockAt_eq hle, bmod_of_lt hlt]

/-- The extents map a block that the lookup gives only if it is found. -/
lemma found_of_eq_mappedBlock {b : ℕ} (hb : img.mappedBlock obj r i = some b)
    (h : img.getFileBlockNum readable obj r i = b) : img.Found obj r i := by
  unfold getFileBlockNum at h
  by_cases htotal : r.totalBlocksCount < i
  · rw [if_pos htotal] at h
    exact absurd (h ▸ Int.natCast_nonneg b : (0 : ℤ) ≤ -einval) (by decide)
  rw [if_neg htotal] at h
  unfold mappedBlock at hb
  rw [List.find?_append] at hb
  cases hfork : r.extents.find? (i < ·.stop) with
  | some e =>
    rw [hfork] at hb h
    simp only [Option.some_or, Option.bind_some] at hb
    by_cases hle : e.iblock ≤ i
    · rw [if_pos hle] at hb
      obtain rfl := Option.some.inj hb
      refine Or.inl ⟨e, hfork, hle, ?_⟩
      simp only [blockAt_eq hle] at h
      exact lt_of_bmod_eq h
    · rw [if_neg hle] at hb
      cases hb
  | none =>
    rw [hfork] at hb h
    simp only [Option.none_or] at hb
    obtain ⟨e, hfind, hb⟩ := Option.bind_eq_some_iff.1 hb
    by_cases hle : e.iblock ≤ i
    · rw [if_pos hle] at hb
      obtain rfl := Option.some.inj hb
      refine Or.inr ⟨hfork, e, hfind, hle, ?_⟩
      cases readable with
      | false =>
        simp only [Bool.false_eq_true, if_false] at h
        exact absurd (h ▸ Int.natCast_nonneg _ : (0 : ℤ) ≤ -erdfail) (by decide)
      | true =>
        simp only [if_true] at h
        rw [walkOverflow_of_find hfind, blockAt_eq hle] at h
        exact lt_of_bmod_eq h
    · rw [if_neg hle] at hb
      cases hb

/-! ### Reading blocks -/

end Image

/-- How a read of the image goes: `failed` is a `read` that returns -1. -/
inductive ReadOutcome
  | whole | short | failed | seekFailed
deriving DecidableEq

namespace Image

/-- `vdfs4_read_blocks`: `none` is a failed assertion.  The number of bytes read is compared as an
unsigned number, so a `read` that fails leaves the buffer as it is and counts as a success. -/
def readBlocks (img : Image) (n : ℕ) (buf : Bytes) (count : ℕ) (how : ReadOutcome) :
    Option (ℤ × Bytes) :=
  if count = 0 then some (0, buf)
  else
    let pos := n * img.blockSize % 2 ^ 64
    let len := count * img.blockSize
    if img.data.length ≤ pos ∨ img.blockSize < pos + len - img.data.length then none
    else match how with
      | .seekFailed => some (-espipe, buf)
      | .short => some (-erdfail, buf)
      | .failed => some (0, buf)
      | .whole =>
        let bytes := (img.data.drop pos).take len
        some (0, bytes ++ buf.drop bytes.length)

end Image

end SamsungTVVoices.Extractor
