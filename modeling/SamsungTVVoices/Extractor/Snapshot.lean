/-
The translation tables of an image, and how the nodes of its trees are found through them
(`fill_tables` and `fill_btree` of `unpack.c`, `bnode.c`, and `metablock_to_iblock` of
`space_manager.c`).

Node `i` of a tree lies in the metadata at the block that record `i` of the tree's table has.  The
tables are written as a whole now and then, twice; in between, only the records that have changed
are written, in extended tables behind them.  `fill_tables` takes the newer of the two and applies
to it the extended tables that follow, as long as each is newer than the one before.

`Snapshot` says, without these steps, what an area of tables stands for.  In it every table of
changes begins in the first sector of 512 bytes behind the table before it; `fsck.c` would have it
behind a multiple of 4096 bytes, and of an area like that nothing is said here.  `parseTables_eq` is
that `fill_tables` makes of a snapshot the tables that have for each node the last block that was
written for it.
-/
import SamsungTVVoices.Extractor.Btree
import SamsungTVVoices.Extractor.Catalog
import SamsungTVVoices.Extractor.Crc32
import SamsungTVVoices.Lib.Patch
import SamsungTVVoices.Lib.Replay

open FixedDigits Patch Replay

namespace SamsungTVVoices.Extractor

/-! ### The superblock -/

/-- `struct vdfs4_extent` -/
structure MetaExtent where
  begin : ℕ
  length : ℕ
deriving DecidableEq

/-- What the tool keeps of the superblocks: how many blocks a node has, as a power of two, and where
the tables and the metadata lie. -/
structure SbInfo where
  logBlocksInLeb : ℕ
  tables : MetaExtent
  metaExtents : List MetaExtent

/-- The loop of `metablock_to_iblock`, behind extents with `total` blocks.  The length of an extent
is taken for a number of 32 bits, and so is the result, which is an `int`, by its callers. -/
def metablockToIblock (metablock : ℕ) : ℕ → List MetaExtent → ℕ
  | _, [] => 0
  | total, e :: rest =>
    let length := e.length % 2 ^ 32
    if metablock < total + length then
      (e.begin + length - (total + length - metablock)) % 2 ^ 32
    else metablockToIblock metablock (total + length) rest

/-! ### The tables in memory -/

/-- `VDFS4_SNAPSHOT_BASE_TABLE` -/
def baseSignature : Bytes := [67, 111, 87, 66]

/-- `VDFS4_SNAPSHOT_EXTENDED_TABLE` -/
def extendedSignature : Bytes := [67, 111, 87, 69]

/-- `sizeof(struct vdfs4_base_table)` -/
def baseTableSize : ℕ := 104

/-- `sizeof(struct vdfs4_base_table_record)` -/
def baseRecordSize : ℕ := 16

/-- `sizeof(struct vdfs4_extended_table)` -/
def extendedTableSize : ℕ := 32

/-- `sizeof(struct vdfs4_extended_record)` -/
def extendedRecordSize : ℕ := 24

/-- `VDFS4_SNAPSHOT_EXT_TABLES` -/
def snapshotExtTables : ℕ := 8

/-- A number in memory.  Nothing is known of what lies behind the end of the buffer. -/
def load (b : Bytes) (pos n : ℕ) : Except TreeError ℕ :=
  if pos + n ≤ b.length then .ok (field b pos n) else .error .bug

/-- A number is set in memory. -/
def store (b : Bytes) (pos n value : ℕ) : Except TreeError Bytes :=
  if pos + n ≤ b.length then .ok (write 0 b pos (leBytes n value)) else .error .bug

/-- `memcmp` of the signature of a table. -/
def hasSignature (b : Bytes) (pos : ℕ) (signature : Bytes) : Except TreeError Bool :=
  if pos + 4 ≤ b.length then .ok (slice b pos 4 = signature) else .error .bug

/-- The version of a table: `mount_count` in the upper 32 bits, and `sync_count`. -/
def loadVersion (b : Bytes) (pos : ℕ) : Except TreeError ℕ := do
  let mountCount ← load b (pos + 8) 8
  let syncCount ← load b (pos + 4) 4
  return mountCount % 2 ^ 32 * 2 ^ 32 + syncCount

/-- How far behind a table the next one lies, by its `checksum_offset`.  The number of sectors goes
through a `char`, which has no sign on ARM. -/
def toNextTable (checksumOffset : ℕ) : ℕ :=
  ((checksumOffset + 4) % 2 ^ 32 + 511) % 2 ^ 32 / 512 % 2 ^ 8 * 512

section Base

variable (b : Bytes) (base : ℕ)

/-- `VDFS4_GET_LAST_IBLOCK`.  Pointers have 32 bits; nothing bounds the object id. -/
def getLastIblock (objectId : ℕ) : Except TreeError ℕ :=
  load b ((base + 24 + 8 * (objectId + 2 ^ 64 - 2)) % 2 ^ 32) 8

/-- `VDFS4_GET_TABLE`, as a position in memory. -/
def getTable (objectId : ℕ) : Except TreeError ℕ := do
  let offset ← load b ((base + 64 + 8 * (objectId + 2 ^ 64 - 2)) % 2 ^ 32) 8
  return (base + offset) % 2 ^ 32

/-- A record of an extended table is written into the base table. -/
def applyRecord (pos : ℕ) : Except TreeError Bytes := do
  let objectId ← load b pos 8
  let tableIndex ← load b (pos + 8) 8
  let metaIblock ← load b (pos + 16) 8
  let table ← getTable b base objectId
  let last ← getLastIblock b base objectId
  if last < tableIndex then .error .bug
  else store b ((table + baseRecordSize * tableIndex) % 2 ^ 32) 8 metaIblock

/-- The loop over the records of an extended table, from the one at `pos` on. -/
def applyRecords : ℕ → Bytes → ℕ → Except TreeError Bytes
  | 0, b, _ => .ok b
  | n + 1, b, pos => do
    let b ← applyRecord b base pos
    applyRecords n b (pos + extendedRecordSize)

/-- The loop of `fill_tables` over the extended tables, from the one at `pos` on. -/
def extLoop : ℕ → Bytes → ℕ → ℕ → Except TreeError Bytes
  | 0, b, _, _ => .ok b
  | n + 1, b, pos, baseVer => do
    if ← hasSignature b pos extendedSignature then
      let extVer ← loadVersion b pos
      if baseVer < extVer then
        let recordsCount ← load b (pos + 24) 4
        let b ← applyRecords base recordsCount b (pos + extendedTableSize)
        let b ← store b (base + 8) 8 (← load b (pos + 8) 8)
        let b ← store b (base + 4) 4 (← load b (pos + 4) 4)
        extLoop n b (pos + toNextTable (← load b (pos + 16) 8)) extVer
      else return b
    else return b

end Base

/-- `vdfs4_crc32`; where the buffer lies does not matter. -/
def vdfs4Crc32 (buf : Bytes) : ℕ := (Crc.crc32Body 0 0 buf).toNat

/-- `sbi->snapshot`: the memory with the tables, and where in it the base table lies. -/
structure Tables where
  buffer : Bytes
  base : ℕ
deriving DecidableEq

/-- The first base table has the right signature and checksum. -/
def firstIsWhole (b : Bytes) : Except TreeError Bool := do
  if ← hasSignature b 0 baseSignature then
    let checksumOffset ← load b 16 8
    let savedCrc ← load b (checksumOffset % 2 ^ 32) 4
    return savedCrc = vdfs4Crc32 (b.take (checksumOffset % 2 ^ 32))
  else return false

/-- The newer of the two base tables, with its version.  The checksum of the second one is not
looked at. -/
def newerBase (b : Bytes) : Except TreeError (ℕ × ℕ) := do
  let baseVer ← loadVersion b 0
  if ← hasSignature b (b.length / 2) baseSignature then
    let secVer ← loadVersion b (b.length / 2)
    return if baseVer < secVer then (b.length / 2, secVer) else (0, baseVer)
  else return (0, baseVer)

/-- `fill_tables` once the tables have been read.  It returns 0 without tables if the first base
table is not whole. -/
def parseTables (b : Bytes) : Except TreeError (Option Tables) := do
  if ← firstIsWhole b then
    let (base, baseVer) ← newerBase b
    let checksumOffset ← load b (base + 16) 8
    let b ← extLoop base snapshotExtTables b (base + toNextTable checksumOffset) baseVer
    return some ⟨b, base⟩
  else return none

/-- `fill_tables`, where `fresh` is what the memory holds that is allocated for the tables. -/
def fillTables (img : Image) (sb : SbInfo) (fresh : Bytes) (how : ReadOutcome) :
    Except TreeError (Option Tables) :=
  match img.readBlocks sb.tables.begin fresh sb.tables.length how with
  | none => .error .bug
  | some (code, b) => if code = 0 then parseTables b else .error (.errno code)

/-- The two bytes that the magic of a node may begin with. -/
def bnodeMagics : List Bytes := [[101, 72], [78, 100]]

/-- `vdfs4_get_bnode_from_vol`, for the tree with this inode.  Nothing bounds the number of the
node. -/
def getBnodeFromVol (img : Image) (sb : SbInfo) (tables : Option Tables) (treeIno : ℕ)
    (fresh : Bytes) (how : ReadOutcome) (nodeId : ℕ) : Except TreeError Bnode :=
  match tables with
  -- `base_table` is NULL
  | none => .error .bug
  | some tables => do
    let table ← getTable tables.buffer tables.base treeIno
    let metaIblock ← load tables.buffer ((table + baseRecordSize * nodeId) % 2 ^ 32) 8
    let iblock := metablockToIblock metaIblock 0 sb.metaExtents
    match img.readBlocks iblock fresh (2 ^ sb.logBlocksInLeb) how with
    | none => .error .bug
    | some (code, data) =>
      if code ≠ 0 then .error (.errno (-erdfail))
      else if slice data 0 2 ∈ bnodeMagics then .ok ⟨nodeId, data⟩
      else .error (.errno (-erdfail))

/-- `VDFS4_BTREE_HEAD_NODE_MAGIC` -/
def headMagic : Bytes := [101, 72, 78, 68]

/-- `fill_btree`, with `fill_cat_tree` or `fill_ext_tree`: node 0 is the head of the tree. -/
def fillBtree (getBnode : ℕ → Except TreeError Bnode) (compFn : Bytes → Bytes → ℤ) :
    Except TreeError Btree :=
  match getBnode 0 with
  | .error (.errno _) => .error (.errno (-einval))
  | .error e => .error e
  | .ok head =>
    if slice head.data 0 4 = headMagic then
      .ok ⟨getBnode, field head.data 12 4, field head.data 16 2, compFn⟩
    else .error (.errno (-einval))

/-! ### What the tables stand for -/

/-- What a base table says: its version, how many blocks of nodes each special file has, and where
in the metadata each of them lies. -/
structure Translation where
  mountCount : ℕ
  syncCount : ℕ
  count : ℕ → ℕ
  block : ℕ × ℕ → ℕ

/-- Where the tables of the special files begin in a base table, and its `checksum_offset`. -/
structure Layout where
  start : ℕ → ℕ
  stop : ℕ

/-- A table of changes. -/
structure Extension where
  mountCount : ℕ
  syncCount : ℕ
  checksumOffset : ℕ
  changes : List ((ℕ × ℕ) × ℕ)

/-- The version of a table with these counts. -/
def versionOf (mountCount syncCount : ℕ) : ℕ := mountCount % 2 ^ 32 * 2 ^ 32 + syncCount

/-- The changes of a table are made. -/
def Translation.extend (t : Translation) (e : Extension) : Translation where
  mountCount := e.mountCount
  syncCount := e.syncCount
  count := t.count
  block := replay t.block e.changes

/-- The memory from `base` on is a base table. -/
structure HoldsBase (b : Bytes) (base : ℕ) (t : Translation) (l : Layout) : Prop where
  signature : slice b base 4 = baseSignature
  mountCount : field b (base + 8) 8 = t.mountCount
  syncCount : field b (base + 4) 4 = t.syncCount
  stop : field b (base + 16) 8 = l.stop
  size_le : baseTableSize ≤ l.stop
  stop_le : base + l.stop + 4 ≤ b.length
  length_lt : b.length < 2 ^ 32
  special : ∀ obj, 0 < t.count obj → 2 ≤ obj ∧ obj ≤ 6
  last : ∀ obj, 0 < t.count obj → field b (base + 24 + 8 * (obj - 2)) 8 = t.count obj - 1
  start : ∀ obj, 0 < t.count obj → field b (base + 64 + 8 * (obj - 2)) 8 = l.start obj
  within : ∀ obj, 0 < t.count obj →
    baseTableSize ≤ l.start obj ∧ l.start obj + baseRecordSize * t.count obj ≤ l.stop
  apart : ∀ obj obj', obj ≠ obj' → 0 < t.count obj → 0 < t.count obj' →
    Apart (l.start obj) (baseRecordSize * t.count obj)
      (l.start obj') (baseRecordSize * t.count obj')
  block : ∀ obj i, i < t.count obj →
    field b (base + l.start obj + baseRecordSize * i) 8 = t.block (obj, i)

/-- The record at `pos` is this change. -/
structure HoldsChange (b : Bytes) (pos : ℕ) (c : (ℕ × ℕ) × ℕ) : Prop where
  objectId : field b pos 8 = c.1.1
  tableIndex : field b (pos + 8) 8 = c.1.2
  metaIblock : field b (pos + 16) 8 = c.2
  le_length : pos + extendedRecordSize ≤ b.length

/-- The memory from `pos` on is this table of changes. -/
structure HoldsExtension (b : Bytes) (pos : ℕ) (e : Extension) : Prop where
  signature : slice b pos 4 = extendedSignature
  mountCount : field b (pos + 8) 8 = e.mountCount
  syncCount : field b (pos + 4) 4 = e.syncCount
  checksumOffset : field b (pos + 16) 8 = e.checksumOffset
  recordsCount : field b (pos + 24) 4 = e.changes.length
  le_length : pos + extendedTableSize ≤ b.length
  change : ∀ i c, e.changes[i]? = some c →
    HoldsChange b (pos + extendedTableSize + extendedRecordSize * i) c

/-- How far behind the beginning of a table the next one lies: in the first sector of 512 bytes
behind the checksum. -/
def nextSector (checksumOffset : ℕ) : ℕ := (checksumOffset + 4 + 511) / 512 * 512

/-- A table has with its checksum at most the 255 sectors that a `char` can count. -/
def ShortTable (checksumOffset : ℕ) : Prop := checksumOffset + 4 ≤ 255 * 512

instance (checksumOffset : ℕ) : Decidable (ShortTable checksumOffset) :=
  inferInstanceAs (Decidable (_ ≤ _))

/-- From `pos` on there are at most `n` tables of changes, each newer than the one before. -/
inductive Extensions (b : Bytes) : ℕ → ℕ → ℕ → List Extension → Prop
  | full {pos version : ℕ} : Extensions b 0 pos version []
  | none {n pos version : ℕ} (hle : pos + 4 ≤ b.length)
      (hsignature : slice b pos 4 ≠ extendedSignature) : Extensions b (n + 1) pos version []
  | stale {n pos version : ℕ} {e : Extension} (he : HoldsExtension b pos e)
      (hversion : versionOf e.mountCount e.syncCount ≤ version) :
      Extensions b (n + 1) pos version []
  | newer {n pos version : ℕ} {e : Extension} {es : List Extension} (he : HoldsExtension b pos e)
      (hversion : version < versionOf e.mountCount e.syncCount)
      (hshort : ShortTable e.checksumOffset)
      (hrest : Extensions b n (pos + nextSector e.checksumOffset)
        (versionOf e.mountCount e.syncCount) es) : Extensions b (n + 1) pos version (e :: es)

lemma toNextTable_eq {checksumOffset : ℕ} (h : ShortTable checksumOffset) :
    toNextTable checksumOffset = nextSector checksumOffset := by
  rw [ShortTable] at h
  rw [toNextTable, nextSector]
  omega

lemma le_nextSector (checksumOffset : ℕ) : checksumOffset + 4 ≤ nextSector checksumOffset := by
  rw [nextSector]
  omega

/-! ### Memory -/

section Memory

variable {b b' : Bytes} {pos n value : ℕ}

lemma load_eq (h : pos + n ≤ b.length) : load b pos n = .ok (field b pos n) := if_pos h

lemma store_eq (h : pos + n ≤ b.length) :
    store b pos n value = .ok (write 0 b pos (leBytes n value)) := if_pos h

lemma hasSignature_eq (h : pos + 4 ≤ b.length) (signature : Bytes) :
    hasSignature b pos signature = .ok (slice b pos 4 = signature) := if_pos h

/-- What follows a step that succeeds. -/
lemma ok_bind {A B : Type} (a : A) (f : A → Except TreeError B) : (Except.ok a >>= f) = f a := rfl

lemma field_eq_slice (b : Bytes) (pos n : ℕ) : field b pos n = ofLeBytes (slice b pos n) := rfl

lemma field_write_self (h : value < 256 ^ n) :
    field (write 0 b pos (leBytes n value)) pos n = value := by
  have hslice : slice (write 0 b pos (leBytes n value)) pos (leBytes n value).length =
      leBytes n value := slice_write_self
  rw [length_leBytes] at hslice
  rw [field_eq_slice, hslice, ofLeBytes_leBytes, Nat.mod_eq_of_lt h]

lemma field_write_of_apart {pos' n' : ℕ} (h : Apart pos n pos' n') (hle : pos + n ≤ b.length) :
    field (write 0 b pos' (leBytes n' value)) pos n = field b pos n := by
  rw [field_eq_slice, field_eq_slice, slice_write_of_apart (by rwa [length_leBytes]) hle]

lemma field_congr {lo : ℕ} (h : b.drop lo = b'.drop lo) (hpos : lo ≤ pos) :
    field b pos n = field b' pos n := by
  rw [field_eq_slice, field_eq_slice, slice_congr h hpos]

end Memory

/-! ### Changes to a base table -/

section Change

variable {b b' : Bytes} {base pos : ℕ} {t : Translation} {l : Layout} {c : (ℕ × ℕ) × ℕ}
  {e : Extension}

/-- The memory behind a base table is as it was. -/
structure SameBehind (base : ℕ) (l : Layout) (b b' : Bytes) : Prop where
  length_eq : b'.length = b.length
  drop_eq : b'.drop (base + l.stop + 4) = b.drop (base + l.stop + 4)

lemma SameBehind.refl (base : ℕ) (l : Layout) (b : Bytes) : SameBehind base l b b := ⟨rfl, rfl⟩

lemma SameBehind.trans {b'' : Bytes} (h : SameBehind base l b b') (h' : SameBehind base l b' b'') :
    SameBehind base l b b'' :=
  ⟨h'.length_eq.trans h.length_eq, h'.drop_eq.trans h.drop_eq⟩

/-- Writing into the base table leaves what is behind it. -/
lemma sameBehind_write {n value : ℕ} (hlength : base + l.stop + 4 ≤ b.length)
    (hle : pos + n ≤ base + l.stop + 4) :
    SameBehind base l b (write 0 b pos (leBytes n value)) where
  length_eq := length_write_of_le (by
    rw [length_leBytes]
    exact hle.trans hlength)
  drop_eq := drop_write_of_ge (by rwa [length_leBytes])

lemma HoldsChange.congr (h : HoldsChange b pos c) (hs : SameBehind base l b b')
    (hpos : base + l.stop + 4 ≤ pos) : HoldsChange b' pos c where
  objectId := (field_congr hs.drop_eq hpos).trans h.objectId
  tableIndex := (field_congr hs.drop_eq (by omega)).trans h.tableIndex
  metaIblock := (field_congr hs.drop_eq (by omega)).trans h.metaIblock
  le_length := hs.length_eq ▸ h.le_length

lemma HoldsExtension.congr (h : HoldsExtension b pos e) (hs : SameBehind base l b b')
    (hpos : base + l.stop + 4 ≤ pos) : HoldsExtension b' pos e where
  signature := (slice_congr hs.drop_eq hpos).trans h.signature
  mountCount := (field_congr hs.drop_eq (by omega)).trans h.mountCount
  syncCount := (field_congr hs.drop_eq (by omega)).trans h.syncCount
  checksumOffset := (field_congr hs.drop_eq (by omega)).trans h.checksumOffset
  recordsCount := (field_congr hs.drop_eq (by omega)).trans h.recordsCount
  le_length := hs.length_eq ▸ h.le_length
  change i c hc := (h.change i c hc).congr hs (by omega)

lemma Extensions.congr {n version : ℕ} {es : List Extension} (h : Extensions b n pos version es)
    (hs : SameBehind base l b b') (hpos : base + l.stop + 4 ≤ pos) :
    Extensions b' n pos version es := by
  induction h with
  | full => exact .full
  | none hle hsignature =>
      exact .none (hs.length_eq ▸ hle) (by rwa [slice_congr hs.drop_eq hpos])
  | stale he hversion => exact .stale (he.congr hs hpos) hversion
  | newer he hversion hshort _ ih =>
      exact .newer (he.congr hs hpos) hversion hshort
        (ih (hpos.trans (Nat.le_add_right _ _)))

/-- The record of a node lies in the base table. -/
lemma HoldsBase.record_le (h : HoldsBase b base t l) {obj i : ℕ} (hi : i < t.count obj) :
    base + l.start obj + baseRecordSize * i + 8 ≤ base + l.stop := by
  have hwithin := (h.within obj (by omega)).2
  have hmul : baseRecordSize * (i + 1) ≤ baseRecordSize * t.count obj := Nat.mul_le_mul_left _ hi
  simp only [baseRecordSize] at hwithin hmul ⊢
  omega

/-- A block is written into the record of a node. -/
lemma HoldsBase.write_block (h : HoldsBase b base t l) {obj i n : ℕ} (hi : i < t.count obj)
    (hn : n < 2 ^ 64) :
    HoldsBase (write 0 b (base + l.start obj + baseRecordSize * i) (leBytes 8 n)) base
      { t with block := Function.update t.block (obj, i) n } l := by
  have hrecord := h.record_le hi
  have hwithin := h.within obj (by omega)
  have hstop := h.stop_le
  have hsame : SameBehind base l b
      (write 0 b (base + l.start obj + baseRecordSize * i) (leBytes 8 n)) :=
    sameBehind_write hstop (hrecord.trans (Nat.le_add_right _ 4))
  have hsize := h.size_le
  simp only [baseTableSize] at hwithin hsize
  -- the descriptor and the head of the table lie before the records
  have hhead : ∀ pos n', pos + n' ≤ base + 104 →
      field (write 0 b (base + l.start obj + baseRecordSize * i) (leBytes 8 n)) pos n' =
        field b pos n' :=
    fun pos n' hpos => field_write_of_apart (.inl (by omega)) (by omega)
  exact {
    signature := by
      rw [slice_write_of_apart (.inl (by omega)) (by omega)]
      exact h.signature
    mountCount := (hhead _ _ (by omega)).trans h.mountCount
    syncCount := (hhead _ _ (by omega)).trans h.syncCount
    stop := (hhead _ _ (by omega)).trans h.stop
    size_le := h.size_le
    stop_le := hsame.length_eq ▸ hstop
    length_lt := hsame.length_eq ▸ h.length_lt
    special := h.special
    last := fun obj' hobj' => by
      have := h.special obj' hobj'
      exact (hhead _ _ (by omega)).trans (h.last obj' hobj')
    start := fun obj' hobj' => by
      have := h.special obj' hobj'
      exact (hhead _ _ (by omega)).trans (h.start obj' hobj')
    within := h.within
    apart := h.apart
    block := fun obj' i' hi' => by
      have hrecord' := h.record_le hi'
      by_cases heq : (obj', i') = (obj, i)
      · obtain ⟨rfl, rfl⟩ := Prod.mk.inj heq
        rw [field_write_self (by omega)]
        dsimp only
        rw [Function.update_self]
      · refine (field_write_of_apart ?_ (by omega)).trans ?_
        · by_cases hobj : obj' = obj
          · -- two records of one table
            subst hobj
            have hne : i' ≠ i := fun h => heq (h ▸ rfl)
            rcases Nat.lt_or_gt_of_ne hne with hlt | hgt
            · exact .inl (by simp only [baseRecordSize]; omega)
            · exact .inr (by simp only [baseRecordSize]; omega)
          · -- records of two tables
            have hmul : baseRecordSize * (i + 1) ≤ baseRecordSize * t.count obj :=
              Nat.mul_le_mul_left _ hi
            have hmul' : baseRecordSize * (i' + 1) ≤ baseRecordSize * t.count obj' :=
              Nat.mul_le_mul_left _ hi'
            simp only [baseRecordSize] at hmul hmul' ⊢
            rcases h.apart obj' obj hobj (by omega) (by omega) with hlt | hgt
            · simp only [baseRecordSize] at hlt
              exact .inl (by omega)
            · simp only [baseRecordSize] at hgt
              exact .inr (by omega)
        · rw [h.block obj' i' hi']
          exact (Function.update_of_ne heq ..).symm }

/-- The counts of a table of changes are set. -/
lemma HoldsBase.write_version (h : HoldsBase b base t l) {m s : ℕ} (hm : m < 2 ^ 64)
    (hs : s < 2 ^ 32) :
    HoldsBase (write 0 (write 0 b (base + 8) (leBytes 8 m)) (base + 4) (leBytes 4 s)) base
      { t with mountCount := m, syncCount := s } l := by
  have hstop := h.stop_le
  have hsize := h.size_le
  simp only [baseTableSize] at hsize
  have hlen : (write 0 b (base + 8) (leBytes 8 m)).length = b.length :=
    length_write_of_le (by rw [length_leBytes]; omega)
  have hlen' : (write 0 (write 0 b (base + 8) (leBytes 8 m)) (base + 4) (leBytes 4 s)).length =
      b.length := (length_write_of_le (by rw [length_leBytes, hlen]; omega)).trans hlen
  -- everything else lies before or behind the two counts
  have hrest : ∀ pos n', pos + n' ≤ b.length → base + 16 ≤ pos →
      field (write 0 (write 0 b (base + 8) (leBytes 8 m)) (base + 4) (leBytes 4 s)) pos n' =
        field b pos n' := by
    intro pos n' hpos hge
    rw [field_write_of_apart (.inr (by omega)) (by omega),
      field_write_of_apart (.inr (by omega)) hpos]
  exact {
    signature := by
      rw [slice_write_of_apart (.inl (by omega)) (by omega),
        slice_write_of_apart (.inl (by omega)) (by omega)]
      exact h.signature
    mountCount := by
      rw [field_write_of_apart (.inr (by omega)) (by omega), field_write_self (by omega)]
    syncCount := field_write_self (by omega)
    stop := (hrest _ _ (by omega) (by omega)).trans h.stop
    size_le := h.size_le
    stop_le := hlen' ▸ hstop
    length_lt := hlen' ▸ h.length_lt
    special := h.special
    last := fun obj hobj => by
      have := h.special obj hobj
      exact (hrest _ _ (by omega) (by omega)).trans (h.last obj hobj)
    start := fun obj hobj => by
      have := h.special obj hobj
      exact (hrest _ _ (by omega) (by omega)).trans (h.start obj hobj)
    within := h.within
    apart := h.apart
    block := fun obj i (hi : i < t.count obj) => by
      have hrecord := h.record_le hi
      have hwithin := (h.within obj (by omega)).1
      simp only [baseTableSize] at hwithin
      exact (hrest _ _ (by omega) (by omega)).trans (h.block obj i hi) }

/-- Where the table of a special file is found. -/
lemma HoldsBase.getTable_eq (h : HoldsBase b base t l) {obj : ℕ} (hobj : 0 < t.count obj) :
    getTable b base obj = .ok (base + l.start obj) := by
  have hspecial := h.special obj hobj
  have hstop := h.stop_le
  have hsize := h.size_le
  have hlt := h.length_lt
  have hrecord := h.record_le hobj
  simp only [baseTableSize] at hsize
  have hpos : (base + 64 + 8 * (obj + 2 ^ 64 - 2)) % 2 ^ 32 = base + 64 + 8 * (obj - 2) := by omega
  rw [getTable, hpos, load_eq (by omega), h.start obj hobj, ok_bind, Nat.mod_eq_of_lt (by omega)]
  rfl

lemma HoldsBase.getLastIblock_eq (h : HoldsBase b base t l) {obj : ℕ} (hobj : 0 < t.count obj) :
    getLastIblock b base obj = .ok (t.count obj - 1) := by
  have hspecial := h.special obj hobj
  have hstop := h.stop_le
  have hsize := h.size_le
  have hlt := h.length_lt
  simp only [baseTableSize] at hsize
  have hpos : (base + 24 + 8 * (obj + 2 ^ 64 - 2)) % 2 ^ 32 = base + 24 + 8 * (obj - 2) := by omega
  rw [getLastIblock, hpos, load_eq (by omega), h.last obj hobj]

/-- **One change.** -/
lemma HoldsBase.applyRecord (h : HoldsBase b base t l) (hc : HoldsChange b pos c)
    (hi : c.1.2 < t.count c.1.1) :
    ∃ b', applyRecord b base pos = .ok b' ∧
      HoldsBase b' base { t with block := Function.update t.block c.1 c.2 } l ∧
      SameBehind base l b b' := by
  have hle := hc.le_length
  have hrecord := h.record_le hi
  have hstop := h.stop_le
  have hlt := h.length_lt
  have hn : c.2 < 2 ^ 64 := by
    rw [← hc.metaIblock]
    exact field_lt b (pos + 16) 8
  simp only [extendedRecordSize] at hle
  refine ⟨_, ?_, h.write_block hi hn, sameBehind_write hstop (hrecord.trans (Nat.le_add_right _ _))⟩
  rw [Extractor.applyRecord, load_eq (by omega), load_eq (by omega), load_eq (by omega),
    hc.objectId, hc.tableIndex, hc.metaIblock, ok_bind, ok_bind, ok_bind,
    h.getTable_eq (by omega), h.getLastIblock_eq (by omega), ok_bind, ok_bind, if_neg (by omega),
    Nat.mod_eq_of_lt (by omega), store_eq (by omega)]

/-- **The changes of one table.** -/
lemma HoldsBase.applyRecords (h : HoldsBase b base t l) {cs : List ((ℕ × ℕ) × ℕ)}
    (hcs : ∀ i c, cs[i]? = some c → HoldsChange b (pos + extendedRecordSize * i) c)
    (hpos : base + l.stop + 4 ≤ pos) (hi : ∀ c ∈ cs, c.1.2 < t.count c.1.1) :
    ∃ b', applyRecords base cs.length b pos = .ok b' ∧
      HoldsBase b' base { t with block := replay t.block cs } l ∧ SameBehind base l b b' := by
  induction cs generalizing b t pos with
  | nil => exact ⟨b, rfl, h, .refl _ _ _⟩
  | cons c cs ih =>
      obtain ⟨b₁, hrun, h₁, hsame⟩ := h.applyRecord (hcs 0 c rfl) (hi c List.mem_cons_self)
      have hcs₁ : ∀ i c, cs[i]? = some c →
          HoldsChange b₁ (pos + extendedRecordSize + extendedRecordSize * i) c := by
        intro i c hc
        have := (hcs (i + 1) c hc).congr hsame (by omega)
        rwa [Nat.mul_succ, Nat.add_comm (extendedRecordSize * i), ← Nat.add_assoc] at this
      obtain ⟨b₂, hrun', h₂, hsame'⟩ := ih h₁ hcs₁ (hpos.trans (Nat.le_add_right _ _))
        (fun c hc => hi c (List.mem_cons_of_mem _ hc))
      refine ⟨b₂, ?_, h₂, hsame.trans hsame'⟩
      rw [List.length_cons, Extractor.applyRecords]
      have hpos₀ : pos + extendedRecordSize * 0 = pos := rfl
      rw [hpos₀] at hrun
      rw [hrun]
      exact hrun'

namespace HoldsExtension

lemma hasSignature (h : HoldsExtension b pos e) :
    hasSignature b pos extendedSignature = .ok true := by
  have hle := h.le_length
  simp only [extendedTableSize] at hle
  rw [hasSignature_eq (by omega), decide_eq_true h.signature]

lemma loadVersion (h : HoldsExtension b pos e) :
    loadVersion b pos = .ok (versionOf e.mountCount e.syncCount) := by
  have hle := h.le_length
  simp only [extendedTableSize] at hle
  rw [Extractor.loadVersion, load_eq (by omega), load_eq (by omega), h.mountCount, h.syncCount]
  rfl

end HoldsExtension

/-- **The tables of changes.**  The loop makes all the changes of the tables that are newer than the
one before. -/
lemma HoldsBase.extLoop (h : HoldsBase b base t l) {n : ℕ} {es : List Extension}
    (hes : Extensions b n pos (versionOf t.mountCount t.syncCount) es)
    (hpos : base + l.stop + 4 ≤ pos)
    (hi : ∀ e ∈ es, ∀ c ∈ e.changes, c.1.2 < t.count c.1.1) :
    ∃ b', extLoop base n b pos (versionOf t.mountCount t.syncCount) = .ok b' ∧
      HoldsBase b' base (es.foldl Translation.extend t) l := by
  induction n generalizing b t pos es with
  | zero =>
      cases hes with
      | full => exact ⟨b, rfl, h⟩
  | succ n ih =>
      rw [Extractor.extLoop]
      cases hes with
      | none hle hsignature =>
          refine ⟨b, ?_, h⟩
          rw [hasSignature_eq hle, decide_eq_false hsignature, ok_bind]
          rfl
      | @stale _ _ _ e he hstale =>
          refine ⟨b, ?_, h⟩
          rw [he.hasSignature, ok_bind, if_pos rfl, he.loadVersion, ok_bind,
            if_neg (Nat.not_lt.2 hstale)]
          rfl
      | @newer _ _ _ e es he hnewer hshort hrest =>
          obtain ⟨b₁, hrun, h₁, hsame⟩ := h.applyRecords he.change
            (hpos.trans (Nat.le_add_right _ _)) (hi e List.mem_cons_self)
          -- then the counts of the table are set
          have hsize := h.size_le
          have hlen₁ := hsame.length_eq ▸ h.stop_le
          have hle := he.le_length
          simp only [baseTableSize, extendedTableSize] at hsize hle
          have he₁ := he.congr hsame hpos
          have hsame₂ : SameBehind base l b₁ (write 0 b₁ (base + 8) (leBytes 8 e.mountCount)) :=
            sameBehind_write hlen₁ (by omega)
          have he₂ := he₁.congr hsame₂ hpos
          have hsame₃ : SameBehind base l (write 0 b₁ (base + 8) (leBytes 8 e.mountCount))
              (write 0 (write 0 b₁ (base + 8) (leBytes 8 e.mountCount)) (base + 4)
                (leBytes 4 e.syncCount)) :=
            sameBehind_write (hsame₂.length_eq ▸ hlen₁) (by omega)
          have he₃ := he₂.congr hsame₃ hpos
          have hm : e.mountCount < 2 ^ 64 := he.mountCount ▸ field_lt b (pos + 8) 8
          have hs : e.syncCount < 2 ^ 32 := he.syncCount ▸ field_lt b (pos + 4) 4
          have h₃ := h₁.write_version hm hs
          have hsame' := (hsame.trans hsame₂).trans hsame₃
          obtain ⟨b', hrun', h'⟩ := ih (t := t.extend e) h₃ (hrest.congr hsame' (by omega))
            (by omega) (fun e' he' => hi e' (List.mem_cons_of_mem _ he'))
          refine ⟨b', ?_, h'⟩
          rw [he.hasSignature, ok_bind, if_pos rfl, he.loadVersion, ok_bind, if_pos hnewer,
            load_eq (by omega), ok_bind, he.recordsCount, hrun, ok_bind,
            load_eq (by rw [hsame.length_eq]; omega), ok_bind, he₁.mountCount,
            store_eq (by rw [hsame.length_eq]; omega), ok_bind,
            load_eq (by rw [(hsame.trans hsame₂).length_eq]; omega), ok_bind, he₂.syncCount,
            store_eq (by rw [(hsame.trans hsame₂).length_eq]; omega), ok_bind,
            load_eq (by rw [hsame'.length_eq]; omega), ok_bind, he₃.checksumOffset,
            toNextTable_eq hshort]
          exact hrun'

end Change

/-! ### The current tables -/

/-- The checksum of the first base table. -/
def Checked (b : Bytes) (l : Layout) : Prop := field b l.stop 4 = vdfs4Crc32 (b.take l.stop)

instance (b : Bytes) (l : Layout) : Decidable (Checked b l) := inferInstanceAs (Decidable (_ = _))

/-- Of the two base tables, this one counts.  The first one has to be whole. -/
inductive Current (b : Bytes) : ℕ → Translation → Layout → Prop
  | alone {t : Translation} {l : Layout} (h : HoldsBase b 0 t l) (hchecked : Checked b l)
      (hsecond : slice b (b.length / 2) 4 ≠ baseSignature) : Current b 0 t l
  | first {t t' : Translation} {l l' : Layout} (h : HoldsBase b 0 t l) (hchecked : Checked b l)
      (h' : HoldsBase b (b.length / 2) t' l')
      (hversion : versionOf t'.mountCount t'.syncCount ≤ versionOf t.mountCount t.syncCount) :
      Current b 0 t l
  | second {t t' : Translation} {l l' : Layout} (h : HoldsBase b 0 t l) (hchecked : Checked b l)
      (h' : HoldsBase b (b.length / 2) t' l')
      (hversion : versionOf t.mountCount t.syncCount < versionOf t'.mountCount t'.syncCount) :
      Current b (b.length / 2) t' l'

/-- The memory is a base table and, from the next sector on, the tables of changes that are newer.
-/
structure Snapshot (b : Bytes) (base : ℕ) (t : Translation) (l : Layout) (es : List Extension) :
    Prop where
  current : Current b base t l
  short : ShortTable l.stop
  extensions : Extensions b snapshotExtTables (base + nextSector l.stop)
    (versionOf t.mountCount t.syncCount) es
  inRange : ∀ e ∈ es, ∀ c ∈ e.changes, c.1.2 < t.count c.1.1

section Current

variable {b : Bytes} {base : ℕ} {t : Translation} {l : Layout} {es : List Extension}

lemma Current.holdsBase (h : Current b base t l) : HoldsBase b base t l := by
  cases h with
  | alone h => exact h
  | first h => exact h
  | second _ _ h' => exact h'

namespace HoldsBase

lemma le_length (h : HoldsBase b base t l) : base + 104 ≤ b.length := by
  have hstop := h.stop_le
  have hsize := h.size_le
  simp only [baseTableSize] at hsize
  omega

lemma hasSignature (h : HoldsBase b base t l) : hasSignature b base baseSignature = .ok true := by
  rw [hasSignature_eq (by have := h.le_length; omega), decide_eq_true h.signature]

lemma loadVersion (h : HoldsBase b base t l) :
    loadVersion b base = .ok (versionOf t.mountCount t.syncCount) := by
  have hle := h.le_length
  rw [Extractor.loadVersion, load_eq (by omega), load_eq (by omega), h.mountCount, h.syncCount]
  rfl

end HoldsBase

lemma Translation.block_foldl (t : Translation) (es : List Extension) :
    (es.foldl Translation.extend t).block = replay t.block (es.flatMap Extension.changes) := by
  induction es generalizing t with
  | nil => rfl
  | cons e es ih =>
      rw [List.foldl_cons, ih, List.flatMap_cons, replay_append]
      rfl

lemma Translation.count_foldl (t : Translation) (es : List Extension) :
    (es.foldl Translation.extend t).count = t.count := by
  induction es generalizing t with
  | nil => rfl
  | cons e es ih =>
      rw [List.foldl_cons, ih]
      rfl

lemma HoldsBase.firstIsWhole (h : HoldsBase b 0 t l) (hchecked : Checked b l) :
    firstIsWhole b = .ok true := by
  have hle := h.le_length
  have hstop := h.stop_le
  have hlt := h.length_lt
  have hmod : l.stop % 2 ^ 32 = l.stop := Nat.mod_eq_of_lt (by omega)
  have hfield : field b 16 8 = l.stop := h.stop
  rw [Extractor.firstIsWhole, h.hasSignature, ok_bind, if_pos rfl, load_eq (by omega), ok_bind,
    hfield, hmod, load_eq (by omega), ok_bind]
  exact congrArg Except.ok (decide_eq_true hchecked)

lemma Current.firstIsWhole (h : Current b base t l) : firstIsWhole b = .ok true := by
  cases h with
  | alone h₁ hchecked => exact h₁.firstIsWhole hchecked
  | first h₁ hchecked => exact h₁.firstIsWhole hchecked
  | second h₁ hchecked => exact h₁.firstIsWhole hchecked

lemma Current.newerBase (h : Current b base t l) :
    newerBase b = .ok (base, versionOf t.mountCount t.syncCount) := by
  cases h with
  | alone h₁ _ hsecond =>
      have hle := h₁.le_length
      rw [Extractor.newerBase, h₁.loadVersion, ok_bind, hasSignature_eq (by omega),
        decide_eq_false hsecond]
      rfl
  | first h₁ _ h' hversion =>
      rw [Extractor.newerBase, h₁.loadVersion, ok_bind, h'.hasSignature, ok_bind, if_pos rfl,
        h'.loadVersion, ok_bind, if_neg (Nat.not_lt.2 hversion)]
      rfl
  | second h₁ _ h' hversion =>
      rw [Extractor.newerBase, h₁.loadVersion, ok_bind, h'.hasSignature, ok_bind, if_pos rfl,
        h'.loadVersion, ok_bind, if_pos hversion]
      rfl

/-- **The tables in memory.**  `fill_tables` makes of a base table and the changes to it the base
table that says where the nodes are now. -/
theorem parseTables_eq (h : Snapshot b base t l es) :
    ∃ b', parseTables b = .ok (some ⟨b', base⟩) ∧
      HoldsBase b' base (es.foldl Translation.extend t) l := by
  have hbase := h.current.holdsBase
  have hle := hbase.le_length
  have hnext := le_nextSector l.stop
  obtain ⟨b', hrun, h'⟩ := hbase.extLoop h.extensions (by omega) h.inRange
  refine ⟨b', ?_, h'⟩
  rw [parseTables, h.current.firstIsWhole, ok_bind, if_pos rfl, h.current.newerBase, ok_bind]
  dsimp only
  rw [load_eq (by omega), ok_bind, hbase.stop, toNextTable_eq h.short, hrun]
  rfl

end Current

/-! ### Finding the nodes -/

/-- The blocks of the metadata, one extent after the other. -/
def metaBlocks (extents : List MetaExtent) : List ℕ :=
  extents.flatMap fun e => List.range' e.begin e.length

/-- A block of the metadata is found by its number. -/
lemma metablockToIblock_eq {extents : List MetaExtent} {m n : ℕ} (total : ℕ)
    (hlt : ∀ e ∈ extents, e.length < 2 ^ 32) (h : (metaBlocks extents)[m]? = some n) :
    metablockToIblock (total + m) total extents = n % 2 ^ 32 := by
  induction extents generalizing total m with
  | nil => cases h
  | cons e extents ih =>
      obtain ⟨he, hlt⟩ := List.forall_mem_cons.1 hlt
      rw [metaBlocks, List.flatMap_cons] at h
      rw [metablockToIblock, Nat.mod_eq_of_lt he]
      by_cases hm : m < e.length
      · rw [List.getElem?_append_left (by rwa [List.length_range']),
          List.getElem?_range' hm, Option.some.injEq] at h
        rw [if_pos (by omega), ← h]
        congr 1
        omega
      · rw [List.getElem?_append_right (by rw [List.length_range']; omega), List.length_range'] at h
        rw [if_neg (by omega), ← ih (total + e.length) hlt h]
        congr 1
        omega

section Nodes

variable (img : Image) (sb : SbInfo)

/-- `node_size_bytes` -/
def nodeSize : ℕ := 2 ^ sb.logBlocksInLeb * img.blockSize

/-- What has been written for a node last is at this place of the metadata. -/
def newestBlock (t : Translation) (es : List Extension) (node : ℕ × ℕ) : ℕ :=
  (latest (es.flatMap Extension.changes) node).getD (t.block node)

/-- A node of a tree lies at a block of the image. -/
structure NodeAt (n : ℕ) (data : Bytes) : Prop where
  n_lt : n < 2 ^ 32
  le_length : n * img.blockSize + nodeSize img sb ≤ img.data.length
  data_eq : slice img.data (n * img.blockSize) (nodeSize img sb) = data
  magic : slice data 0 2 ∈ bnodeMagics

/-- The tables of the image, as they are read, are this memory, and the extents of the metadata have
lengths of 32 bits. -/
structure TablesAt (b : Bytes) : Prop where
  length_pos : 0 < sb.tables.length
  le_length : sb.tables.begin * img.blockSize + sb.tables.length * img.blockSize ≤ img.data.length
  data_eq : slice img.data (sb.tables.begin * img.blockSize) (sb.tables.length * img.blockSize) = b
  extents : ∀ e ∈ sb.metaExtents, e.length < 2 ^ 32

/-- **Nodes are found.**  `fill_tables` succeeds, and then `vdfs4_get_bnode_from_vol` returns for
each node of a tree what lies at the block that was written for it last. -/
def FindsNodes (t : Translation) (es : List Extension) : Prop :=
  ∀ fresh : Bytes, fresh.length = sb.tables.length * img.blockSize →
    ∃ tables, fillTables img sb fresh .whole = .ok (some tables) ∧
      ∀ treeIno nodeId n data, nodeId < t.count treeIno →
        (metaBlocks sb.metaExtents)[newestBlock t es (treeIno, nodeId)]? = some n →
        NodeAt img sb n data → ∀ fresh : Bytes, fresh.length = nodeSize img sb →
        getBnodeFromVol img sb (some tables) treeIno fresh .whole nodeId = .ok ⟨nodeId, data⟩

variable {img sb}

/-- A read that goes well, of blocks that lie in the image. -/
lemma readBlocks_whole {n count : ℕ} {fresh : Bytes} (hcount : 0 < count)
    (hle : n * img.blockSize + count * img.blockSize ≤ img.data.length)
    (hfresh : fresh.length = count * img.blockSize) : img.readBlocks n fresh count .whole =
      some (0, slice img.data (n * img.blockSize) (count * img.blockSize)) := by
  have hpos : 0 < count * img.blockSize := Nat.mul_pos hcount img.blockSize_pos
  have hlt := img.length_data_lt
  have hmod : n * img.blockSize % 2 ^ 64 = n * img.blockSize := Nat.mod_eq_of_lt (by omega)
  rw [Image.readBlocks, if_neg hcount.ne']
  dsimp only
  rw [hmod, if_neg (by omega)]
  have hlen : (slice img.data (n * img.blockSize) (count * img.blockSize)).length =
      fresh.length := by rw [length_slice hle, hfresh]
  change some (0, slice img.data (n * img.blockSize) (count * img.blockSize) ++ fresh.drop _) = _
  rw [← slice, hlen, List.drop_length, List.append_nil]

variable {b : Bytes} {base : ℕ} {t : Translation} {l : Layout} {es : List Extension}

/-- A node is found through a base table. -/
lemma HoldsBase.getBnodeFromVol (h : HoldsBase b base t l) {treeIno nodeId n : ℕ}
    {data fresh : Bytes} (hextents : ∀ e ∈ sb.metaExtents, e.length < 2 ^ 32)
    (hid : nodeId < t.count treeIno)
    (hn : (metaBlocks sb.metaExtents)[t.block (treeIno, nodeId)]? = some n)
    (hdata : NodeAt img sb n data) (hfresh : fresh.length = nodeSize img sb) :
    getBnodeFromVol img sb (some ⟨b, base⟩) treeIno fresh .whole nodeId = .ok ⟨nodeId, data⟩ := by
  have hrecord := h.record_le hid
  have hstop := h.stop_le
  have hlt := h.length_lt
  have hblock := metablockToIblock_eq 0 hextents hn
  rw [Nat.zero_add, Nat.mod_eq_of_lt hdata.n_lt] at hblock
  rw [Extractor.getBnodeFromVol]
  dsimp only
  rw [h.getTable_eq (by omega), ok_bind, Nat.mod_eq_of_lt (by omega), load_eq (by omega), ok_bind,
    h.block _ _ hid, hblock,
    readBlocks_whole (Nat.two_pow_pos _) hdata.le_length hfresh]
  dsimp only
  rw [if_neg (not_not.2 rfl)]
  have hslice := hdata.data_eq
  rw [nodeSize] at hslice
  rw [hslice, if_pos hdata.magic]

/-- The trees of an image, through its tables. -/
lemma findsNodes_of_snapshot (hb : TablesAt img sb b) (h : Snapshot b base t l es) :
    FindsNodes img sb t es := by
  intro fresh hfresh
  obtain ⟨b', hrun, h'⟩ := parseTables_eq h
  refine ⟨⟨b', base⟩, ?_, ?_⟩
  · rw [fillTables, readBlocks_whole hb.length_pos hb.le_length hfresh, hb.data_eq]
    exact hrun
  · intro treeIno nodeId n data hid hn hdata fresh hfresh
    refine h'.getBnodeFromVol hb.extents ?_ ?_ hdata hfresh
    · rwa [Translation.count_foldl]
    · rwa [Translation.block_foldl, replay_apply]

/-- **Finding a node.**  For every image whose tables stand for a base table and changes to it, each
node of a tree is read from the block that was written for it last. -/
theorem findsNodes_fillTables (img : Image) (sb : SbInfo) {b : Bytes} {base : ℕ} {t : Translation}
    {l : Layout} {es : List Extension} (hb : TablesAt img sb b) (h : Snapshot b base t l es) :
    FindsNodes img sb t es :=
  findsNodes_of_snapshot hb h

end Nodes

/-! ### A node that has moved -/

/-- A base table with one node of the catalog tree, in the first block of the metadata. -/
def movedBase : Bytes :=
  let table := baseSignature ++ leBytes 4 1 ++ leBytes 8 0 ++ leBytes 8 120 ++
    List.replicate 40 0 ++ leBytes 8 104 ++ List.replicate 32 0 ++
    leBytes 8 0 ++ leBytes 4 1 ++ leBytes 4 0
  table ++ leBytes 4 (vdfs4Crc32 table)

/-- The node has been written anew, into the second block. -/
def movedExtension : Extension := ⟨0, 2, 56, [((2, 0), 1)]⟩

/-- The three blocks with the tables. -/
def movedTables : Bytes :=
  (movedBase.rightpad 512 0 ++
    (extendedSignature ++ leBytes 4 2 ++ leBytes 8 0 ++ leBytes 8 56 ++ leBytes 4 1 ++
      leBytes 4 0 ++ leBytes 8 2 ++ leBytes 8 0 ++ leBytes 8 1)).rightpad 1536 0

/-- The image: the tables, and the two blocks of the metadata. -/
def movedImage : Image where
  catalog := []
  blockSize := 512
  data := movedTables ++ List.replicate 512 0 ++ ([78, 100] : Bytes).rightpad 512 0
  decodeFile _ := (0, [])
  authenticated _ := false
  sorted := List.Pairwise.nil
  blockSize_pos := by decide
  length_data_lt := by decide +kernel

def movedSbInfo : SbInfo := ⟨0, ⟨0, 3⟩, [⟨3, 2⟩]⟩

def movedTranslation : Translation := ⟨0, 1, fun obj => if obj = 2 then 1 else 0, fun _ => 0⟩

def movedLayout : Layout := ⟨fun _ => 104, 120⟩

lemma movedTranslation_count {obj : ℕ} (h : 0 < movedTranslation.count obj) : obj = 2 := by
  by_contra hne
  simp [movedTranslation, hne] at h

lemma movedTables_base : HoldsBase movedTables 0 movedTranslation movedLayout where
  signature := by decide +kernel
  mountCount := by decide +kernel
  syncCount := by decide +kernel
  stop := by decide +kernel
  size_le := by decide
  stop_le := by decide +kernel
  length_lt := by decide +kernel
  special obj hobj := by
    rw [movedTranslation_count hobj]
    decide
  last obj hobj := by
    obtain rfl := movedTranslation_count hobj
    decide +kernel
  start obj hobj := by
    obtain rfl := movedTranslation_count hobj
    decide +kernel
  within obj hobj := by
    obtain rfl := movedTranslation_count hobj
    decide
  apart obj obj' hne hobj hobj' :=
    absurd ((movedTranslation_count hobj).trans (movedTranslation_count hobj').symm) hne
  block obj i hi := by
    obtain rfl := movedTranslation_count (Nat.zero_lt_of_lt hi)
    obtain rfl : i = 0 := Nat.lt_one_iff.1 hi
    decide +kernel

lemma movedTables_extension : HoldsExtension movedTables 512 movedExtension where
  signature := by decide +kernel
  mountCount := by decide +kernel
  syncCount := by decide +kernel
  checksumOffset := by decide +kernel
  recordsCount := by decide +kernel
  le_length := by decide +kernel
  change i c hc := by
    cases i with
    | zero =>
        obtain rfl : ((2, 0), 1) = c := Option.some.inj hc
        exact ⟨by decide +kernel, by decide +kernel, by decide +kernel, by decide +kernel⟩
    | succ i => cases hc

lemma movedTables_snapshot :
    Snapshot movedTables 0 movedTranslation movedLayout [movedExtension] where
  current := .alone movedTables_base (by decide +kernel) (by decide +kernel)
  short := by decide
  extensions := .newer movedTables_extension (by decide) (by decide)
    (.none (by decide +kernel) (by decide +kernel))
  inRange e he c hc := by
    obtain rfl := List.mem_singleton.1 he
    obtain rfl := List.mem_singleton.1 hc
    decide

theorem findsNodes_movedImage :
    newestBlock movedTranslation [movedExtension] (2, 0) = 1 ∧
      FindsNodes movedImage movedSbInfo movedTranslation [movedExtension] :=
  ⟨by decide, findsNodes_fillTables movedImage movedSbInfo
    ⟨by decide, by decide +kernel, by decide +kernel, by decide⟩ movedTables_snapshot⟩

end SamsungTVVoices.Extractor
