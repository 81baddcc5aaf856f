/-
The catalog as a tree of bytes (`vdfs4_layout.h` and `cattree.c`).

The layout of a record is read off its bytes, and the comparison function is shown to order the
keys.  The functions that look up an object then do on the bytes what `Image` says of the list of
the records: going on from the first child of a folder gives the records behind its key
(`readsChildren`), and the record of a parent and a name is the one that `CatalogTree.lookup` names
(`cattreeFind_eq`), which for an object is `Image.cattreeFind`.
-/
import SamsungTVVoices.Extractor.Btree
import Mathlib.Data.List.Find
import Mathlib.Data.List.Lex
import Mathlib.Data.List.TakeWhile
import Mathlib.Data.Prod.Lex

open FixedDigits

namespace SamsungTVVoices.Extractor

/-! ### Records of the catalog -/

namespace CatRecord

variable (record : Bytes)

/-- The fields of `struct vdfs4_cattree_key`. -/
def keyLen : ℕ := field record 4 2

def parentId : ℕ := field record 8 8

def objectId : ℕ := field record 16 8

def recordTypeCode : ℕ := field record 24 1

def nameLen : ℕ := field record 25 1

/-- The name; bytes behind the end of the node are taken for zeros. -/
def name : Bytes := (record.drop 26 ++ List.replicate (nameLen record) 0).take (nameLen record)

/-- What lies behind the key. -/
def value : Bytes := record.drop (keyLen record)

/-- `record_type` -/
def recordType : Option RecordType :=
  match recordTypeCode record with
  | 0 => some .dummy
  | 1 => some .folder
  | 2 => some .file
  | 3 => some .hlink
  | 4 => some .dlink
  | 5 => some .ilink
  | _ => none

/-- `struct vdfs4_iextent` -/
def iextent (v : Bytes) (offset : ℕ) : Extent where
  begin := field v offset 8
  length := field v (offset + 8) 8
  iblock := field v (offset + 16) 8

/-- The record that the bytes stand for: the key, then `struct vdfs4_catalog_folder_record` and the
fork or the link that lies behind it. -/
def decode : Option Record :=
  (recordType record).map fun type =>
    let v := value record
    { parentId := parentId record
      objectId := objectId record
      name := name record
      recordType := type
      fileMode := field v 32 2
      flags := field v 0 4
      totalItemsCount := field v 8 8
      sizeInBytes := field v 80 8
      totalBlocksCount := field v 88 8
      extents := (List.range 9).map fun i => iextent v (96 + 24 * i)
      dataInode := field v 80 8
      dataOffset := field v 88 8
      dataLength := field v 96 8 }

@[simp] lemma length_name : (name record).length = nameLen record := by
  simp [name]

end CatRecord

/-! ### The order of the catalog -/

/-- `memcmp` of two buffers of the same length. -/
def memcmp : Bytes → Bytes → ℤ
  | x :: a, y :: b => if x = y then memcmp a b else (x.toNat : ℤ) - y.toNat
  | _, _ => 0

/-- The comparison of names: the common length first, then the lengths. -/
def nameCmp (a b : Bytes) : ℤ :=
  let len := min a.length b.length
  let ret := memcmp (a.take len) (b.take len)
  if ret ≠ 0 then ret else (a.length : ℤ) - b.length

/-- `vdfs4_cattree_cmpfn` -/
def cattreeCmpfn (r s : Bytes) : ℤ :=
  if CatRecord.parentId r < CatRecord.parentId s then -1
  else if CatRecord.parentId s < CatRecord.parentId r then 1
  else if nameCmp (CatRecord.name r) (CatRecord.name s) ≠ 0 then
    nameCmp (CatRecord.name r) (CatRecord.name s)
  else if CatRecord.objectId r < CatRecord.objectId s then -1
  else if CatRecord.objectId s < CatRecord.objectId r then 1
  else 0

/-- Keys of the catalog in their order. -/
abbrev CatKey := ℕ ×ₗ List ℕ ×ₗ ℕ

/-- The key with this parent, name and object. -/
def catKey (parentId : ℕ) (name : Bytes) (objectId : ℕ) : CatKey :=
  toLex (parentId, toLex (name.map UInt8.toNat, objectId))

/-- The key of a record. -/
def CatRecord.key (record : Bytes) : CatKey :=
  catKey (parentId record) (name record) (objectId record)

lemma catKey_lt_iff {p p' o o' : ℕ} {nm nm' : Bytes} : catKey p nm o < catKey p' nm' o' ↔
    p < p' ∨ p = p' ∧ (nm.map UInt8.toNat < nm'.map UInt8.toNat ∨ nm = nm' ∧ o < o') := by
  have hinj : nm.map UInt8.toNat = nm'.map UInt8.toNat ↔ nm = nm' :=
    (List.map_injective_iff.2 fun _ _ h => UInt8.toNat_inj.1 h).eq_iff
  rw [catKey, catKey, Prod.Lex.toLex_lt_toLex, Prod.Lex.toLex_lt_toLex, hinj]

lemma catKey_inj {p p' o o' : ℕ} {nm nm' : Bytes} :
    catKey p nm o = catKey p' nm' o' ↔ p = p' ∧ nm = nm' ∧ o = o' := by
  have hinj : nm.map UInt8.toNat = nm'.map UInt8.toNat ↔ nm = nm' :=
    (List.map_injective_iff.2 fun _ _ h => UInt8.toNat_inj.1 h).eq_iff
  simp only [catKey, toLex_inj, Prod.mk.injEq, hinj]

lemma nameCmp_cons (x y : UInt8) (a b : Bytes) : nameCmp (x :: a) (y :: b) =
    if x = y then nameCmp a b else (x.toNat : ℤ) - y.toNat := by
  have hmin : min (x :: a).length (y :: b).length = min a.length b.length + 1 := by
    simp only [List.length_cons]
    omega
  unfold nameCmp
  dsimp only
  rw [hmin, List.take_succ_cons, List.take_succ_cons, memcmp]
  by_cases hxy : x = y
  · simp [hxy]
  · have hne : (x.toNat : ℤ) - y.toNat ≠ 0 := by
      intro h
      exact hxy (UInt8.toNat_inj.1 (by omega))
    simp [hxy, hne]

/-- The names are compared byte by byte, a name that another one begins with coming first. -/
lemma nameCmp_spec (a b : Bytes) : (nameCmp a b = 0 ↔ a = b) ∧
    (nameCmp a b < 0 ↔ a.map UInt8.toNat < b.map UInt8.toNat) := by
  induction a generalizing b with
  | nil =>
      cases b with
      | nil => simp [nameCmp, memcmp]
      | cons y b =>
          have hlt : ([] : List ℕ) < (y :: b).map UInt8.toNat := List.nil_lt_cons ..
          have hval : nameCmp [] (y :: b) = -((b.length : ℤ) + 1) := by simp [nameCmp, memcmp]
          rw [hval]
          simp only [List.map_nil, hlt, iff_true, reduceCtorEq, iff_false]
          omega
  | cons x a ih =>
      cases b with
      | nil =>
          have hlt : ¬ (x :: a).map UInt8.toNat < [] := List.not_lt_nil _
          have hval : nameCmp (x :: a) [] = (a.length : ℤ) + 1 := by simp [nameCmp, memcmp]
          rw [hval]
          simp only [List.map_nil, hlt, iff_false, reduceCtorEq]
          omega
      | cons y b =>
          rw [nameCmp_cons, List.map_cons, List.map_cons, List.cons_lt_cons_iff, List.cons.injEq]
          by_cases hxy : x = y
          · rw [if_pos hxy, (ih b).1, (ih b).2, hxy]
            simp
          · have hne : x.toNat ≠ y.toNat := fun h => hxy (UInt8.toNat_inj.1 h)
            rw [if_neg hxy]
            simp only [hxy, hne, false_and, or_false, iff_false]
            omega

/-- The comparison function of the catalog compares keys. -/
theorem compares_cattreeCmpfn : Compares cattreeCmpfn CatRecord.key := by
  constructor
  · intro r s
    obtain ⟨hzero, -⟩ := nameCmp_spec (CatRecord.name r) (CatRecord.name s)
    unfold cattreeCmpfn CatRecord.key
    rw [catKey_inj, ← hzero]
    constructor
    · intro h
      split_ifs at h <;> omega
    · intro h
      rw [if_neg (by omega), if_neg (by omega), if_neg (by omega), if_neg (by omega),
        if_neg (by omega)]
  · intro r s
    obtain ⟨hzero, hneg⟩ := nameCmp_spec (CatRecord.name r) (CatRecord.name s)
    unfold cattreeCmpfn CatRecord.key
    rw [catKey_lt_iff, ← hzero, ← hneg]
    split_ifs <;> omega

/-! ### Looking up objects -/

/-- A key to look for: `struct vdfs4_cattree_key` with everything else zero. -/
def cattreeKey (objectId parentId : ℕ) (name : Bytes) : Bytes :=
  List.replicate 8 0 ++ leBytes 8 parentId ++ leBytes 8 objectId ++ [0] ++
    leBytes 1 name.length ++ name

/-- `vdfs4_cattree_is_orphan` -/
def CatRecord.isOrphan (record : Bytes) : Bool :=
  match recordTypeCode record with
  | 1 | 2 | 4 => (field (value record) 0 4).testBit orphanInode
  | _ => false

/-- `GREATEST_AVAIL_ID` -/
def greatestAvailId : ℕ := 2 ^ 64 - 1

namespace Btree

variable (t : Btree)

/-- `vdfs4_cattree_get_first_child` -/
def cattreeGetFirstChild (fuel catalogId : ℕ) : Except TreeError RecordInfo := do
  let record ← t.find fuel (cattreeKey 0 catalogId [])
  t.getNextRecord record

/-- What a loop over `vdfs4_cattree_get_next_record` from the first child on sees, until a record has
another parent. -/
def childrenOf (fuel ino : ℕ) : List Bytes :=
  match t.cattreeGetFirstChild fuel ino with
  | .ok first => (first.record :: t.following fuel first).takeWhile fun record =>
      CatRecord.parentId record = ino
  | .error _ => []

/-- The record has this parent and this name: the comparison with a key that has its own object. -/
def isNamed (record : Bytes) (parentId : ℕ) (name : Bytes) : Bool :=
  t.compFn record (cattreeKey (CatRecord.objectId record) parentId name) = 0

/-- The loop of `vdfs4_cattree_find` over orphans. -/
def nextNamed (parentId : ℕ) (name : Bytes) : ℕ → RecordInfo → Except TreeError RecordInfo
  | 0, _ => .error .endless
  | fuel + 1, record => do
    let next ← t.getNextRecord record
    if !t.isNamed next.record parentId name then .error (.errno (-enoent))
    else if CatRecord.isOrphan next.record then nextNamed parentId name fuel next
    else .ok next

/-- `vdfs4_cattree_find` -/
def cattreeFind (fuel parentId : ℕ) (name : Bytes) : Except TreeError RecordInfo := do
  -- the last record with the key (parent, name, _)
  let record ← t.find fuel (cattreeKey greatestAvailId parentId name)
  if !t.isNamed record.record parentId name then .error (.errno (-enoent))
  else if !CatRecord.isOrphan record.record then .ok record
  else do
    -- the one before the first record with the key
    let record ← t.find fuel (cattreeKey 0 parentId name)
    t.nextNamed parentId name fuel record

end Btree

/-! ### The bytes of a key -/

/-- A number is read where it was written. -/
lemma field_eq (front rest : Bytes) {d : Bytes} {offset n x : ℕ}
    (hd : d = front ++ (leBytes n x ++ rest)) (hoffset : front.length = offset)
    (hx : x < 256 ^ n) : field d offset n = x := by
  rw [field, hd, List.drop_left' hoffset, List.take_left' (length_leBytes n x), ofLeBytes_leBytes,
    Nat.mod_eq_of_lt hx]

lemma field_lt (d : Bytes) (offset n : ℕ) : field d offset n < 256 ^ n := by
  have hlt : ofLeBytes ((d.drop offset).take n) < 256 ^ ((d.drop offset).take n).length := by
    rw [ofLeBytes]
    refine (Nat.ofDigits_lt_base_pow_length' ?_).trans_eq (by rw [List.length_map])
    intro b hb
    obtain ⟨c, -, rfl⟩ := List.mem_map.1 hb
    exact c.toNat_lt
  exact hlt.trans_le (Nat.pow_le_pow_right (by decide) (List.length_take_le _ _))

/-- A key is read as the numbers and the name that it was made of. -/
lemma key_cattreeKey {objectId parentId : ℕ} (name : Bytes) (ho : objectId < 2 ^ 64)
    (hp : parentId < 2 ^ 64) (hname : name.length < 256) :
    CatRecord.key (cattreeKey objectId parentId name) = catKey parentId name objectId := by
  have hparent : CatRecord.parentId (cattreeKey objectId parentId name) = parentId :=
    field_eq (List.replicate 8 0) (leBytes 8 objectId ++ [0] ++ leBytes 1 name.length ++ name)
      (by simp only [cattreeKey, List.append_assoc]) List.length_replicate hp
  have hobject : CatRecord.objectId (cattreeKey objectId parentId name) = objectId :=
    field_eq (List.replicate 8 0 ++ leBytes 8 parentId) ([0] ++ leBytes 1 name.length ++ name)
      (by simp only [cattreeKey, List.append_assoc]) (by simp) ho
  have hlen : CatRecord.nameLen (cattreeKey objectId parentId name) = name.length :=
    field_eq (List.replicate 8 0 ++ leBytes 8 parentId ++ leBytes 8 objectId ++ [0]) name
      (by simp only [cattreeKey, List.append_assoc]) (by simp) hname
  have hbytes : CatRecord.name (cattreeKey objectId parentId name) = name := by
    rw [CatRecord.name, hlen, cattreeKey]
    rw [List.drop_left' (by simp), List.take_left]
  rw [CatRecord.key, hparent, hobject, hbytes]

/-! ### The catalog as a list -/

/-- The key of a record of the list. -/
def Record.key (r : Record) : CatKey := catKey r.parentId r.name r.objectId

namespace CatRecord

variable {record : Bytes} {r : Record}

lemma key_of_decode (h : decode record = some r) : key record = r.key := by
  obtain ⟨type, -, rfl⟩ := Option.map_eq_some_iff.1 h
  rfl

lemma objectId_lt (record : Bytes) : objectId record < 2 ^ 64 := field_lt record 16 8

lemma isOrphan_of_decode (h : decode record = some r) : isOrphan record = Image.isOrphan r := by
  obtain ⟨type, htype, rfl⟩ := Option.map_eq_some_iff.1 h
  unfold recordType at htype
  unfold isOrphan Image.isOrphan Record.hasFlag
  split at htype <;> cases htype <;> simp_all

end CatRecord

/-- The tree holds the records of the list.  The first one is that of the root folder, whose parent
is `VDFS4_ROOTDIR_OBJ_ID`. -/
structure CatalogTree (t : Btree) (leaves : List Btree.Node) (catalog : List Record) : Prop
    extends t.Stores CatRecord.key CatRecord.decode Record.key leaves catalog where
  root : ∀ r ∈ catalog.head?, r.parentId = 0

namespace CatalogTree

variable {t : Btree} {leaves : List Btree.Node} {catalog : List Record} {index : ℕ} {r : Record}
  {info : RecordInfo} {ino : ℕ} {name : Bytes}

/-- The numbers of the parents are in the order that an image has them in. -/
theorem pairwise_parentId (h : CatalogTree t leaves catalog) :
    catalog.Pairwise fun a b => a.parentId ≤ b.parentId := by
  refine h.ascending.imp fun {a b} hab => ?_
  rcases catKey_lt_iff.1 hab with hlt | ⟨heq, -⟩
  · exact hlt.le
  · exact heq.le

/-- No key of an object below the root folder is before the first record. -/
lemma head_le (h : CatalogTree t leaves catalog) (hino : 0 < ino) (name : Bytes) (o : ℕ) :
    ∀ r ∈ catalog.head?, r.key ≤ catKey ino name o := by
  intro r hr
  refine (catKey_lt_iff.2 (Or.inl ?_)).le
  rw [h.root r hr]
  exact hino

lemma key_le_iff {o : ℕ} : r.key ≤ catKey ino name o ↔
    r.parentId < ino ∨ r.parentId = ino ∧
      (r.name.map UInt8.toNat < name.map UInt8.toNat ∨ r.name = name ∧ r.objectId ≤ o) := by
  rw [le_iff_lt_or_eq, Record.key, catKey_lt_iff, catKey_inj]
  constructor
  · rintro ((hlt | ⟨hparent, hname | ⟨hname, hlt⟩⟩) | ⟨hparent, hname, heq⟩)
    · exact Or.inl hlt
    · exact Or.inr ⟨hparent, Or.inl hname⟩
    · exact Or.inr ⟨hparent, Or.inr ⟨hname, hlt.le⟩⟩
    · exact Or.inr ⟨hparent, Or.inr ⟨hname, heq.le⟩⟩
  · rintro (hlt | ⟨hparent, hname | ⟨hname, hle⟩⟩)
    · exact Or.inl (Or.inl hlt)
    · exact Or.inl (Or.inr ⟨hparent, Or.inl hname⟩)
    · rcases hle.lt_or_eq with hlt | heq
      · exact Or.inl (Or.inr ⟨hparent, Or.inr ⟨hname, hlt⟩⟩)
      · exact Or.inr ⟨hparent, hname, heq⟩

/-- No name is before the empty one. -/
lemma key_le_nil_iff {o : ℕ} : r.key ≤ catKey ino [] o ↔
    r.parentId < ino ∨ r.parentId = ino ∧ r.name = [] ∧ r.objectId ≤ o := by
  have hnil : ¬ r.name.map UInt8.toNat < ([] : Bytes).map UInt8.toNat := List.not_lt_nil _
  rw [key_le_iff, or_iff_right hnil]

end CatalogTree

/-! ### The children of a folder -/

namespace CatalogTree

variable {t : Btree} {leaves : List Btree.Node} {img : Image} {index : ℕ} {r : Record}
  {info : RecordInfo} {ino : ℕ} {name : Bytes}

/-- The records that are not behind the key of an object are those that `Image.children` drops. -/
lemma not_after_iff : (!Image.after ino r) = decide (r.key ≤ catKey ino [] 0) := by
  rw [Bool.eq_iff_iff, decide_eq_true_iff, key_le_nil_iff]
  simp only [Image.after, Bool.not_eq_true', Bool.or_eq_false_iff, Bool.and_eq_false_iff,
    decide_eq_false_iff_not, not_lt, not_not]
  by_cases hname : r.name = []
  · simp only [hname, true_and]
    omega
  · simp only [hname, false_and, and_false, or_false]
    omega

/-- The first child of an object and the records that follow it in the tree are those that the list
of the records gives, and there is an error only if there are none. -/
def ReadsChildren (t : Btree) (img : Image) (ino : ℕ) : Prop :=
  ∃ steps, ∀ fuel, steps ≤ fuel →
    match t.cattreeGetFirstChild fuel ino with
    | .ok first => (first.record :: t.following fuel first).map CatRecord.decode =
        (img.children ino).map some
    | .error e => e = .errno (-enoent) ∧ img.children ino = []

/-- The children of a folder. -/
lemma childrenRead (h : CatalogTree t leaves img.catalog) (hino : 0 < ino) (hlt : ino < 2 ^ 64) :
    ReadsChildren t img ino := by
  have hkey : CatRecord.key (cattreeKey 0 ino []) = catKey ino [] 0 :=
    key_cattreeKey [] (by norm_num) hlt (by norm_num)
  obtain ⟨steps, index, info, r, hpred, hat, hr, hdecode, hrun⟩ :=
    h.find (cattreeKey 0 ino []) (by rw [hkey]; exact h.head_le hino [] 0)
  have hchildren : img.children ino = img.catalog.drop (index + 1) := by
    rw [hkey] at hpred
    rw [hpred.drop_eq h.ascending, Image.children]
    simp only [not_after_iff]
  refine ⟨max steps img.catalog.length, fun fuel hfuel => ?_⟩
  have hfind := hrun fuel (le_of_max_le_left hfuel)
  have hlength : img.catalog.length ≤ fuel := le_of_max_le_right hfuel
  rcases h.getNextRecord hat with ⟨first, r', hnext, hr', hdecode', hat'⟩ | ⟨hnext, hnil⟩
  · have hfirst : t.cattreeGetFirstChild fuel ino = .ok first := by
      rw [Btree.cattreeGetFirstChild, hfind]
      exact hnext
    have hdrop : img.catalog.drop (index + 1) = r' :: img.catalog.drop (index + 1 + 1) := by
      obtain ⟨hlt', hget⟩ := List.getElem?_eq_some_iff.1 hr'
      rw [List.drop_eq_getElem_cons hlt', hget]
    rw [hfirst]
    dsimp only
    rw [List.map_cons, hdecode', h.map_following hat' (by omega), hchildren, hdrop, List.map_cons]
  · have hfirst : t.cattreeGetFirstChild fuel ino = .error (.errno (-enoent)) := by
      rw [Btree.cattreeGetFirstChild, hfind]
      exact hnext
    rw [hfirst]
    exact ⟨rfl, hchildren.trans hnil⟩

/-- The records with this parent that lie behind the key of the folder, by which the search for the
first child begins. -/
def folderRecords (img : Image) (ino : ℕ) : List Record :=
  img.catalog.filter fun r => r.parentId = ino && Image.after ino r

/-- The records of one parent are the first of those behind its key. -/
lemma takeWhile_children (h : CatalogTree t leaves img.catalog) (ino : ℕ) :
    (img.children ino).takeWhile (·.parentId = ino) = folderRecords img ino := by
  have hchildren : img.children ino = img.catalog.filter (Image.after ino) := by
    have hdrop := h.ascending.dropWhile_eq_filter (catKey ino [] 0)
    have hafter : ∀ r : Record, decide (catKey ino [] 0 < r.key) = Image.after ino r := by
      intro r
      rw [← Bool.not_inj_iff, not_after_iff]
      by_cases hle : r.key ≤ catKey ino [] 0
      · simp [hle]
      · simp [hle, not_le.1 hle]
    rw [Image.children]
    simp only [not_after_iff, hdrop, hafter]
  have hsame : (img.children ino).Pairwise fun a b =>
      decide (b.parentId = ino) → decide (a.parentId = ino) := by
    refine (img.sorted.sublist (List.dropWhile_sublist _)).imp_of_mem fun {a b} ha _ hab hb => ?_
    have hle := img.le_parentId_of_mem_children ha
    rw [decide_eq_true_iff] at hb ⊢
    omega
  rw [← filter_eq_takeWhile hsame, hchildren, List.filter_filter]
  rfl

/-- The loop from the first child on, as long as the parent is the folder, sees the records of the
folder in the order of their keys, each of them once. -/
def ListsFolder (t : Btree) (img : Image) (ino : ℕ) : Prop :=
  (∃ steps, ∀ fuel, steps ≤ fuel →
    (t.childrenOf fuel ino).map CatRecord.decode = (folderRecords img ino).map some) ∧
  Ascending Record.key (folderRecords img ino)

lemma map_takeWhile_decode (ino : ℕ) {records : List Bytes} {rs : List Record}
    (h : records.map CatRecord.decode = rs.map some) :
    (records.takeWhile fun record => CatRecord.parentId record = ino).map CatRecord.decode =
      (rs.takeWhile (·.parentId = ino)).map some := by
  induction records generalizing rs with
  | nil =>
      obtain rfl : rs = [] := by simpa using h.symm
      rfl
  | cons record records ih =>
      cases rs with
      | nil => cases h
      | cons r rs =>
          obtain ⟨hr, hrest⟩ := List.cons.inj h
          have hparent : CatRecord.parentId record = r.parentId := by
            obtain ⟨type, -, rfl⟩ := Option.map_eq_some_iff.1 hr
            rfl
          by_cases heq : r.parentId = ino
          · rw [List.takeWhile_cons_of_pos (by simpa [hparent] using heq),
              List.takeWhile_cons_of_pos (by simpa using heq), List.map_cons, List.map_cons, hr,
              ih hrest]
          · rw [List.takeWhile_cons_of_neg (by simpa [hparent] using heq),
              List.takeWhile_cons_of_neg (by simpa using heq)]
            rfl

/-- **Children.**  On a tree that holds the catalog, however its nodes are split and linked, going on
from the first child of a folder gives the records behind its key, first those of the folder. -/
theorem readsChildren (h : CatalogTree t leaves img.catalog) (hino : 0 < ino) (hlt : ino < 2 ^ 64) :
    ReadsChildren t img ino ∧ ListsFolder t img ino := by
  have hreads := h.childrenRead hino hlt
  refine ⟨hreads, ?_, h.ascending.sublist List.filter_sublist⟩
  obtain ⟨steps, hrun⟩ := hreads
  refine ⟨steps, fun fuel hfuel => ?_⟩
  have hfirst := hrun fuel hfuel
  rw [Btree.childrenOf]
  split at hfirst
  · next first hok =>
      rw [← h.takeWhile_children]
      exact map_takeWhile_decode ino hfirst
  · next e herror =>
      rw [← h.takeWhile_children, hfirst.2]
      rfl

/-- The records of the small tree. -/
def smallCatalog : List Record := (Btree.contents Btree.smallLeaves).filterMap CatRecord.decode

lemma smallCatalog_tree :
    CatalogTree (Btree.smallTree cattreeCmpfn) Btree.smallLeaves smallCatalog where
  compares := compares_cattreeCmpfn
  hasLeaves := Btree.smallTree_hasLeaves (by decide +kernel) (by decide +kernel)
  records := by decide +kernel
  key _ _ h := CatRecord.key_of_decode h
  root := by decide +kernel

/-- An image with these records and nothing else. -/
def smallImage : Image where
  catalog := smallCatalog
  blockSize := 4096
  data := []
  decodeFile := fun _ => (0, [])
  authenticated := fun _ => true
  sorted := smallCatalog_tree.pairwise_parentId
  blockSize_pos := Nat.succ_pos 4095
  length_data_lt := Nat.two_pow_pos 64

lemma smallImage_tree :
    CatalogTree (Btree.smallTree cattreeCmpfn) Btree.smallLeaves smallImage.catalog :=
  smallCatalog_tree

theorem readsChildren_smallImage : ReadsChildren (Btree.smallTree cattreeCmpfn) smallImage 1 ∧
    ListsFolder (Btree.smallTree cattreeCmpfn) smallImage 1 :=
  readsChildren smallImage_tree (by decide) (by decide)

/-! ### The record of an object -/

/-- The record has this parent and this name. -/
def isNamed (ino : ℕ) (name : Bytes) (r : Record) : Bool := r.parentId = ino && r.name = name

/-- The records with this parent and this name. -/
def named (img : Image) (ino : ℕ) (name : Bytes) : List Record :=
  img.catalog.filter (isNamed ino name)

/-- The record of a parent and a name: the last one, or, if that is an orphan, the first one with an
object id that is none. -/
def lookup (img : Image) (ino : ℕ) (name : Bytes) : Option Record :=
  (named img ino name).getLast?.bind fun r =>
    if Image.isOrphan r then (named img ino name).find? fun b => 0 < b.objectId && !Image.isOrphan b
    else some r

/-- The empty name is that of the record of an object. -/
lemma lookup_nil (img : Image) (ino : ℕ) : lookup img ino [] = img.cattreeFind ino := rfl

/-- A lookup gives this record, or the error for none. -/
def Answers (result : Except TreeError RecordInfo) (r : Option Record) : Prop :=
  match result with
  | .ok info => ∃ record, r = some record ∧ CatRecord.decode info.record = some record
  | .error e => e = .errno (-enoent) ∧ r = none

lemma isNamed_eq (h : CatalogTree t leaves img.catalog) {record : Bytes}
    (hdecode : CatRecord.decode record = some r) (hlt : ino < 2 ^ 64)
    (hname : name.length < 256) : t.isNamed record ino name = isNamed ino name r := by
  have hkey := key_cattreeKey name (CatRecord.objectId_lt record) hlt hname
  obtain ⟨type, -, rfl⟩ := Option.map_eq_some_iff.1 hdecode
  rw [Btree.isNamed, Bool.eq_iff_iff, decide_eq_true_iff, h.compares.eq_zero, hkey,
    CatRecord.key, catKey_inj]
  simp [isNamed]

lemma key_isNamed (h : isNamed ino name r = true) : r.parentId = ino ∧ r.name = name := by
  simpa [isNamed] using h

/-- The loop over orphans gives the first of the following records with the key that is none. -/
lemma nextNamed_eq (h : CatalogTree t leaves img.catalog) (hlt : ino < 2 ^ 64)
    (hname : name.length < 256) {fuel : ℕ} (hat : Btree.IsAt leaves index info)
    (hfuel : img.catalog.length ≤ index + fuel) :
    Answers (t.nextNamed ino name fuel info)
      (((img.catalog.drop (index + 1)).takeWhile (isNamed ino name)).find? (!Image.isOrphan ·)) := by
  induction fuel generalizing index info with
  | zero =>
      have hindex := (List.getElem?_eq_some_iff.1 hat.getElem?).1
      rw [h.length_eq] at hindex
      omega
  | succ fuel ih =>
      rw [Btree.nextNamed]
      rcases h.getNextRecord hat with ⟨next, r', hnext, hr', hdecode, hat'⟩ | ⟨hnext, hnil⟩
      · obtain ⟨hlt', hget⟩ := List.getElem?_eq_some_iff.1 hr'
        rw [hnext, List.drop_eq_getElem_cons hlt', hget]
        change Answers (if _ then _ else _) _
        rw [h.isNamed_eq hdecode hlt hname, CatRecord.isOrphan_of_decode hdecode]
        by_cases hthis : isNamed ino name r' = true
        · rw [List.takeWhile_cons_of_pos hthis, if_neg (by simp [hthis])]
          by_cases horphan : Image.isOrphan r' = true
          · rw [if_pos horphan, List.find?_cons_of_neg (by simp [horphan])]
            exact ih hat' (by omega)
          · rw [if_neg horphan, List.find?_cons_of_pos (by simpa using horphan)]
            exact ⟨r', rfl, hdecode⟩
        · rw [List.takeWhile_cons_of_neg hthis, if_pos (by simpa using hthis)]
          exact ⟨rfl, rfl⟩
      · rw [hnext, hnil]
        exact ⟨rfl, rfl⟩

lemma objectId_lt_of_mem (h : CatalogTree t leaves img.catalog) (hr : r ∈ img.catalog) :
    r.objectId < 2 ^ 64 := by
  obtain ⟨i, hi⟩ := List.getElem?_of_mem hr
  obtain ⟨record, -, hdecode⟩ := h.getElem?_of_getElem? hi
  have hkey := CatRecord.key_of_decode hdecode
  rw [CatRecord.key, Record.key, catKey_inj] at hkey
  exact hkey.2.2 ▸ CatRecord.objectId_lt record

/-- The records with a parent and a name lie together. -/
lemma isNamed_of_between {o o' : ℕ} (hlow : catKey ino name o ≤ r.key)
    (hhigh : r.key ≤ catKey ino name o') : isNamed ino name r = true := by
  rcases key_le_iff.1 hhigh with hlt | ⟨hparent, hname | ⟨hname, -⟩⟩
  · exact absurd (catKey_lt_iff.2 (Or.inl hlt)) (not_lt.2 hlow)
  · exact absurd (catKey_lt_iff.2 (Or.inr ⟨hparent, Or.inl hname⟩)) (not_lt.2 hlow)
  · simp [isNamed, hparent, hname]

lemma key_of_isNamed (h : isNamed ino name r = true) : r.key = catKey ino name r.objectId := by
  obtain ⟨hparent, hname⟩ := key_isNamed h
  rw [Record.key, hparent, hname]

lemma named_le_iff {o : ℕ} (h : isNamed ino name r = true) :
    r.key ≤ catKey ino name o ↔ r.objectId ≤ o := by
  obtain ⟨hparent, hname⟩ := key_isNamed h
  rw [key_le_iff]
  simp [hparent, hname]

lemma named_le (h : CatalogTree t leaves img.catalog) (hr : r ∈ img.catalog)
    (hnamed : isNamed ino name r = true) : r.key ≤ catKey ino name greatestAvailId := by
  have hlt := h.objectId_lt_of_mem hr
  rw [named_le_iff hnamed]
  unfold greatestAvailId
  omega

/-- The last record with the parent and the name is the one where the search stops, if that has them
at all. -/
lemma getLast?_named (h : CatalogTree t leaves img.catalog)
    (hpred : PredAt Record.key (catKey ino name greatestAvailId) img.catalog index)
    (hr : img.catalog[index]? = some r) :
    (named img ino name).getLast? = if isNamed ino name r then some r else none := by
  have hnamed : named img ino name = img.catalog.filter (isNamed ino name) := rfl
  have hbehind : (img.catalog.drop (index + 1)).filter (isNamed ino name) = [] := by
    rw [List.filter_eq_nil_iff]
    intro x hx hthis
    obtain ⟨j, hj⟩ := List.getElem?_of_mem hx
    rw [List.getElem?_drop] at hj
    have hlt := hpred.lt (index + 1 + j) x (by omega) hj
    exact absurd (h.named_le (List.mem_of_mem_drop hx) hthis) (not_le.2 hlt)
  have hsplit : img.catalog = img.catalog.take index ++ r :: img.catalog.drop (index + 1) := by
    obtain ⟨hlt, hget⟩ := List.getElem?_eq_some_iff.1 hr
    rw [← hget, ← List.drop_eq_getElem_cons hlt, List.take_append_drop]
  rw [hnamed]
  by_cases hthis : isNamed ino name r = true
  · rw [if_pos hthis]
    conv_lhs => rw [hsplit, List.filter_append, List.filter_cons_of_pos hthis, hbehind]
    simp
  · rw [if_neg hthis]
    have hnone : img.catalog.filter (isNamed ino name) = [] := by
      rw [List.filter_eq_nil_iff]
      intro x hx hx'
      obtain ⟨j, hj⟩ := List.getElem?_of_mem hx
      have hle : j ≤ index := by
        by_contra hgt
        have hlt := hpred.lt j x (not_le.1 hgt) hj
        exact absurd (h.named_le hx hx') (not_le.2 hlt)
      obtain ⟨r', hr', hrle⟩ := hpred.le
      rw [hr, Option.some.injEq] at hr'
      have hlow := h.ascending.le_of_le hle hj hr
      rw [key_of_isNamed hx'] at hlow
      exact hthis (isNamed_of_between hlow (hr' ▸ hrle))
    rw [hnone]
    rfl

/-- The first record with the parent and the name that is no orphan, if the last one is, is the first
one behind the key with object 0. -/
lemma find?_named (h : CatalogTree t leaves img.catalog)
    (hpred : PredAt Record.key (catKey ino name 0) img.catalog index) :
    (named img ino name).find? (fun b => 0 < b.objectId && !Image.isOrphan b) =
      ((img.catalog.drop (index + 1)).takeWhile (isNamed ino name)).find? (!Image.isOrphan ·) := by
  have hnamed : named img ino name = img.catalog.filter (isNamed ino name) := rfl
  obtain ⟨r', hr', hrle⟩ := hpred.le
  -- up to the position, an object id is 0
  have hfront : ((img.catalog.take (index + 1)).filter (isNamed ino name)).find?
      (fun b => 0 < b.objectId && !Image.isOrphan b) = none := by
    rw [List.find?_eq_none]
    intro x hx
    rw [List.mem_filter] at hx
    obtain ⟨j, hj⟩ := List.getElem?_of_mem hx.1
    rw [List.getElem?_take] at hj
    split at hj
    · next hlt =>
        have hle : x.key ≤ catKey ino name 0 :=
          (h.ascending.le_of_le (by omega) hj hr').trans hrle
        rw [named_le_iff hx.2] at hle
        simp [Nat.le_zero.1 hle]
    · cases hj
  have hbehind : ∀ x ∈ img.catalog.drop (index + 1), catKey ino name 0 < x.key := by
    intro x hx
    obtain ⟨j, hj⟩ := List.getElem?_of_mem hx
    rw [List.getElem?_drop] at hj
    exact hpred.lt _ x (by omega) hj
  have hrest : (img.catalog.drop (index + 1)).filter (isNamed ino name) =
      (img.catalog.drop (index + 1)).takeWhile (isNamed ino name) := by
    refine filter_eq_takeWhile ?_
    have hasc : Ascending Record.key (img.catalog.drop (index + 1)) :=
      h.ascending.sublist (List.drop_sublist _ _)
    refine hasc.imp_of_mem fun {a b} ha hmem hab hb => ?_
    exact isNamed_of_between (hbehind a ha).le
      (hab.le.trans (h.named_le (List.mem_of_mem_drop hmem) hb))
  rw [hnamed]
  conv_lhs => rw [← List.take_append_drop (index + 1) img.catalog, List.filter_append,
    List.find?_append, hfront, Option.none_or, hrest]
  refine List.find?_congr fun x hx => ?_
  have hx' := (List.takeWhile_sublist _).subset hx
  have hpos : 0 < x.objectId := by
    by_contra hzero
    have hle := (named_le_iff (List.mem_takeWhile_imp hx)).2 (not_lt.1 hzero)
    exact absurd (hbehind x hx') (not_lt.2 hle)
  simp [hpos]

/-- The lookup of a parent and a name. -/
lemma answers_cattreeFind (h : CatalogTree t leaves img.catalog) (hino : 0 < ino)
    (hlt : ino < 2 ^ 64) (hname : name.length < 256) :
    ∃ steps, ∀ fuel, steps ≤ fuel →
      Answers (t.cattreeFind fuel ino name) (lookup img ino name) := by
  have hlast : CatRecord.key (cattreeKey greatestAvailId ino name) =
      catKey ino name greatestAvailId :=
    key_cattreeKey name (by norm_num [greatestAvailId]) hlt hname
  have hzero : CatRecord.key (cattreeKey 0 ino name) = catKey ino name 0 :=
    key_cattreeKey name (by norm_num) hlt hname
  obtain ⟨steps, index, info, r, hpred, hat, hr, hdecode, hrun⟩ :=
    h.find (cattreeKey greatestAvailId ino name) (by rw [hlast]; exact h.head_le hino name _)
  obtain ⟨steps', index', info', r', hpred', hat', -, -, hrun'⟩ :=
    h.find (cattreeKey 0 ino name) (by rw [hzero]; exact h.head_le hino name 0)
  rw [hlast] at hpred
  rw [hzero] at hpred'
  refine ⟨max (max steps steps') img.catalog.length, fun fuel hfuel => ?_⟩
  have hfind := hrun fuel ((le_max_left _ _).trans (le_of_max_le_left hfuel))
  have hfind' := hrun' fuel ((le_max_right _ _).trans (le_of_max_le_left hfuel))
  have hlength : img.catalog.length ≤ fuel := le_of_max_le_right hfuel
  rw [Btree.cattreeFind, hfind, lookup, h.getLast?_named hpred hr]
  change Answers (if _ then _ else if _ then _ else _) _
  rw [h.isNamed_eq hdecode hlt hname, CatRecord.isOrphan_of_decode hdecode]
  by_cases hthis : isNamed ino name r = true
  · rw [if_neg (by simp [hthis]), if_pos hthis, Option.bind_some]
    by_cases horphan : Image.isOrphan r = true
    · rw [if_neg (by simp [horphan]), if_pos horphan, hfind', h.find?_named hpred']
      exact h.nextNamed_eq hlt hname hat' (by omega)
    · rw [if_pos (by simpa using horphan), if_neg horphan]
      exact ⟨r, rfl, hdecode⟩
  · rw [if_pos (by simpa using hthis), if_neg hthis]
    exact ⟨rfl, rfl⟩

/-- **Lookup.**  On a tree that holds the catalog, however its nodes are split and linked, the
lookup of a parent and a name gives the record that the list of the records gives, orphans and
all.  The parent is not that of the root folder. -/
theorem cattreeFind_eq (h : CatalogTree t leaves img.catalog) (hino : 0 < ino) (hlt : ino < 2 ^ 64)
    (hname : name.length < 256) :
    ∃ steps, ∀ fuel, steps ≤ fuel →
      Answers (t.cattreeFind fuel ino name) (lookup img ino name) :=
  h.answers_cattreeFind hino hlt hname

theorem cattreeFind_eq_smallImage : ∃ steps, ∀ fuel, steps ≤ fuel →
    Answers ((Btree.smallTree cattreeCmpfn).cattreeFind fuel 1 [108]) (lookup smallImage 1 [108]) :=
  cattreeFind_eq smallImage_tree (by decide) (by decide) (by decide)

end CatalogTree

end SamsungTVVoices.Extractor
