/-
The catalog of an image as it lies on its volume.

Of a volume the tool reads the tables, then the head of the catalog tree and, for each object that
it looks up, the nodes on the way to it.  If the nodes of a tree with the catalog have been written
to the volume, each at the place that the tables had for it last, then the lookups give what the
catalog has.
-/
import SamsungTVVoices.Extractor.Snapshot

open FixedDigits Patch Replay

namespace SamsungTVVoices.Extractor

/-! ### Trees with the same nodes -/

namespace Btree

/-- The other tree has the nodes of this one. -/
structure Extends (t t' : Btree) : Prop where
  getBnode : ∀ id b, t.getBnode id = .ok b → t'.getBnode id = .ok b
  rootId : t'.rootId = t.rootId
  height : t'.height = t.height
  compFn : t'.compFn = t.compFn

variable {t t' : Btree} {K : Type*} [LinearOrder K] {keyOf : Bytes → K} {id below : ℕ}
  {nodes leaves : List Node}

lemma Chain.mono (h : t.Chain id nodes) (he : t.Extends t') : t'.Chain id nodes := by
  induction h with
  | last hid hget hholds hnext => exact .last hid (he.getBnode _ _ hget) hholds hnext
  | cons hid hget hholds hnext _ ih => exact .cons hid (he.getBnode _ _ hget) hholds hnext ih

lemma Levels.mono (h : t.Levels keyOf below id nodes leaves) (he : t.Extends t') :
    t'.Levels keyOf below id nodes leaves := by
  induction h with
  | leaf hchain hasc => exact .leaf (hchain.mono he) hasc
  | index hchain hasc _ hleads hfirst ih => exact .index (hchain.mono he) hasc ih hleads hfirst

lemma Stores.mono {A : Type*} {decode : Bytes → Option A} {itemKey : A → K} {items : List A}
    (h : t.Stores keyOf decode itemKey leaves items) (he : t.Extends t') :
    t'.Stores keyOf decode itemKey leaves items where
  compares := he.compFn ▸ h.compares
  hasLeaves := by
    obtain ⟨below, nodes, hheight, hlevels⟩ := h.hasLeaves
    exact ⟨below, nodes, he.height.trans hheight, he.rootId ▸ hlevels.mono he⟩
  records := h.records
  key := h.key

end Btree

lemma CatalogTree.mono {t t' : Btree} {leaves : List Btree.Node} {catalog : List Record}
    (h : CatalogTree t leaves catalog) (he : t.Extends t') : CatalogTree t' leaves catalog where
  toStores := h.toStores.mono he
  root := h.root

/-! ### The nodes of a tree on the volume -/

/-- `VDFS4_CAT_TREE_INO` -/
def catTreeIno : ℕ := 2

/-- The tree with these nodes, of which node 0 is the head. -/
def treeOf (node : ℕ → Option Bytes) (compFn : Bytes → Bytes → ℤ) : Btree where
  getBnode id :=
    match node id with
    | some data => .ok ⟨id, data⟩
    | none => .error .bug
  rootId := field ((node 0).getD []) 12 4
  height := field ((node 0).getD []) 16 2
  compFn := compFn

section Volume

variable {img : Image} {sb : SbInfo} {b : Bytes} {base : ℕ} {t : Translation} {l : Layout}
  {es : List Extension} {treeIno : ℕ} {node : ℕ → Option Bytes} {compFn : Bytes → Bytes → ℤ}

/-- The nodes lie where the tables have them, and node 0 is a head. -/
structure OnVolume (img : Image) (sb : SbInfo) (t : Translation) (es : List Extension)
    (treeIno : ℕ) (node : ℕ → Option Bytes) : Prop where
  head : ∃ data, node 0 = some data ∧ slice data 0 4 = headMagic
  lt_count : ∀ id data, node id = some data → id < t.count treeIno
  nodeAt : ∀ id data, node id = some data →
    ∃ n, (metaBlocks sb.metaExtents)[newestBlock t es (treeIno, id)]? = some n ∧
      NodeAt img sb n data

/-- `fill_tables`, and `fill_btree` with the tables that it gives. -/
def openTree (img : Image) (sb : SbInfo) (treeIno : ℕ) (compFn : Bytes → Bytes → ℤ)
    (fresh freshNode : Bytes) : Except TreeError Btree := do
  let tables ← fillTables img sb fresh .whole
  fillBtree (getBnodeFromVol img sb tables treeIno freshNode .whole) compFn

/-- The tree that is opened has the nodes on the volume. -/
lemma openTree_eq (hfinds : FindsNodes img sb t es) (hv : OnVolume img sb t es treeIno node)
    {fresh freshNode : Bytes} (hfresh : fresh.length = sb.tables.length * img.blockSize)
    (hfreshNode : freshNode.length = nodeSize img sb) :
    ∃ btree, openTree img sb treeIno compFn fresh freshNode = .ok btree ∧
      (treeOf node compFn).Extends btree := by
  obtain ⟨tables, hrun, hget⟩ := hfinds fresh hfresh
  have hnode : ∀ id data, node id = some data →
      getBnodeFromVol img sb (some tables) treeIno freshNode .whole id = .ok ⟨id, data⟩ := by
    intro id data hid
    obtain ⟨n, hn, hat⟩ := hv.nodeAt id data hid
    exact hget treeIno id n data (hv.lt_count id data hid) hn hat freshNode hfreshNode
  obtain ⟨head, hhead, hmagic⟩ := hv.head
  refine ⟨⟨getBnodeFromVol img sb (some tables) treeIno freshNode .whole, field head 12 4,
    field head 16 2, compFn⟩, ?_, ?_⟩
  · rw [openTree, hrun, ok_bind, fillBtree, hnode 0 head hhead]
    exact if_pos hmagic
  · refine ⟨fun id bnode hid => ?_, ?_, ?_, rfl⟩
    · rw [treeOf] at hid
      dsimp only at hid
      cases hdata : node id with
      | none =>
          rw [hdata] at hid
          cases hid
      | some data =>
          rw [hdata] at hid
          obtain rfl : (⟨id, data⟩ : Bnode) = bnode := Except.ok.inj hid
          exact hnode id data hdata
    · rw [treeOf, hhead]
      rfl
    · rw [treeOf, hhead]
      rfl

/-- **The catalog on the volume.**  If the nodes of a tree with the catalog lie where the tables
have them, then the tables and the tree are opened, and every object is looked up and every folder
listed as the catalog has it. -/
theorem readsCatalog_openTree (hb : TablesAt img sb b) (h : Snapshot b base t l es)
    (hv : OnVolume img sb t es catTreeIno node) {leaves : List Btree.Node}
    (htree : CatalogTree (treeOf node cattreeCmpfn) leaves img.catalog) {fresh freshNode : Bytes}
    (hfresh : fresh.length = sb.tables.length * img.blockSize)
    (hfreshNode : freshNode.length = nodeSize img sb) :
    ∃ btree, openTree img sb catTreeIno cattreeCmpfn fresh freshNode = .ok btree ∧
      ∀ ino, 0 < ino → ino < 2 ^ 64 → CatalogTree.ReadsChildren btree img ino ∧
        ∀ name : Bytes, name.length < 256 → ∃ steps, ∀ fuel, steps ≤ fuel →
          CatalogTree.Answers (btree.cattreeFind fuel ino name)
            (CatalogTree.lookup img ino name) := by
  obtain ⟨btree, hopen, hextends⟩ :=
    openTree_eq (findsNodes_of_snapshot hb h) hv hfresh hfreshNode
  have hbtree : CatalogTree btree leaves img.catalog := htree.mono hextends
  exact ⟨btree, hopen, fun ino hino hlt =>
    ⟨hbtree.childrenRead hino hlt, fun _ hname => hbtree.answers_cattreeFind hino hlt hname⟩⟩

end Volume

/-! ### A volume -/

/-- The head of the tree: the root is node 1, and there is one level. -/
def volumeHead : Bytes :=
  (headMagic ++ List.replicate 8 0 ++ leBytes 4 1 ++ leBytes 2 1).rightpad 256 0

/-- The only leaf. -/
def volumeLeaf : Btree.Node :=
  let records := [Btree.smallRecord 0 1 1 [114] [], Btree.smallRecord 1 9 1 [108] [],
    Btree.smallRecord 9 9 2 [] []]
  Btree.smallNode ⟨1, write 0 (Btree.smallBnode 1 0 records).data 0 [78, 100]⟩ [32, 72, 112]

/-- The nodes of the tree. -/
def volumeNode : ℕ → Option Bytes
  | 0 => some volumeHead
  | 1 => some volumeLeaf.bnode.data
  | _ => none

lemma volume_tree : CatalogTree (treeOf volumeNode cattreeCmpfn) [volumeLeaf]
    (volumeLeaf.records.filterMap CatRecord.decode) where
  compares := compares_cattreeCmpfn
  hasLeaves := ⟨0, [volumeLeaf], by decide +kernel, by
    have hroot : (treeOf volumeNode cattreeCmpfn).rootId = 1 := by decide +kernel
    rw [hroot]
    exact .leaf (.last rfl rfl (Btree.holds_of_forall (by decide +kernel) (by decide +kernel)
      (by decide +kernel) (by decide +kernel)) (by decide +kernel)) (by decide +kernel)⟩
  records := by decide +kernel
  key _ _ h := CatRecord.key_of_decode h
  root := by decide +kernel

/-- A base table with the two nodes, in the first blocks of the metadata. -/
def volumeBase : Bytes :=
  let table := baseSignature ++ leBytes 4 1 ++ leBytes 8 0 ++ leBytes 8 136 ++
    leBytes 8 1 ++ List.replicate 32 0 ++ leBytes 8 104 ++ List.replicate 32 0 ++
    leBytes 8 0 ++ List.replicate 8 0 ++ leBytes 8 1 ++ List.replicate 8 0
  table ++ leBytes 4 (vdfs4Crc32 table)

/-- The leaf has been written anew, into the third block. -/
def volumeExtension : Extension := ⟨0, 2, 56, [((2, 1), 2)]⟩

/-- The six blocks with the tables. -/
def volumeTables : Bytes :=
  (volumeBase.rightpad 512 0 ++
    (extendedSignature ++ leBytes 4 2 ++ leBytes 8 0 ++ leBytes 8 56 ++ leBytes 4 1 ++
      leBytes 4 0 ++ leBytes 8 2 ++ leBytes 8 1 ++ leBytes 8 2)).rightpad 1536 0

/-- The image: the tables, the head, what was the leaf before, and the leaf. -/
def volumeImage : Image where
  catalog := volumeLeaf.records.filterMap CatRecord.decode
  blockSize := 256
  data := volumeTables ++ (volumeHead ++ (List.replicate 256 0 ++ volumeLeaf.bnode.data))
  decodeFile _ := (0, [])
  authenticated _ := false
  sorted := volume_tree.pairwise_parentId
  blockSize_pos := by decide
  length_data_lt := by decide +kernel

def volumeSbInfo : SbInfo := ⟨0, ⟨0, 6⟩, [⟨6, 3⟩]⟩

def volumeTranslation : Translation :=
  ⟨0, 1, fun obj => if obj = 2 then 2 else 0, fun node => node.2⟩

def volumeLayout : Layout := ⟨fun _ => 104, 136⟩

lemma volumeTranslation_count {obj : ℕ} (h : 0 < volumeTranslation.count obj) : obj = 2 := by
  by_contra hne
  simp [volumeTranslation, hne] at h

lemma volumeTables_base : HoldsBase volumeTables 0 volumeTranslation volumeLayout where
  signature := by decide +kernel
  mountCount := by decide +kernel
  syncCount := by decide +kernel
  stop := by decide +kernel
  size_le := by decide
  stop_le := by decide +kernel
  length_lt := by decide +kernel
  special obj hobj := by
    rw [volumeTranslation_count hobj]
    decide
  last obj hobj := by
    obtain rfl := volumeTranslation_count hobj
    decide +kernel
  start obj hobj := by
    obtain rfl := volumeTranslation_count hobj
    decide +kernel
  within obj hobj := by
    obtain rfl := volumeTranslation_count hobj
    decide
  apart obj obj' hne hobj hobj' :=
    absurd ((volumeTranslation_count hobj).trans (volumeTranslation_count hobj').symm) hne
  block obj i hi := by
    obtain rfl := volumeTranslation_count (Nat.zero_lt_of_lt hi)
    have hlt : i < 2 := hi
    interval_cases i
    · decide +kernel
    · decide +kernel

lemma volumeTables_extension : HoldsExtension volumeTables 512 volumeExtension where
  signature := by decide +kernel
  mountCount := by decide +kernel
  syncCount := by decide +kernel
  checksumOffset := by decide +kernel
  recordsCount := by decide +kernel
  le_length := by decide +kernel
  change i c hc := by
    cases i with
    | zero =>
        obtain rfl : ((2, 1), 2) = c := Option.some.inj hc
        exact ⟨by decide +kernel, by decide +kernel, by decide +kernel, by decide +kernel⟩
    | succ i => cases hc

lemma volumeTables_snapshot :
    Snapshot volumeTables 0 volumeTranslation volumeLayout [volumeExtension] where
  current := .alone volumeTables_base (by decide +kernel) (by decide +kernel)
  short := by decide
  extensions := .newer volumeTables_extension (by decide) (by decide)
    (.none (by decide +kernel) (by decide +kernel))
  inRange e he c hc := by
    obtain rfl := List.mem_singleton.1 he
    obtain rfl := List.mem_singleton.1 hc
    decide

lemma volume_onVolume : OnVolume volumeImage volumeSbInfo volumeTranslation [volumeExtension]
    catTreeIno volumeNode where
  head := ⟨volumeHead, rfl, by decide +kernel⟩
  lt_count id data hid := by
    match id with
    | 0 => decide
    | 1 => decide
    | _ + 2 => cases hid
  nodeAt id data hid := by
    match id with
    | 0 =>
        obtain rfl := Option.some.inj hid
        exact ⟨6, by decide +kernel, by decide, by decide +kernel, by decide +kernel,
          by decide +kernel⟩
    | 1 =>
        obtain rfl := Option.some.inj hid
        exact ⟨8, by decide +kernel, by decide, by decide +kernel, by decide +kernel,
          by decide +kernel⟩
    | _ + 2 => cases hid

theorem readsCatalog_volumeImage :
    ∃ btree, openTree volumeImage volumeSbInfo catTreeIno cattreeCmpfn (List.replicate 1536 0)
        (List.replicate 256 0) = .ok btree ∧
      ∀ ino, 0 < ino → ino < 2 ^ 64 → CatalogTree.ReadsChildren btree volumeImage ino ∧
        ∀ name : Bytes, name.length < 256 → ∃ steps, ∀ fuel, steps ≤ fuel →
          CatalogTree.Answers (btree.cattreeFind fuel ino name)
            (CatalogTree.lookup volumeImage ino name) :=
  readsCatalog_openTree ⟨by decide, by decide +kernel, by decide +kernel, by decide⟩
    volumeTables_snapshot volume_onVolume volume_tree List.length_replicate List.length_replicate

end SamsungTVVoices.Extractor
