/-
The trees of an image (`btree.c`, as far as it reads a tree).

A tree has levels.  The nodes of a level are linked, and their records, one node after the other,
have increasing keys.  The records of the lowest level are the contents of the tree; a record of a
higher level leads to a node below whose first record has the same key.  Not every node below needs
such a record: a node without one is called dangling, and the search finds it along the links.

On such a tree (`Levels`) a search ends, and it finds the last record of the lowest level that does
not lie behind the key, wherever nodes are dangling; going on from there gives the records behind
the key one after the other (`searches`).
-/
import SamsungTVVoices.Extractor.Bnode

namespace SamsungTVVoices.Extractor

/-- A tree as the tool sees it: how its nodes are read, what its head says, and the function that
compares keys. -/
structure Btree where
  getBnode : ℕ → Except TreeError Bnode
  rootId : ℕ
  height : ℕ
  compFn : Bytes → Bytes → ℤ

/-- A position in a tree, and the record there. -/
structure RecordInfo where
  bnode : Bnode
  pos : ℤ
  record : Bytes
deriving DecidableEq

namespace Btree

variable (t : Btree)

/-- The loop of `btree_traverse_level`: while the position is the last one of the node, look into
the next node.  `fuel` bounds the steps. -/
def danglingLoop (key : Bytes) : ℕ → Bnode → ℤ → Except TreeError (Bnode × ℤ)
  | 0, _, _ => .error .endless
  | fuel + 1, bnode, pos =>
    if pos = bnode.recsCount - 1 ∧ bnode.nextNodeId ≠ 0 then
      match t.getBnode bnode.nextNodeId with
      | .error e => .error e
      | .ok dangBnode =>
        match binarySearch t.compFn dangBnode key with
        | .ok (dangPos, _) => danglingLoop key fuel dangBnode dangPos
        -- not a dangling node
        | .error e => if e = .errno (-enoent) then .ok (bnode, pos) else .error e
    else .ok (bnode, pos)

/-- `btree_traverse_level` -/
def traverseLevel (fuel : ℕ) (key : Bytes) (startBnodeId : ℕ) : Except TreeError (Bnode × ℤ) := do
  let bnode ← t.getBnode startBnodeId
  let (pos, _) ← binarySearch t.compFn bnode key
  t.danglingLoop key fuel bnode pos

/-- The number of the node that an index record leads to. -/
def indexNodeId (record : Bytes) : Except TreeError ℕ := do
  let offset ← getValuePointer record
  return field record offset 4

/-- The loop of `vdfs4_btree_traverse` down to the leaves, from a node with `below` levels under
it. -/
def traverseFrom (fuel : ℕ) (key : Bytes) : ℕ → ℕ → Except TreeError (Bnode × ℤ)
  | 0, bnodeId => t.traverseLevel fuel key bnodeId
  | below + 1, bnodeId => do
    let (bnode, pos) ← t.traverseLevel fuel key bnodeId
    let record ← bnode.getRecord pos
    let child ← indexNodeId record
    traverseFrom fuel key below child

/-- `vdfs4_btree_traverse` down to `VDFS4_BTREE_LEAF_LVL`.  A tree without levels gives no node, and
what its callers do with that fails. -/
def traverse (fuel : ℕ) (key : Bytes) : Except TreeError (Bnode × ℤ) :=
  match t.height with
  | 0 => .error .bug
  | below + 1 => t.traverseFrom fuel key below t.rootId

/-- `form_gen_record` -/
def formGenRecord (bnode : Bnode) (pos : ℤ) (record : Bytes) : Except TreeError RecordInfo :=
  match getValuePointer record with
  | .error _ => .error (.errno (-einval))
  | .ok _ => .ok ⟨bnode, pos, record⟩

/-- `vdfs4_btree_find` -/
def find (fuel : ℕ) (key : Bytes) : Except TreeError RecordInfo := do
  let (bnode, pos) ← t.traverse fuel key
  let record ← bnode.getRecord pos
  formGenRecord bnode pos record

/-- `vdfs4_get_next_btree_record`, with `__vdfs4_get_next_btree_record` and
`__vdfs4_get_next_bnode`. -/
def getNextRecord (info : RecordInfo) : Except TreeError RecordInfo :=
  if info.pos + 1 < info.bnode.recsCount then do
    let record ← info.bnode.getRecord (info.pos + 1)
    formGenRecord info.bnode (info.pos + 1) record
  else if info.bnode.nextNodeId = 0 then .error (.errno (-enoent))
  else do
    let next ← t.getBnode info.bnode.nextNodeId
    let record ← next.getRecord 0
    formGenRecord next 0 record

/-! ### Levels -/

/-- A node and its records. -/
structure Node where
  bnode : Bnode
  records : List Bytes

/-- From the node with this number on, the nodes of a level are these. -/
inductive Chain : ℕ → List Node → Prop
  | last {id : ℕ} {n : Node} (hid : n.bnode.nodeId = id) (hget : t.getBnode id = .ok n.bnode)
      (hholds : n.bnode.Holds n.records) (hnext : n.bnode.nextNodeId = 0) : Chain id [n]
  | cons {id : ℕ} {n : Node} {rest : List Node} (hid : n.bnode.nodeId = id)
      (hget : t.getBnode id = .ok n.bnode) (hholds : n.bnode.Holds n.records)
      (hnext : n.bnode.nextNodeId ≠ 0) (hrest : Chain n.bnode.nextNodeId rest) :
      Chain id (n :: rest)

/-- The records of the nodes, one node after the other. -/
def contents (nodes : List Node) : List Bytes := nodes.flatMap Node.records

variable {K : Type*} [LinearOrder K]

/-- An index record leads to a node of the level below whose first record has the same key. -/
def LeadsTo (keyOf : Bytes → K) (nodes : List Node) (record : Bytes) : Prop :=
  ∃ front n back first, nodes = front ++ n :: back ∧
    indexNodeId record = .ok n.bnode.nodeId ∧ n.records.head? = some first ∧
    keyOf first = keyOf record

/-- The levels of a tree from a node on: the nodes of the upmost one, and the leaves. -/
inductive Levels (keyOf : Bytes → K) : ℕ → ℕ → List Node → List Node → Prop
  | leaf {id : ℕ} {nodes : List Node} (hchain : t.Chain id nodes)
      (hasc : Ascending keyOf (contents nodes)) : Levels keyOf 0 id nodes nodes
  | index {below id id' : ℕ} {nodes lower leaves : List Node} (hchain : t.Chain id nodes)
      (hasc : Ascending keyOf (contents nodes)) (hbelow : Levels keyOf below id' lower leaves)
      (hleads : ∀ record ∈ contents nodes, LeadsTo keyOf lower record)
      (hfirst : ∀ r ∈ (contents nodes).head?, ∀ r' ∈ (contents lower).head?, keyOf r = keyOf r') :
      Levels keyOf (below + 1) id nodes leaves

variable {t} {keyOf : Bytes → K} {key : Bytes} {id below : ℕ} {nodes leaves : List Node} {n : Node}

@[simp] lemma contents_nil : contents [] = [] := rfl

@[simp] lemma contents_cons (n : Node) (nodes : List Node) :
    contents (n :: nodes) = n.records ++ contents nodes := List.flatMap_cons

@[simp] lemma contents_append (front back : List Node) :
    contents (front ++ back) = contents front ++ contents back := List.flatMap_append

namespace Chain

lemma get_head (h : t.Chain id (n :: nodes)) :
    t.getBnode id = .ok n.bnode ∧ n.bnode.nodeId = id := by
  cases h with
  | last hid hget => exact ⟨hget, hid⟩
  | cons hid hget => exact ⟨hget, hid⟩

lemma holds (h : t.Chain id (n :: nodes)) : n.bnode.Holds n.records := by
  cases h with
  | last _ _ hholds => exact hholds
  | cons _ _ hholds => exact hholds

/-- The nodes from one of them on. -/
lemma drop {front back : List Node} (h : t.Chain id (front ++ n :: back)) :
    t.Chain n.bnode.nodeId (n :: back) := by
  induction front generalizing id with
  | nil =>
      rw [List.nil_append] at h
      rw [h.get_head.2]
      exact h
  | cons m front ih =>
      rw [List.cons_append] at h
      generalize hrest : front ++ n :: back = rest at h
      cases h with
      | last => simp at hrest
      | cons _ _ _ _ hchain => exact ih (hrest ▸ hchain)

lemma holds_of_mem (h : t.Chain id nodes) (hn : n ∈ nodes) : n.bnode.Holds n.records := by
  obtain ⟨front, back, rfl⟩ := List.append_of_mem hn
  exact h.drop.holds

/-- The link of a node leads to the next one, if there is one. -/
lemma next {m : Node} {rest : List Node} (h : t.Chain id (n :: m :: rest)) :
    n.bnode.nextNodeId ≠ 0 ∧ t.Chain n.bnode.nextNodeId (m :: rest) := by
  cases h with
  | cons _ _ _ hnext hrest => exact ⟨hnext, hrest⟩

lemma next_eq_zero (h : t.Chain id [n]) : n.bnode.nextNodeId = 0 := by
  cases h with
  | last _ _ _ hnext => exact hnext
  | cons _ _ _ _ hrest => cases hrest

lemma ne_nil (h : t.Chain id nodes) : nodes ≠ [] := by
  cases h with
  | last => exact List.cons_ne_nil _ _
  | cons => exact List.cons_ne_nil _ _

/-- A level has a first record: that of its first node. -/
lemma head?_contents (h : t.Chain id (n :: nodes)) :
    (contents (n :: nodes)).head? = n.records.head? := by
  rw [contents_cons, List.head?_append]
  cases hrecords : n.records with
  | nil => exact absurd hrecords h.holds.ne_nil
  | cons r rest => rfl

end Chain

/-! ### The search in a level -/

/-- Node and position of the last record of a level that does not lie behind the key. -/
structure Located (keyOf : Bytes → K) (key : Bytes) (nodes : List Node) (bnode : Bnode) (pos : ℤ) :
    Prop where
  split : ∃ front n back i, nodes = front ++ n :: back ∧ bnode = n.bnode ∧ pos = (i : ℕ) ∧
    PredAt keyOf (keyOf key) n.records i ∧ ∀ r ∈ contents back, keyOf key < keyOf r

lemma Located.append {bnode : Bnode} {pos : ℤ} (h : Located keyOf key nodes bnode pos)
    (before : List Node) : Located keyOf key (before ++ nodes) bnode pos := by
  obtain ⟨front, m, back, i, rfl, hb, hp, hi, hback⟩ := h.split
  exact ⟨before ++ front, m, back, i, by simp, hb, hp, hi, hback⟩

/-- The records behind a node whose next record lies behind the key do so too. -/
lemma lt_of_lt_head {rest : List Node} (hasc : Ascending keyOf (contents rest))
    (hlt : ∀ r ∈ (contents rest).head?, keyOf key < keyOf r) :
    ∀ r ∈ contents rest, keyOf key < keyOf r := by
  cases hrest : contents rest with
  | nil => exact fun r hr => absurd hr List.not_mem_nil
  | cons r rs => exact Ascending.lt_of_head (hrest ▸ hasc) (hlt r (by rw [hrest]; rfl))

/-- **The loop over dangling nodes.**  From the last record of a node that does not lie behind the
key it goes to the last one of the level, in as many steps as there are nodes. -/
lemma danglingLoop_eq (hcmp : Compares t.compFn keyOf) {rest : List Node} {i : ℕ}
    (hchain : t.Chain id (n :: rest)) (hasc : Ascending keyOf (contents (n :: rest)))
    (hi : PredAt keyOf (keyOf key) n.records i) :
    ∃ bnode pos, Located keyOf key (n :: rest) bnode pos ∧ ∀ fuel, rest.length < fuel →
      t.danglingLoop key fuel n.bnode i = .ok (bnode, pos) := by
  induction rest generalizing id n i with
  | nil =>
      refine ⟨n.bnode, i, ⟨[], n, [], i, rfl, rfl, rfl, hi, by simp⟩, ?_⟩
      intro fuel hfuel
      obtain ⟨fuel, rfl⟩ : ∃ f, fuel = f + 1 := ⟨fuel - 1, by omega⟩
      rw [danglingLoop, if_neg fun h => h.2 hchain.next_eq_zero]
  | cons m rest ih =>
      obtain ⟨hne, hrest⟩ := hchain.next
      rw [contents_cons] at hasc
      have hascm : Ascending keyOf (contents (m :: rest)) := hasc.right
      by_cases hlast : (i : ℤ) = n.bnode.recsCount - 1
      · by_cases hle : ∀ r ∈ m.records.head?, keyOf r ≤ keyOf key
        · -- the next node has the record, whether an index record leads to it or not
          obtain ⟨j, r, hsearch, -, hj⟩ := hrest.holds.binarySearch_of_le hcmp
            (by rw [contents_cons] at hascm; exact hascm.left) hle
          obtain ⟨bnode, pos, hlocated, hloop⟩ := ih hrest hascm hj
          refine ⟨bnode, pos, hlocated.append [n], ?_⟩
          intro fuel hfuel
          obtain ⟨fuel, rfl⟩ : ∃ f, fuel = f + 1 := ⟨fuel - 1, by omega⟩
          rw [danglingLoop, if_pos ⟨hlast, hne⟩, hrest.get_head.1]
          dsimp only
          rw [hsearch]
          exact hloop fuel (by simpa using hfuel)
        · push Not at hle
          obtain ⟨first, hfirst, hlt⟩ := hle
          have hhead : ∀ r ∈ m.records.head?, keyOf key < keyOf r := by
            intro r hr
            rwa [Option.mem_unique hr hfirst]
          refine ⟨n.bnode, i, ⟨[], n, m :: rest, i, rfl, rfl, rfl, hi, ?_⟩, ?_⟩
          · refine lt_of_lt_head hascm fun r hr => hhead r ?_
            rwa [hrest.head?_contents] at hr
          · intro fuel hfuel
            obtain ⟨fuel, rfl⟩ : ∃ f, fuel = f + 1 := ⟨fuel - 1, by omega⟩
            rw [danglingLoop, if_pos ⟨hlast, hne⟩, hrest.get_head.1]
            dsimp only
            rw [hrest.holds.binarySearch_of_lt hcmp hhead]
            dsimp only
            rw [if_pos rfl]
      · refine ⟨n.bnode, i, ⟨[], n, m :: rest, i, rfl, rfl, rfl, hi, ?_⟩, ?_⟩
        · -- a record of the same node follows, and it lies behind the key
          have hlen := hi.lt_length
          have hcount := hchain.holds.recsCount
          obtain ⟨s, hs⟩ : ∃ s, n.records[i + 1]? = some s :=
            ⟨_, List.getElem?_eq_getElem (by omega)⟩
          have hks := hi.lt (i + 1) s (Nat.lt_succ_self i) hs
          intro r hr
          exact hks.trans ((List.pairwise_append.1 hasc).2.2 s (List.mem_of_getElem? hs) r hr)
        · intro fuel hfuel
          obtain ⟨fuel, rfl⟩ : ∃ f, fuel = f + 1 := ⟨fuel - 1, by omega⟩
          rw [danglingLoop, if_neg fun h => hlast h.1]

/-- A search in a level from a node on that does not begin behind the key. -/
lemma traverseLevel_eq (hcmp : Compares t.compFn keyOf) {front back : List Node}
    (hchain : t.Chain id (front ++ n :: back))
    (hasc : Ascending keyOf (contents (front ++ n :: back)))
    (hle : ∀ r ∈ n.records.head?, keyOf r ≤ keyOf key) :
    ∃ bnode pos, Located keyOf key (front ++ n :: back) bnode pos ∧ ∀ fuel, back.length < fuel →
      t.traverseLevel fuel key n.bnode.nodeId = .ok (bnode, pos) := by
  rw [contents_append] at hasc
  have hdrop := hchain.drop
  have hrecords : Ascending keyOf n.records := by
    have hright := hasc.right
    rw [contents_cons] at hright
    exact hright.left
  obtain ⟨i, r, hsearch, -, hi⟩ := hdrop.holds.binarySearch_of_le hcmp hrecords hle
  obtain ⟨bnode, pos, hlocated, hloop⟩ := danglingLoop_eq hcmp hdrop hasc.right hi
  refine ⟨bnode, pos, hlocated.append front, ?_⟩
  intro fuel hfuel
  rw [traverseLevel, hdrop.get_head.1]
  change (binarySearch t.compFn n.bnode key >>= _) = _
  rw [hsearch]
  exact hloop fuel hfuel

/-! ### The search in a tree -/

namespace Levels

lemma chain (h : t.Levels keyOf below id nodes leaves) : t.Chain id nodes := by
  cases h with
  | leaf hchain => exact hchain
  | index hchain => exact hchain

lemma ascending (h : t.Levels keyOf below id nodes leaves) : Ascending keyOf (contents nodes) := by
  cases h with
  | leaf _ hasc => exact hasc
  | index _ hasc => exact hasc

/-- The leaves are a level of their own. -/
lemma leafLevel (h : t.Levels keyOf below id nodes leaves) :
    (∃ first, t.Chain first leaves) ∧ Ascending keyOf (contents leaves) := by
  induction h with
  | leaf hchain hasc => exact ⟨⟨_, hchain⟩, hasc⟩
  | index _ _ _ _ _ ih => exact ih

end Levels

/-- All levels begin with the same key. -/
lemma Levels.head_eq (h : t.Levels keyOf below id nodes leaves) :
    ∀ r ∈ (contents nodes).head?, ∀ r' ∈ (contents leaves).head?, keyOf r = keyOf r' := by
  induction h with
  | leaf =>
      intro r hr r' hr'
      rw [Option.mem_unique hr hr']
  | @index below id id' nodes lower leaves _ _ hbelow _ hfirst ih =>
      intro r hr r' hr'
      obtain ⟨m, rest, rfl⟩ := List.exists_cons_of_ne_nil hbelow.chain.ne_nil
      obtain ⟨s, hs⟩ : ∃ s, (contents (m :: rest)).head? = some s := by
        rw [hbelow.chain.head?_contents]
        exact ⟨_, List.head?_eq_some_head hbelow.chain.holds.ne_nil⟩
      exact (hfirst r hr s hs).trans (ih s hs r' hr')

/-- The record at the position that a search in a level gives. -/
lemma Located.getRecord {bnode : Bnode} {pos : ℤ} (h : Located keyOf key nodes bnode pos)
    (hchain : t.Chain id nodes) : ∃ record, bnode.getRecord pos = .ok record ∧
      record ∈ contents nodes ∧ keyOf record ≤ keyOf key := by
  obtain ⟨front, n, back, i, rfl, rfl, rfl, hi, -⟩ := h.split
  obtain ⟨r, hr, hle⟩ := hi.le
  refine ⟨r, (hchain.holds_of_mem (by simp)).getRecord i r hr, ?_, hle⟩
  rw [contents_append, contents_cons]
  simp [List.mem_of_getElem? hr]

/-- **Descent.**  From a node of the upmost level that does not begin behind the key, the search
ends at the last leaf record that does not lie behind it. -/
theorem traverseFrom_eq (hcmp : Compares t.compFn keyOf)
    (h : t.Levels keyOf below id nodes leaves) {front back : List Node}
    (hnodes : nodes = front ++ n :: back) (hle : ∀ r ∈ n.records.head?, keyOf r ≤ keyOf key) :
    ∃ steps bnode pos, Located keyOf key leaves bnode pos ∧ ∀ fuel, steps ≤ fuel →
      t.traverseFrom fuel key below n.bnode.nodeId = .ok (bnode, pos) := by
  induction h generalizing n front back with
  | leaf hchain hasc =>
      subst hnodes
      obtain ⟨bnode, pos, hlocated, hrun⟩ := traverseLevel_eq hcmp hchain hasc hle
      exact ⟨back.length + 1, bnode, pos, hlocated, fun fuel hfuel => hrun fuel hfuel⟩
  | @index below id id' nodes lower leaves hchain hasc hbelow hleads hfirst ih =>
      subst hnodes
      obtain ⟨bnode, pos, hlocated, hrun⟩ := traverseLevel_eq hcmp hchain hasc hle
      obtain ⟨record, hget, hmem, hkey⟩ := hlocated.getRecord hchain
      obtain ⟨front', m, back', first, hlower, hchild, hhead, heq⟩ := hleads record hmem
      have hle' : ∀ r ∈ m.records.head?, keyOf r ≤ keyOf key := by
        intro r hr
        rw [Option.mem_unique hr hhead, heq]
        exact hkey
      obtain ⟨steps, bnode', pos', hlocated', hrun'⟩ := ih hlower hle'
      refine ⟨max (back.length + 1) steps, bnode', pos', hlocated', ?_⟩
      intro fuel hfuel
      rw [traverseFrom, hrun fuel (le_of_max_le_left hfuel)]
      change (bnode.getRecord pos >>= _) = _
      rw [hget]
      change (indexNodeId record >>= _) = _
      rw [hchild]
      exact hrun' fuel (le_of_max_le_right hfuel)

/-- A search for a key before the first one fails at the root. -/
lemma traverseFrom_of_lt (hcmp : Compares t.compFn keyOf)
    (h : t.Levels keyOf below id nodes leaves)
    (hlt : ∀ r ∈ (contents leaves).head?, keyOf key < keyOf r) (fuel : ℕ) :
    t.traverseFrom fuel key below id = .error (.errno (-enoent)) := by
  obtain ⟨n, rest, rfl⟩ := List.exists_cons_of_ne_nil h.chain.ne_nil
  have hhead : ∀ r ∈ n.records.head?, keyOf key < keyOf r := by
    intro r hr
    obtain ⟨first, hleaves⟩ := h.leafLevel.1
    obtain ⟨m, rest', rfl⟩ := List.exists_cons_of_ne_nil hleaves.ne_nil
    obtain ⟨s, hs⟩ : ∃ s, s ∈ (contents (m :: rest')).head? := by
      rw [hleaves.head?_contents]
      exact ⟨_, List.head?_eq_some_head hleaves.holds.ne_nil⟩
    rw [← h.chain.head?_contents] at hr
    rw [h.head_eq r hr s hs]
    exact hlt s hs
  have hlevel : t.traverseLevel fuel key id = .error (.errno (-enoent)) := by
    rw [traverseLevel, h.chain.get_head.1]
    change (binarySearch t.compFn n.bnode key >>= _) = _
    rw [h.chain.holds.binarySearch_of_lt hcmp hhead]
    rfl
  cases below with
  | zero => exact hlevel
  | succ below =>
      rw [traverseFrom, hlevel]
      rfl

/-- The tree has these leaves. -/
def HasLeaves (t : Btree) (keyOf : Bytes → K) (leaves : List Node) : Prop :=
  ∃ below nodes, t.height = below + 1 ∧ t.Levels keyOf below t.rootId nodes leaves

/-- The search has stopped at this record of the lowest level. -/
structure IsAt (leaves : List Node) (index : ℕ) (info : RecordInfo) : Prop where
  split : ∃ front n back i, leaves = front ++ n :: back ∧ info.bnode = n.bnode ∧
    info.pos = (i : ℕ) ∧ n.records[i]? = some info.record ∧ index = (contents front).length + i

lemma IsAt.getElem? {index : ℕ} {info : RecordInfo} (h : IsAt leaves index info) :
    (contents leaves)[index]? = some info.record := by
  obtain ⟨front, n, back, i, rfl, -, -, hrecord, rfl⟩ := h.split
  rw [contents_append, contents_cons, List.getElem?_append_right (Nat.le_add_right ..),
    Nat.add_sub_cancel_left, List.getElem?_append_left (List.getElem?_eq_some_iff.1 hrecord).1,
    hrecord]

/-- **Search.**  In a tree with these leaves the search for a key that is not before all of them
ends, and stops at the last record that does not lie behind the key. -/
theorem find_of_le (hcmp : Compares t.compFn keyOf) (h : t.HasLeaves keyOf leaves)
    (hle : ∀ r ∈ (contents leaves).head?, keyOf r ≤ keyOf key) :
    ∃ steps index info, PredAt keyOf (keyOf key) (contents leaves) index ∧
      IsAt leaves index info ∧ ∀ fuel, steps ≤ fuel → t.find fuel key = .ok info := by
  obtain ⟨below, nodes, hheight, hlevels⟩ := h
  obtain ⟨n, rest, rfl⟩ := List.exists_cons_of_ne_nil hlevels.chain.ne_nil
  have hhead : ∀ r ∈ n.records.head?, keyOf r ≤ keyOf key := by
    intro r hr
    obtain ⟨first, hleaves⟩ := hlevels.leafLevel.1
    obtain ⟨m, rest', rfl⟩ := List.exists_cons_of_ne_nil hleaves.ne_nil
    obtain ⟨s, hs⟩ : ∃ s, s ∈ (contents (m :: rest')).head? := by
      rw [hleaves.head?_contents]
      exact ⟨_, List.head?_eq_some_head hleaves.holds.ne_nil⟩
    rw [← hlevels.chain.head?_contents] at hr
    rw [hlevels.head_eq r hr s hs]
    exact hle s hs
  obtain ⟨steps, bnode, pos, hlocated, hrun⟩ :=
    traverseFrom_eq hcmp hlevels (List.nil_append (n :: rest)).symm hhead
  obtain ⟨first, hleaves⟩ := hlevels.leafLevel.1
  obtain ⟨front, m, back, i, rfl, rfl, rfl, hi, hback⟩ := hlocated.split
  obtain ⟨r, hr, -⟩ := hi.le
  have hm : m.bnode.Holds m.records := hleaves.holds_of_mem (by simp)
  refine ⟨steps, _, ⟨m.bnode, i, r⟩, hi.flatMap hback, ⟨front, m, back, i, rfl, rfl, rfl, hr, rfl⟩, ?_⟩
  intro fuel hfuel
  rw [find, traverse, hheight]
  dsimp only
  have hroot : n.bnode.nodeId = t.rootId := hlevels.chain.get_head.2
  rw [← hroot, hrun fuel hfuel]
  change (m.bnode.getRecord (i : ℕ) >>= _) = _
  rw [hm.getRecord i r hr]
  change formGenRecord m.bnode i r = _
  rw [formGenRecord, hm.getValuePointer (List.mem_of_getElem? hr)]

/-- A search for a key before all records fails. -/
theorem find_of_lt (hcmp : Compares t.compFn keyOf) (h : t.HasLeaves keyOf leaves)
    (hlt : ∀ r ∈ (contents leaves).head?, keyOf key < keyOf r) (fuel : ℕ) :
    t.find fuel key = .error (.errno (-enoent)) := by
  obtain ⟨below, nodes, hheight, hlevels⟩ := h
  rw [find, traverse, hheight]
  dsimp only
  rw [traverseFrom_of_lt hcmp hlevels hlt]
  rfl

/-! ### Going on from a record -/

/-- **The next record.**  From a record the search goes on to the next one of the lowest level, in
the same node or in another. -/
theorem getNextRecord_of_some {index : ℕ} {info : RecordInfo} {record : Bytes}
    (hchain : t.Chain id leaves) (h : IsAt leaves index info)
    (hnext : (contents leaves)[index + 1]? = some record) :
    ∃ info', t.getNextRecord info = .ok info' ∧ info'.record = record ∧
      IsAt leaves (index + 1) info' := by
  obtain ⟨front, n, back, i, rfl, hb, hp, hrecord, rfl⟩ := h.split
  have hn := (hchain.holds_of_mem (n := n) (by simp))
  have hi := (List.getElem?_eq_some_iff.1 hrecord).1
  have hcount := hn.recsCount
  rw [contents_append, contents_cons, List.getElem?_append_right (by omega)] at hnext
  rw [show (contents front).length + i + 1 - (contents front).length = i + 1 by omega] at hnext
  rw [getNextRecord, hb, hp]
  rcases lt_or_ge (i + 1) n.records.length with hlt | hge
  · rw [List.getElem?_append_left hlt] at hnext
    refine ⟨⟨n.bnode, (i + 1 : ℕ), record⟩, ?_, rfl,
      front, n, back, i + 1, rfl, rfl, rfl, hnext, rfl⟩
    rw [if_pos (by omega)]
    change (n.bnode.getRecord ((i + 1 : ℕ) : ℤ) >>= _) = _
    rw [hn.getRecord _ _ hnext]
    change formGenRecord n.bnode (i + 1 : ℕ) record = _
    rw [formGenRecord, hn.getValuePointer (List.mem_of_getElem? hnext)]
  · -- the record is the first one of the next node
    rw [List.getElem?_append_right hge, show i + 1 - n.records.length = 0 by omega] at hnext
    cases back with
    | nil => simp at hnext
    | cons m back =>
        obtain ⟨hne, hrest⟩ := hchain.drop.next
        have hm := hrest.holds
        rw [contents_cons, List.getElem?_append_left (List.length_pos_iff.2 hm.ne_nil)] at hnext
        refine ⟨⟨m.bnode, (0 : ℕ), record⟩, ?_, rfl,
          front ++ [n], m, back, 0, by simp, rfl, rfl, hnext, ?_⟩
        · rw [if_neg (by omega), if_neg hne]
          rw [hrest.get_head.1]
          change (m.bnode.getRecord ((0 : ℕ) : ℤ) >>= _) = _
          rw [hm.getRecord _ _ hnext]
          change formGenRecord m.bnode (0 : ℕ) record = _
          rw [formGenRecord, hm.getValuePointer (List.mem_of_getElem? hnext)]
        · rw [contents_append, contents_cons, contents_nil, List.append_nil, List.length_append]
          omega

/-- Behind the last record there is none. -/
lemma getNextRecord_of_none {index : ℕ} {info : RecordInfo} (hchain : t.Chain id leaves)
    (h : IsAt leaves index info) (hnext : (contents leaves)[index + 1]? = none) :
    t.getNextRecord info = .error (.errno (-enoent)) := by
  obtain ⟨front, n, back, i, rfl, hb, hp, hrecord, rfl⟩ := h.split
  have hn := (hchain.holds_of_mem (n := n) (by simp))
  have hi := (List.getElem?_eq_some_iff.1 hrecord).1
  have hcount := hn.recsCount
  rw [contents_append, contents_cons, List.getElem?_eq_none_iff, List.length_append,
    List.length_append] at hnext
  cases back with
  | nil =>
      rw [getNextRecord, hb, hp, if_neg (by omega), if_pos hchain.drop.next_eq_zero]
  | cons m back =>
      have hpos := List.length_pos_iff.2 hchain.drop.next.2.holds.ne_nil
      rw [contents_cons, List.length_append] at hnext
      omega

/-- The records that a loop over `vdfs4_get_next_btree_record` sees. -/
def following (t : Btree) : ℕ → RecordInfo → List Bytes
  | 0, _ => []
  | fuel + 1, info =>
    match t.getNextRecord info with
    | .error _ => []
    | .ok next => next.record :: following t fuel next

/-- **Enumeration.**  A loop from a record on sees all the records behind it, in their order. -/
theorem following_eq {index fuel : ℕ} {info : RecordInfo} (hchain : t.Chain id leaves)
    (h : IsAt leaves index info) (hfuel : (contents leaves).length ≤ index + 1 + fuel) :
    t.following fuel info = (contents leaves).drop (index + 1) := by
  induction fuel generalizing index info with
  | zero => rw [following, List.drop_eq_nil_of_le hfuel]
  | succ fuel ih =>
      rw [following]
      cases hnext : (contents leaves)[index + 1]? with
      | none =>
          rw [getNextRecord_of_none hchain h hnext, List.drop_eq_nil_of_le]
          exact List.getElem?_eq_none_iff.1 hnext
      | some record =>
          obtain ⟨info', hrun, rfl, hat⟩ := getNextRecord_of_some hchain h hnext
          obtain ⟨hlt, hget⟩ := List.getElem?_eq_some_iff.1 hnext
          rw [hrun, List.drop_eq_getElem_cons hlt, hget]
          dsimp only
          rw [ih hat (by omega)]

/-- The search for a key ends.  It stops at the last record that does not lie behind the key, at its
position among all records, and going on from there gives the records behind that position; it fails
only if all of them lie behind the key. -/
def Searches (t : Btree) (keyOf : Bytes → K) (leaves : List Node) (key : Bytes) : Prop :=
  ∃ steps, ∀ fuel, steps ≤ fuel →
    match t.find fuel key with
    | .ok info => ∃ index, PredAt keyOf (keyOf key) (contents leaves) index ∧
        (contents leaves)[index]? = some info.record ∧
        t.following fuel info = (contents leaves).drop (index + 1)
    | .error e => e = .errno (-enoent) ∧ ∀ r ∈ contents leaves, keyOf key < keyOf r

/-- **Search and enumeration.**  A tree is searched rightly wherever nodes are dangling. -/
theorem searches (hcmp : Compares t.compFn keyOf) (h : t.HasLeaves keyOf leaves) (key : Bytes) :
    t.Searches keyOf leaves key := by
  obtain ⟨below, nodes, -, hlevels⟩ := id h
  obtain ⟨⟨first, hchain⟩, hasc⟩ := hlevels.leafLevel
  by_cases hle : ∀ r ∈ (contents leaves).head?, keyOf r ≤ keyOf key
  · obtain ⟨steps, index, info, hpred, hat, hrun⟩ := find_of_le hcmp h hle
    refine ⟨max steps (contents leaves).length, fun fuel hfuel => ?_⟩
    rw [hrun fuel (le_of_max_le_left hfuel)]
    have hlength : (contents leaves).length ≤ fuel := le_of_max_le_right hfuel
    exact ⟨index, hpred, hat.getElem?, following_eq hchain hat (by omega)⟩
  · push Not at hle
    obtain ⟨r, hr, hlt⟩ := hle
    have hhead : ∀ r ∈ (contents leaves).head?, keyOf key < keyOf r := by
      intro r' hr'
      rwa [Option.mem_unique hr' hr]
    refine ⟨0, fun fuel _ => ?_⟩
    rw [find_of_lt hcmp h hhead]
    exact ⟨rfl, lt_of_lt_head hasc hhead⟩

/-! ### Trees of records -/

/-- The leaves of the tree hold these items, which are told from the bytes of their records. -/
structure Stores {A : Type*} (t : Btree) (keyOf : Bytes → K) (decode : Bytes → Option A)
    (itemKey : A → K) (leaves : List Node) (items : List A) : Prop where
  compares : Compares t.compFn keyOf
  hasLeaves : t.HasLeaves keyOf leaves
  records : (contents leaves).map decode = items.map some
  key : ∀ record a, decode record = some a → keyOf record = itemKey a

namespace Stores

variable {A : Type*} {decode : Bytes → Option A} {itemKey : A → K} {items : List A} {index : ℕ}
  {info : RecordInfo} {a : A}

lemma chain (h : t.Stores keyOf decode itemKey leaves items) : ∃ id, t.Chain id leaves := by
  obtain ⟨below, nodes, -, hlevels⟩ := h.hasLeaves
  exact hlevels.leafLevel.1

lemma length_eq (h : t.Stores keyOf decode itemKey leaves items) :
    (contents leaves).length = items.length := by
  simpa using congrArg List.length h.records

/-- The bytes at a position decode to the item at the position. -/
lemma decode_of_getElem? (h : t.Stores keyOf decode itemKey leaves items) {record : Bytes}
    (hrecord : (contents leaves)[index]? = some record) :
    ∃ a, items[index]? = some a ∧ decode record = some a := by
  have hmap := congrArg (·[index]?) h.records
  simp only [List.getElem?_map, hrecord, Option.map_some] at hmap
  obtain ⟨a, ha, heq⟩ := Option.map_eq_some_iff.1 hmap.symm
  exact ⟨a, ha, heq.symm⟩

/-- And every item comes from bytes of the tree. -/
lemma getElem?_of_getElem? (h : t.Stores keyOf decode itemKey leaves items)
    (ha : items[index]? = some a) :
    ∃ record, (contents leaves)[index]? = some record ∧ decode record = some a := by
  have hlt : index < (contents leaves).length := by
    rw [h.length_eq]
    exact (List.getElem?_eq_some_iff.1 ha).1
  have hrecord := List.getElem?_eq_getElem hlt
  obtain ⟨b, hb, hdecode⟩ := h.decode_of_getElem? hrecord
  rw [ha, Option.some.injEq] at hb
  exact ⟨_, hrecord, hb ▸ hdecode⟩

/-- The keys of the items increase. -/
lemma ascending (h : t.Stores keyOf decode itemKey leaves items) : Ascending itemKey items := by
  obtain ⟨below, nodes, -, hlevels⟩ := h.hasLeaves
  have hasc := hlevels.leafLevel.2
  refine List.pairwise_iff_getElem.2 fun i j hi hj hij => ?_
  obtain ⟨a, ha, hadecode⟩ := h.getElem?_of_getElem? (List.getElem?_eq_getElem hi)
  obtain ⟨b, hb, hbdecode⟩ := h.getElem?_of_getElem? (List.getElem?_eq_getElem hj)
  rw [← h.key a _ hadecode, ← h.key b _ hbdecode]
  exact hasc.lt_of_lt hij ha hb

/-- The position of a key in the tree is its position in the list. -/
lemma predAt (h : t.Stores keyOf decode itemKey leaves items) {k : K}
    (hi : PredAt keyOf k (contents leaves) index) : PredAt itemKey k items index := by
  obtain ⟨record, hrecord, hle⟩ := hi.le
  obtain ⟨a, ha, hdecode⟩ := h.decode_of_getElem? hrecord
  refine ⟨⟨a, ha, h.key record a hdecode ▸ hle⟩, ?_⟩
  intro j b hlt hb
  obtain ⟨record', hrecord', hdecode'⟩ := h.getElem?_of_getElem? hb
  rw [← h.key record' b hdecode']
  exact hi.lt j record' hlt hrecord'

/-- The search for a key that is not before the first item. -/
lemma find (h : t.Stores keyOf decode itemKey leaves items) (key : Bytes)
    (hkey : ∀ a ∈ items.head?, itemKey a ≤ keyOf key) :
    ∃ steps index info a, PredAt itemKey (keyOf key) items index ∧ IsAt leaves index info ∧
      items[index]? = some a ∧ decode info.record = some a ∧
      ∀ fuel, steps ≤ fuel → t.find fuel key = .ok info := by
  have hhead : ∀ r ∈ (contents leaves).head?, keyOf r ≤ keyOf key := by
    intro record hrecord
    rw [Option.mem_def, List.head?_eq_getElem?] at hrecord
    obtain ⟨a, ha, hdecode⟩ := h.decode_of_getElem? hrecord
    rw [h.key record a hdecode]
    exact hkey a (by rw [List.head?_eq_getElem?]; exact ha)
  obtain ⟨steps, index, info, hpred, hat, hrun⟩ := find_of_le h.compares h.hasLeaves hhead
  obtain ⟨a, ha, hdecode⟩ := h.decode_of_getElem? hat.getElem?
  exact ⟨steps, index, info, a, h.predAt hpred, hat, ha, hdecode, hrun⟩

/-- Going on from a position in the tree gives the items behind it. -/
lemma map_following (h : t.Stores keyOf decode itemKey leaves items) (hat : IsAt leaves index info)
    {fuel : ℕ} (hfuel : items.length ≤ index + 1 + fuel) :
    (t.following fuel info).map decode = (items.drop (index + 1)).map some := by
  obtain ⟨id, hchain⟩ := h.chain
  rw [following_eq hchain hat (by rwa [h.length_eq]), List.map_drop, h.records, List.map_drop]

/-- One step: the next item, or the end. -/
lemma getNextRecord (h : t.Stores keyOf decode itemKey leaves items) (hat : IsAt leaves index info) :
    (∃ info' a, t.getNextRecord info = .ok info' ∧ items[index + 1]? = some a ∧
        decode info'.record = some a ∧ IsAt leaves (index + 1) info') ∨
      (t.getNextRecord info = .error (.errno (-enoent)) ∧ items.drop (index + 1) = []) := by
  obtain ⟨id, hchain⟩ := h.chain
  cases hnext : (contents leaves)[index + 1]? with
  | none =>
      refine Or.inr ⟨getNextRecord_of_none hchain hat hnext, ?_⟩
      rw [List.getElem?_eq_none_iff, h.length_eq] at hnext
      exact List.drop_eq_nil_of_le hnext
  | some record =>
      obtain ⟨info', hrun, rfl, hat'⟩ := getNextRecord_of_some hchain hat hnext
      obtain ⟨a, ha, hdecode⟩ := h.decode_of_getElem? hnext
      exact Or.inl ⟨info', a, hrun, ha, hdecode, hat'⟩

end Stores

/-! ### A tree with a dangling node -/

/-- A node of 256 bytes with these records. -/
def smallBnode (nodeId next : ℕ) (records : List Bytes) : Bnode where
  nodeId := nodeId
  data :=
    let offsets := (records.map List.length).scanl (· + ·) 32
    let table := offsets.reverse.flatMap (FixedDigits.leBytes 4)
    let body := List.replicate 14 0 ++ FixedDigits.leBytes 2 records.length ++
      FixedDigits.leBytes 4 nodeId ++ List.replicate 4 0 ++ FixedDigits.leBytes 4 next ++
      List.replicate 4 0 ++ records.flatten
    body ++ List.replicate (252 - body.length - table.length) 0 ++ table ++ List.replicate 4 0

/-- A key of 40 bytes with two numbers and a name of at most 14 bytes, and a value. -/
def smallRecord (a b type : ℕ) (name value : Bytes) : Bytes :=
  List.replicate 4 0 ++ FixedDigits.leBytes 2 40 ++ FixedDigits.leBytes 2 (40 + value.length) ++
    FixedDigits.leBytes 8 a ++ FixedDigits.leBytes 8 b ++ FixedDigits.leBytes 1 type ++
    FixedDigits.leBytes 1 name.length ++ name ++ List.replicate (14 - name.length) 0 ++ value

/-- Leaf 3 is dangling: the root, node 1, leads only to leaf 2. -/
def smallTree (compFn : Bytes → Bytes → ℤ) : Btree where
  getBnode id := match id with
    | 1 => .ok (smallBnode 1 0 [smallRecord 0 1 1 [114] (FixedDigits.leBytes 4 2)])
    | 2 => .ok (smallBnode 2 3 [smallRecord 0 1 1 [114] [], smallRecord 1 9 1 [108] []])
    | 3 => .ok (smallBnode 3 0 [smallRecord 9 9 2 [] []])
    | _ => .error (.errno (-139))
  rootId := 1
  height := 2
  compFn := compFn

/-- A node of the tree with its records at these offsets. -/
def smallNode (bnode : Bnode) (offsets : List ℕ) : Node := ⟨bnode, offsets.map bnode.data.drop⟩

/-- The leaves of the tree. -/
def smallLeaves : List Node :=
  [smallNode (smallBnode 2 3 [smallRecord 0 1 1 [114] [], smallRecord 1 9 1 [108] []]) [32, 72],
    smallNode (smallBnode 3 0 [smallRecord 9 9 2 [] []]) [32]]

/-- The root of the tree. -/
def smallRoot : Node :=
  smallNode (smallBnode 1 0 [smallRecord 0 1 1 [114] (FixedDigits.leBytes 4 2)]) [32]

lemma holds_of_forall {b : Bnode} {records : List Bytes} (hcount : b.recsCount = records.length)
    (hne : records ≠ [])
    (hget : ∀ i < records.length, b.getRecord (i : ℕ) = .ok (records.getD i []))
    (hvalue : ∀ r ∈ records, field r 4 2 ≤ maxBtreeKeyLen) : b.Holds records where
  recsCount := hcount
  ne_nil := hne
  getRecord i r hr := by
    obtain ⟨hi, rfl⟩ := List.getElem?_eq_some_iff.1 hr
    rw [hget i hi]
    simp [hi]
  value := hvalue

lemma smallTree_hasLeaves {compFn : Bytes → Bytes → ℤ}
    (hasc : Ascending keyOf (contents smallLeaves))
    (hroot : ∀ r ∈ smallRoot.records, ∀ r' ∈ (contents smallLeaves).head?, keyOf r = keyOf r') :
    (smallTree compFn).HasLeaves keyOf smallLeaves := by
  have hleaves : (smallTree compFn).Chain 2 smallLeaves :=
    .cons rfl rfl
      (holds_of_forall (by decide) (by decide) (by decide +kernel) (by decide)) (by decide)
      (.last rfl rfl
        (holds_of_forall (by decide) (by decide) (by decide +kernel) (by decide)) (by decide))
  refine ⟨1, [smallRoot], rfl, .index ?_ ?_ (.leaf hleaves hasc) ?_ ?_⟩
  · exact .last rfl rfl
      (holds_of_forall (by decide) (by decide) (by decide +kernel) (by decide)) (by decide)
  · exact List.pairwise_singleton ..
  · intro record hrecord
    obtain rfl : record = smallRoot.bnode.data.drop 32 := by
      simpa [smallRoot, smallNode] using hrecord
    exact ⟨[], _, _, _, rfl, by decide, rfl, (hroot _ (by simp [smallRoot, smallNode]) _ rfl).symm⟩
  · intro r hr r' hr'
    have hr : r ∈ smallRoot.records := List.mem_of_mem_head? (by simpa using hr)
    exact hroot r hr r' hr'

/-- Comparing the first number of a key. -/
def smallCompFn (r s : Bytes) : ℤ := (field r 8 8 : ℤ) - field s 8 8

lemma compares_smallCompFn : Compares smallCompFn fun r => field r 8 8 := by
  constructor <;> intro r s <;> unfold smallCompFn <;> omega

theorem searches_smallTree :
    (smallTree smallCompFn).Searches (fun r => field r 8 8) smallLeaves
      (smallRecord 5 0 0 [] []) :=
  searches (t := smallTree smallCompFn) compares_smallCompFn
    (smallTree_hasLeaves (by decide +kernel) (by decide +kernel)) _

end Btree

end SamsungTVVoices.Extractor
