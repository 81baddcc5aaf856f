/-
Directory trees of a file system that folds names.

Names with the same `fold` are the same name to the file system, which keeps the spelling that a
name was made with.  A `FoldedTree` is a tree over folded names that knows how each path is spelled,
so two names in one directory that the file system does not tell apart cannot be built.  `spelled`
is the tree that a listing shows.

A copy into such a tree does to the folded names what a copy does to a `FileTree`, and
`name_copytrees` says how the result is spelled: the first tree that has a path names it.
-/
import SamsungTVVoices.Lib.FileTree

variable {ν κ β : Type*} [DecidableEq κ]

/-- A directory tree whose names are the same if `fold` makes the same of them. -/
structure FoldedTree (fold : ν → κ) (β : Type*) where
  /-- The tree of the folded names. -/
  keyed : FileTree κ β
  /-- How the last name of a path is spelled. -/
  name : List κ → Option ν
  name_eq_none : ∀ k, name k = none ↔ k = [] ∨ keyed.node k = none
  fold_name : ∀ k n, name k = some n → k.getLast? = some (fold n)

namespace FoldedTree

variable {fold : ν → κ}

/-- What the file system finds at a path, however the path is spelled. -/
def node (t : FoldedTree fold β) (p : List ν) : Option (Node β) := t.keyed.node (p.map fold)

/-- The tree with nothing in its root. -/
def empty : FoldedTree fold β where
  keyed := FileTree.empty
  name _ := none
  name_eq_none k := by by_cases hk : k = [] <;> simp [hk]
  fold_name := nofun

/-! ### Spelled paths -/

/-- The spelling of a path. -/
def spell (t : FoldedTree fold β) (k : List κ) : List ν := k.inits.filterMap t.name

lemma name_nil (t : FoldedTree fold β) : t.name [] = none := (t.name_eq_none []).2 (Or.inl rfl)

lemma spell_concat (t : FoldedTree fold β) (k : List κ) (c : κ) :
    t.spell (k ++ [c]) = t.spell k ++ (t.name (k ++ [c])).toList := by
  rw [spell, List.inits_append, List.filterMap_append]
  cases hname : t.name (k ++ [c]) <;> simp [spell, hname]

lemma exists_name {t : FoldedTree fold β} {k : List κ} {c : κ} (h : t.keyed.node (k ++ [c]) ≠ none) :
    ∃ n, t.name (k ++ [c]) = some n ∧ fold n = c := by
  have hname : t.name (k ++ [c]) ≠ none := by
    rw [ne_eq, t.name_eq_none]
    simp [h]
  obtain ⟨n, hn⟩ := Option.ne_none_iff_exists'.1 hname
  refine ⟨n, hn, ?_⟩
  have hlast := t.fold_name _ _ hn
  rw [List.getLast?_concat] at hlast
  exact (Option.some.inj hlast).symm

lemma spell_prefix {t : FoldedTree fold β} {k l : List κ} (h : k <+: l) : t.spell k <+: t.spell l := by
  obtain ⟨r, rfl⟩ := h
  rw [spell, spell, List.inits_append, List.filterMap_append]
  exact List.prefix_append _ _

/-- The spelling of a path folds to the path. -/
lemma map_fold_spell {t : FoldedTree fold β} {k : List κ} (h : t.keyed.node k ≠ none) :
    (t.spell k).map fold = k := by
  induction k using List.reverseRecOn with
  | nil => simp [spell, t.name_nil]
  | append_singleton k c ih =>
      obtain ⟨n, hn, rfl⟩ := exists_name h
      have hk : t.keyed.node k ≠ none := by
        rw [t.keyed.parent k _ h]
        exact Option.some_ne_none _
      rw [spell_concat, hn, List.map_append, ih hk]
      rfl

section Spelled

variable [DecidableEq ν]

/-- The tree as it is spelled. -/
def spelled (t : FoldedTree fold β) : FileTree ν β where
  node p := if t.spell (p.map fold) = p then t.node p else none
  paths := t.keyed.paths.image t.spell
  mem_paths p := by
    rw [Finset.mem_image]
    constructor
    · rintro ⟨k, hk, rfl⟩
      have hnode := (t.keyed.mem_paths k).1 hk
      rwa [node, map_fold_spell hnode, if_pos rfl]
    · intro hp
      split at hp
      · next heq => exact ⟨p.map fold, (t.keyed.mem_paths _).2 hp, heq⟩
      · exact absurd rfl hp
  root := by simp [node, spell, t.name_nil, t.keyed.root]
  parent p n hp := by
    split at hp
    · next heq =>
        rw [node, List.map_append, List.map_singleton] at hp
        rw [List.map_append, List.map_singleton, spell_concat] at heq
        obtain ⟨m, hm, -⟩ := exists_name hp
        rw [hm] at heq
        obtain ⟨hspell, -⟩ := List.append_inj' heq rfl
        rw [if_pos hspell]
        exact t.keyed.parent _ _ hp
    · exact absurd rfl hp

lemma node_spelled (t : FoldedTree fold β) (p : List ν) :
    t.spelled.node p = if t.spell (p.map fold) = p then t.node p else none := rfl

lemma node_spelled_eq_some {t : FoldedTree fold β} {p : List ν} {x : Node β} :
    t.spelled.node p = some x ↔ t.spell (p.map fold) = p ∧ t.node p = some x := by
  rw [node_spelled]
  split
  · next h => simp [h]
  · next h => simp [h]

end Spelled

/-- A path is spelled as it says if each of its names is. -/
lemma spell_map_eq_iff {t : FoldedTree fold β} {p : List ν} (h : t.node p ≠ none) :
    t.spell (p.map fold) = p ↔ ∀ q, q <+: p → t.name (q.map fold) = q.getLast? := by
  induction p using List.reverseRecOn with
  | nil => simp [spell, t.name_nil]
  | append_singleton p n ih =>
      rw [node, List.map_append, List.map_singleton] at h
      obtain ⟨m, hm, -⟩ := exists_name h
      have hp : t.node p ≠ none := by
        rw [node, t.keyed.parent _ _ h]
        exact Option.some_ne_none _
      rw [List.map_append, List.map_singleton, spell_concat, hm, Option.toList_some]
      constructor
      · intro heq q hq
        obtain ⟨hspell, hlast⟩ := List.append_inj' heq rfl
        rcases List.prefix_concat_iff.1 hq with rfl | hq
        · rw [List.map_append, List.map_singleton, hm, List.getLast?_concat,
            List.singleton_inj.1 hlast]
        · exact (ih hp).1 hspell q hq
      · intro hall
        have hlast := hall _ List.prefix_rfl
        rw [List.map_append, List.map_singleton, hm, List.getLast?_concat] at hlast
        rw [(ih hp).2 fun q hq => hall q (hq.trans (List.prefix_append _ _)),
          Option.some.inj hlast]

/-! ### Changing one path -/

/-- The tree after something has been put at `p`: a name that is there keeps its spelling. -/
def put (t : FoldedTree fold β) (p : List ν) (x : Node β) (u : FileTree κ β)
    (hu : ∀ k, u.node k = if k = p.map fold then some x else t.keyed.node k) :
    FoldedTree fold β where
  keyed := u
  name k := (t.name k).or (if k = p.map fold then p.getLast? else none)
  name_eq_none k := by
    rw [Option.or_eq_none_iff, t.name_eq_none, hu]
    by_cases hk : k = p.map fold
    · subst hk
      by_cases hp : p = [] <;> simp [hp]
    · simp [hk]
  fold_name k n hn := by
    rw [Option.or_eq_some_iff] at hn
    rcases hn with hn | ⟨-, hn⟩
    · exact t.fold_name k n hn
    · split at hn
      · next hk => rw [hk, List.getLast?_map, hn]; rfl
      · cases hn

/-- Make the directory at `p` if nothing is there; its parent has to exist. -/
def makeDir (t : FoldedTree fold β) (p : List ν) : Option (FoldedTree fold β) :=
  match h : t.keyed.makeDir (p.map fold) with
  | some u => some (t.put p .dir u (FileTree.makeDir_eq_some h))
  | none => none

/-- Write a file at `p`; its parent has to exist and no directory may be there. -/
def writeFile (t : FoldedTree fold β) (p : List ν) (b : β) : Option (FoldedTree fold β) :=
  match h : t.keyed.writeFile (p.map fold) b with
  | some u => some (t.put p (.file b) u (FileTree.writeFile_eq_some h).2)
  | none => none

/-- Copy a file to `p`.  A copy onto a directory goes into that directory. -/
def copyFile (t : FoldedTree fold β) (p : List ν) (b : β) : Option (FoldedTree fold β) :=
  if t.node p = some .dir then t.writeFile (p ++ p.getLast?.toList) b else t.writeFile p b

/-- The tree below the directory at `p`. -/
def subtree (t : FoldedTree fold β) (p : List ν) : Option (FoldedTree fold β) :=
  match h : t.keyed.subtree (p.map fold) with
  | some u => some {
      keyed := u
      name := fun k => if k = [] then none else t.name (p.map fold ++ k)
      name_eq_none := by
        intro k
        by_cases hk : k = []
        · simp [hk]
        · rw [if_neg hk, t.name_eq_none, (FileTree.subtree_eq_some h).2]
          simp [hk]
      fold_name := by
        intro k n hn
        by_cases hk : k = []
        · rw [if_pos hk] at hn
          cases hn
        · rw [if_neg hk] at hn
          rw [← t.fold_name _ _ hn, List.getLast?_append_of_ne_nil _ hk] }
  | none => none

/-- One entry of a recursive copy. -/
def copyEntry (t : FoldedTree fold β) : List ν × Node β → Option (FoldedTree fold β)
  | (p, .dir) => t.makeDir p
  | (p, .file b) => t.copyFile p b

lemma keyed_makeDir (t : FoldedTree fold β) (p : List ν) :
    (t.makeDir p).map keyed = t.keyed.makeDir (p.map fold) := by
  unfold makeDir
  split
  · next u hu => exact hu.symm
  · next hu => exact hu.symm

lemma keyed_writeFile (t : FoldedTree fold β) (p : List ν) (b : β) :
    (t.writeFile p b).map keyed = t.keyed.writeFile (p.map fold) b := by
  unfold writeFile
  split
  · next u hu => exact hu.symm
  · next hu => exact hu.symm

lemma name_makeDir {t u : FoldedTree fold β} {p : List ν} (h : t.makeDir p = some u) (k : List κ) :
    u.name k = (t.name k).or (if k = p.map fold then p.getLast? else none) := by
  unfold makeDir at h
  split at h
  · obtain rfl := Option.some.inj h
    rfl
  · cases h

lemma name_writeFile {t u : FoldedTree fold β} {p : List ν} {b : β}
    (h : t.writeFile p b = some u) (k : List κ) :
    u.name k = (t.name k).or (if k = p.map fold then p.getLast? else none) := by
  unfold writeFile at h
  split at h
  · obtain rfl := Option.some.inj h
    rfl
  · cases h

/-- To the folded names a copy is a copy. -/
lemma keyed_copyEntry (t : FoldedTree fold β) (e : List ν × Node β) :
    (t.copyEntry e).map keyed = t.keyed.copyEntry (e.1.map fold, e.2) := by
  obtain ⟨p, x⟩ := e
  cases x with
  | dir => exact t.keyed_makeDir p
  | file b =>
      dsimp only [copyEntry, FileTree.copyEntry]
      rw [copyFile, FileTree.copyFile, node]
      split
      · rw [keyed_writeFile, List.map_append, List.getLast?_map]
        cases p.getLast? <;> rfl
      · exact t.keyed_writeFile p b

/-- How one entry of a copy is spelled.  A file that goes into a directory has its name twice at the
end of its path, and spells no other path. -/
lemma name_copyEntry {t u : FoldedTree fold β} {p : List ν} {x : Node β}
    (h : t.copyEntry (p, x) = some u) {k : List κ} (hroot : k ≠ [])
    (hk : ∀ b, x = .file b → k = (p ++ p.getLast?.toList).map fold → t.node p ≠ some .dir) :
    u.name k = (t.name k).or (if k = p.map fold then p.getLast? else none) := by
  cases x with
  | dir => exact name_makeDir h k
  | file b =>
      rw [copyEntry, copyFile] at h
      split at h
      · next hdir =>
          have hne : k ≠ (p ++ p.getLast?.toList).map fold := fun heq => hk b rfl heq hdir
          rw [name_writeFile h, if_neg hne, Option.or_none]
          split
          · next heq =>
              -- the directory at `p` has its name already
              subst heq
              have hname : t.name (p.map fold) ≠ none := by
                rw [ne_eq, t.name_eq_none, not_or]
                exact ⟨hroot, by rw [← node, hdir]; exact Option.some_ne_none _⟩
              obtain ⟨n, hn⟩ := Option.ne_none_iff_exists'.1 hname
              rw [hn, Option.some_or]
          · rw [Option.or_none]
      · exact name_writeFile h k

/-- Where the directories are after one entry of a copy. -/
lemma node_copyEntry_dir {t u : FoldedTree fold β} {p : List ν} {x : Node β}
    (h : t.copyEntry (p, x) = some u) (q : List ν) :
    u.node q = some .dir ↔ t.node q = some .dir ∨ (q.map fold = p.map fold ∧ x = .dir) := by
  have hkeyed := t.keyed_copyEntry (p, x)
  rw [h] at hkeyed
  exact FileTree.copyEntry_dir hkeyed.symm (q.map fold)

lemma name_foldlM_copyEntry (l : List (List ν × Node β)) : ∀ {t u : FoldedTree fold β},
    l.foldlM copyEntry t = some u → ∀ {k : List κ}, k ≠ [] →
      (∀ p b, (p, Node.file b) ∈ l → k = (p ++ p.getLast?.toList).map fold →
        t.node p ≠ some .dir ∧ ∀ q, (q, Node.dir) ∈ l → q.map fold ≠ p.map fold) →
      u.name k = (t.name k).or
        (l.findSome? fun e => if k = e.1.map fold then e.1.getLast? else none) := by
  induction l with
  | nil =>
      intro t u h k _ _
      obtain rfl : t = u := Option.some.inj h
      rw [List.findSome?_nil, Option.or_none]
  | cons e l ih =>
      intro t u h k hroot hk
      obtain ⟨p, x⟩ := e
      rw [List.foldlM_cons] at h
      obtain ⟨v, hv, hu⟩ := Option.bind_eq_some_iff.1 h
      have hfirst := name_copyEntry hv hroot fun b hx heq =>
        (hk p b (by rw [hx]; exact List.mem_cons_self) heq).1
      rw [ih hu hroot, hfirst, Option.or_assoc, List.findSome?_cons]
      · cases (if k = p.map fold then p.getLast? else none) <;> rfl
      · intro q b hq heq
        obtain ⟨hdir, hdirs⟩ := hk q b (List.mem_cons_of_mem _ hq) heq
        refine ⟨?_, fun r hr => hdirs r (List.mem_cons_of_mem _ hr)⟩
        rw [ne_eq, node_copyEntry_dir hv, not_or]
        refine ⟨hdir, ?_⟩
        rintro ⟨hfold, rfl⟩
        exact hdirs p List.mem_cons_self hfold.symm

lemma keyed_foldlM_copyEntry (l : List (List ν × Node β)) : ∀ t : FoldedTree fold β,
    (l.foldlM copyEntry t).map keyed =
      (l.map fun e => (e.1.map fold, e.2)).foldlM FileTree.copyEntry t.keyed := by
  induction l with
  | nil => intro t; rfl
  | cons e l ih =>
      intro t
      rw [List.foldlM_cons, List.map_cons, List.foldlM_cons, ← keyed_copyEntry]
      cases t.copyEntry e with
      | none => rfl
      | some v => exact ih v

/-- How the trees spell a path: as the first of them does that has it. -/
def firstName (ts : List (FoldedTree fold β)) (k : List κ) : Option ν := ts.findSome? (·.name k)

lemma firstName_cons (t : FoldedTree fold β) (ts : List (FoldedTree fold β)) (k : List κ) :
    firstName (t :: ts) k = (t.name k).or (firstName ts k) := by
  rw [firstName, List.findSome?_cons]
  cases t.name k <;> rfl

/-! ### Copying trees -/

section Copytree

variable [DecidableEq ν] [LinearOrder ν] {s t u : FoldedTree fold β}

/-- The recursive copy of `s` into `t`, entry by entry. -/
def copytree (s t : FoldedTree fold β) : Option (FoldedTree fold β) :=
  s.spelled.walk.foldlM copyEntry t

/-- The entries of the tree, with folded names. -/
def entries (t : FoldedTree fold β) : List (List κ × Node β) :=
  t.spelled.walk.map fun e => (e.1.map fold, e.2)

lemma mem_walk_spelled {p : List ν} {x : Node β} :
    (p, x) ∈ t.spelled.walk ↔ t.spell (p.map fold) = p ∧ t.node p = some x :=
  FileTree.mem_walk.trans node_spelled_eq_some

/-- To the folded names the entries are a listing of the tree. -/
lemma lists_entries (t : FoldedTree fold β) : FileTree.Lists t.entries t.keyed where
  mem {k x} := by
    rw [entries, List.mem_map]
    constructor
    · rintro ⟨⟨p, y⟩, hmem, heq⟩
      obtain ⟨rfl, rfl⟩ := Prod.mk.inj heq
      exact (mem_walk_spelled.1 hmem).2
    · intro hx
      have hfold := map_fold_spell (t := t) (hx ▸ Option.some_ne_none x)
      refine ⟨(t.spell k, x), mem_walk_spelled.2 ?_, by rw [hfold]⟩
      rw [node, hfold]
      exact ⟨rfl, hx⟩
  pairwise := by
    rw [entries, List.pairwise_map]
    refine t.spelled.pairwise_walk.imp_of_mem fun {a b} ha hb hnot hpre => hnot ?_
    rw [← (mem_walk_spelled.1 ha).1, ← (mem_walk_spelled.1 hb).1]
    exact spell_prefix hpre

/-- What the entries say about the spelling of a path. -/
lemma findSome?_walk (t : FoldedTree fold β) {k : List κ} (hroot : k ≠ []) :
    (t.spelled.walk.findSome? fun e => if k = e.1.map fold then e.1.getLast? else none) =
      t.name k := by
  have hname : ∀ {p : List ν} {x : Node β}, (p, x) ∈ t.spelled.walk → p.map fold = k →
      t.name k = p.getLast? := by
    rintro p x hmem rfl
    obtain ⟨hspell, hx⟩ := mem_walk_spelled.1 hmem
    exact (spell_map_eq_iff (hx ▸ Option.some_ne_none x)).1 hspell p List.prefix_rfl
  cases hfound : t.spelled.walk.findSome? fun e =>
      if k = e.1.map fold then e.1.getLast? else none with
  | none =>
      rw [List.findSome?_eq_none_iff] at hfound
      symm
      rw [t.name_eq_none]
      by_contra hnot
      obtain ⟨-, hne⟩ := not_or.1 hnot
      obtain ⟨x, hx⟩ := Option.ne_none_iff_exists'.1 hne
      have hfold := map_fold_spell hne
      have hmem : (t.spell k, x) ∈ t.spelled.walk := by
        rw [mem_walk_spelled, node, hfold]
        exact ⟨rfl, hx⟩
      have hlast := hfound _ hmem
      rw [if_pos hfold.symm, List.getLast?_eq_none_iff] at hlast
      exact hroot (hfold.symm.trans (congrArg (List.map fold) hlast))
  | some n =>
      obtain ⟨⟨p, x⟩, hmem, hn⟩ := List.exists_of_findSome?_eq_some hfound
      split at hn
      · next heq => rw [hname hmem heq.symm, hn]
      · cases hn

/-- How a copy is spelled: what is there keeps its spelling. -/
lemma name_copytree (h : s.copytree t = some u) {k : List κ}
    (hk : (∀ q c, k ≠ q ++ [c] ++ [c]) ∨ FileTree.Compatible s.keyed t.keyed) :
    u.name k = (t.name k).or (s.name k) := by
  by_cases hroot : k = []
  · rw [hroot, u.name_nil, t.name_nil, s.name_nil]
    rfl
  rw [name_foldlM_copyEntry _ h hroot, s.findSome?_walk hroot]
  intro p b hmem heq
  have hfile := (mem_walk_spelled.1 hmem).2
  rcases hk with hk | hcompat
  · rcases List.eq_nil_or_concat p with rfl | ⟨q, n, rfl⟩
    · exact absurd heq hroot
    · refine absurd ?_ (hk (q.map fold) (fold n))
      rw [heq]
      simp
  · refine ⟨fun hdir => (hcompat _ b).1 ⟨hfile, hdir⟩, fun q hq hfold => ?_⟩
    have hdir := (mem_walk_spelled.1 hq).2
    rw [node, hfold, ← node, hfile] at hdir
    cases hdir

lemma keyed_copytree (s t : FoldedTree fold β) :
    (s.copytree t).map keyed = s.entries.foldlM FileTree.copyEntry t.keyed :=
  keyed_foldlM_copyEntry _ t

/-! ### Copying several trees into one -/

/-- The trees, copied one after the other. -/
def copytrees (ts : List (FoldedTree fold β)) (base : FoldedTree fold β) :
    Option (FoldedTree fold β) :=
  ts.foldlM (fun merged t => t.copytree merged) base

lemma keyed_copytrees (ts : List (FoldedTree fold β)) : ∀ base : FoldedTree fold β,
    (copytrees ts base).map keyed = FileTree.copyAll (ts.map entries) base.keyed := by
  induction ts with
  | nil => intro base; rfl
  | cons t ts ih =>
      intro base
      rw [copytrees, List.foldlM_cons, List.map_cons, FileTree.copyAll, List.foldlM_cons,
        ← keyed_copytree]
      cases t.copytree base with
      | none => rfl
      | some v => exact ih v

lemma forall₂_lists_entries (ts : List (FoldedTree fold β)) :
    List.Forall₂ FileTree.Lists (ts.map entries) (ts.map keyed) := by
  rw [List.forall₂_map_left_iff, List.forall₂_map_right_iff, List.forall₂_same]
  exact fun t _ => t.lists_entries

/-- How several copies are spelled. -/
theorem name_copytrees (ts : List (FoldedTree fold β)) : ∀ {base u : FoldedTree fold β},
    copytrees ts base = some u → ∀ {k : List κ}, (∀ q c, k ≠ q ++ [c] ++ [c]) →
      u.name k = (base.name k).or (firstName ts k) := by
  induction ts with
  | nil =>
      intro base u h k _
      obtain rfl : base = u := Option.some.inj h
      rw [firstName, List.findSome?_nil, Option.or_none]
  | cons t ts ih =>
      intro base u h k hk
      rw [copytrees, List.foldlM_cons] at h
      obtain ⟨v, hv, hu⟩ := Option.bind_eq_some_iff.1 h
      rw [ih hu hk, name_copytree hv (Or.inl hk), Option.or_assoc, firstName_cons]

/-- How several copies of trees that fit are spelled, at every path. -/
theorem name_copytrees_of_compatible (ts : List (FoldedTree fold β)) :
    ∀ {base u : FoldedTree fold β}, copytrees ts base = some u →
      (∀ s ∈ ts, ∀ t ∈ ts, FileTree.Compatible s.keyed t.keyed) →
      (∀ t ∈ ts, FileTree.Compatible t.keyed base.keyed) → ∀ k,
        u.name k = (base.name k).or (firstName ts k) := by
  induction ts with
  | nil =>
      intro base u h _ _ k
      obtain rfl : base = u := Option.some.inj h
      rw [firstName, List.findSome?_nil, Option.or_none]
  | cons t ts ih =>
      intro base u h hts hbase k
      rw [copytrees, List.foldlM_cons] at h
      obtain ⟨v, hv, hu⟩ := Option.bind_eq_some_iff.1 h
      have ht := hbase t List.mem_cons_self
      have htail : ∀ s ∈ ts, s ∈ t :: ts := fun s hs => List.mem_cons_of_mem _ hs
      have hkeyed : v.keyed = FileTree.overlay t.keyed base.keyed ht := by
        have hcopy := keyed_copytree t base
        rw [hv, FileTree.copyEntries_eq_overlay ht t.lists_entries] at hcopy
        exact Option.some.inj hcopy
      have hfits : ∀ s ∈ ts, FileTree.Compatible s.keyed v.keyed := by
        intro s hs
        rw [hkeyed]
        exact (hts s (htail s hs) t List.mem_cons_self).overlay (hbase s (htail s hs)) ht
      rw [ih hu (fun s hs r hr => hts s (htail s hs) r (htail r hr)) hfits,
        name_copytree hv (Or.inr ht), Option.or_assoc, firstName_cons]

end Copytree

/-! ### Names that are all told apart -/

section OfTree

/-- A tree, on a file system to which names are the same only if they are equal. -/
def ofTree [DecidableEq ν] (t : FileTree ν β) : FoldedTree (id : ν → ν) β where
  keyed := t
  name k := if t.node k = none then none else k.getLast?
  name_eq_none k := by by_cases hk : t.node k = none <;> simp [hk]
  fold_name k n hn := by
    split at hn
    · cases hn
    · exact hn

lemma eq_ofTree [DecidableEq ν] (t : FoldedTree (id : ν → ν) β) : t = ofTree t.keyed := by
  obtain ⟨keyed, name, hnone, hfold⟩ := t
  have hname : name = fun k => if keyed.node k = none then none else k.getLast? := by
    funext k
    split
    · next h => exact (hnone k).2 (Or.inr h)
    · next h =>
        cases hk : name k with
        | none => rw [((hnone k).1 hk).resolve_right h]; rfl
        | some n => exact (hfold k n hk).symm
  subst hname
  rfl

lemma spelled_ofTree [DecidableEq ν] (t : FileTree ν β) : (ofTree t).spelled = t := by
  ext1 p
  have hnode : (ofTree t).node p = t.node p := by rw [node, List.map_id]; rfl
  cases hp : t.node p with
  | none => rw [node_spelled, hnode, hp, ite_self]
  | some x =>
      refine node_spelled_eq_some.2 ⟨?_, hnode.trans hp⟩
      have hfold := map_fold_spell (t := ofTree t) (k := p) (by
        show t.node p ≠ none
        rw [hp]
        exact Option.some_ne_none x)
      rw [List.map_id] at hfold ⊢
      exact hfold

lemma subtree_ofTree [DecidableEq ν] (t : FileTree ν β) (p : List ν) :
    (ofTree t).subtree p = (t.subtree p).map ofTree := by
  unfold subtree
  split
  · next u hu =>
      have htree : t.subtree p = some u := by rw [← List.map_id p]; exact hu
      rw [htree, Option.map_some]
      exact congrArg some (eq_ofTree _)
  · next hu =>
      have htree : t.subtree p = none := by rw [← List.map_id p]; exact hu
      rw [htree]
      rfl

lemma copytree_ofTree [DecidableEq ν] [LinearOrder ν] (s t : FileTree ν β) :
    (ofTree s).copytree (ofTree t) = (s.copytree t).map ofTree := by
  have hentries : (ofTree s).entries = s.walk := by
    rw [entries, spelled_ofTree]
    simp
  have hkeyed := keyed_copytree (ofTree s) (ofTree t)
  rw [hentries] at hkeyed
  rw [FileTree.copytree]
  refine Eq.trans ?_ (congrArg (Option.map ofTree) hkeyed)
  rw [Option.map_map]
  refine ((congrFun Option.map_id _).symm.trans ?_)
  exact Option.map_congr fun u _ => eq_ofTree u

end OfTree

end FoldedTree
