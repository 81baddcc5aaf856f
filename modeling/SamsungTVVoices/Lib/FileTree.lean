/-
Directory trees as maps from paths.

A tree says of every path whether a directory, a file or nothing is there.  The invariant of
a file system is part of the type: the root is a directory, and what contains something is
a directory.  `mem_walk`, `pairwise_walk` and `nodup_walk` describe the top-down traversal
of a tree, and `copyEntries_eq_overlay` the recursive copy of one tree into another: it puts
the copied tree over the other one, path by path.  Of copies into a tree that does not fit,
`copyAll_dir` and `copyAll_self` say what is a directory or a file afterwards.
-/
import Mathlib.Data.Finset.Sort
import Mathlib.Data.Finset.Union
import Mathlib.Data.Finset.Lattice.Fold
import Mathlib.Order.Lattice.Nat
import Mathlib.Data.List.Flatten

/-- What a path of a tree leads to. -/
inductive Node (β : Type*) where
  | dir
  | file (content : β)
deriving DecidableEq, Repr

instance {β : Type*} (x : Option (Node β)) : Decidable (x = some .dir) :=
  match x with
  | none => isFalse nofun
  | some .dir => isTrue rfl
  | some (.file _) => isFalse nofun

variable {ν β : Type*} [DecidableEq ν]

/-- A directory tree with names in `ν` and file contents in `β`. -/
structure FileTree (ν β : Type*) [DecidableEq ν] where
  /-- What is at a path. -/
  node : List ν → Option (Node β)
  /-- The paths at which something is. -/
  paths : Finset (List ν)
  mem_paths : ∀ p, p ∈ paths ↔ node p ≠ none
  root : node [] = some .dir
  parent : ∀ p n, node (p ++ [n]) ≠ none → node p = some .dir

namespace FileTree

@[ext] lemma ext {s t : FileTree ν β} (h : ∀ p, s.node p = t.node p) : s = t := by
  obtain ⟨node, paths, hpaths, _, _⟩ := s
  obtain ⟨node', paths', hpaths', _, _⟩ := t
  obtain rfl : node = node' := funext h
  obtain rfl : paths = paths' := by
    ext p
    rw [hpaths, hpaths']
  rfl

/-- What contains something, at any depth, is a directory. -/
lemma node_eq_dir_of_append {t : FileTree ν β} (r : List ν) :
    ∀ {p : List ν}, r ≠ [] → t.node (p ++ r) ≠ none → t.node p = some .dir := by
  induction r with
  | nil => intro p h; exact absurd rfl h
  | cons n r ih =>
      intro p _ h
      by_cases hr : r = []
      · subst hr
        exact t.parent p n h
      · have hdir : t.node (p ++ [n]) = some .dir := ih hr (by simpa using h)
        exact t.parent p n (by simp [hdir])

/-- What leads to a directory is a directory. -/
lemma node_eq_dir_of_prefix {t : FileTree ν β} {p q : List ν} (h : t.node p = some .dir)
    (hq : q <+: p) : t.node q = some .dir := by
  obtain ⟨r, rfl⟩ := hq
  by_cases hr : r = []
  · rwa [hr, List.append_nil] at h
  · exact node_eq_dir_of_append r hr (by rw [h]; exact Option.some_ne_none _)

/-- The tree with nothing in its root. -/
def empty : FileTree ν β where
  node p := if p = [] then some .dir else none
  paths := {[]}
  mem_paths p := by by_cases h : p = [] <;> simp [h]
  root := rfl
  parent p n h := by simp at h

@[simp] lemma node_empty (p : List ν) :
    (empty : FileTree ν β).node p = if p = [] then some .dir else none := rfl

/-- The tree with one file, and the directories that lead to it. -/
def ofFile (p : List ν) (b : β) (hp : p ≠ []) : FileTree ν β where
  node q := if q = p then some (.file b) else if q <+: p then some .dir else none
  paths := p.inits.toFinset
  mem_paths q := by
    rw [List.mem_toFinset, List.mem_inits]
    by_cases h : q = p
    · simp [h]
    · by_cases hq : q <+: p <;> simp [h, hq]
  root := by simp [hp.symm]
  parent q n h := by
    have hpre : q ++ [n] <+: p := by
      by_contra hnot
      have hne : q ++ [n] ≠ p := fun heq => hnot (heq ▸ List.prefix_rfl)
      simp [hne, hnot] at h
    have hne : q ≠ p := by
      rintro rfl
      have hlen := hpre.length_le
      rw [List.length_append, List.length_singleton] at hlen
      omega
    rw [if_neg hne, if_pos ((List.prefix_append q [n]).trans hpre)]

lemma node_ofFile (p q : List ν) (b : β) (hp : p ≠ []) : (ofFile p b hp).node q =
    if q = p then some (.file b) else if q <+: p then some .dir else none := rfl

/-! ### Changing one path -/

/-- Put a node into an existing directory.  A directory may not be replaced by a file. -/
def insert (t : FileTree ν β) (p : List ν) (n : ν) (x : Node β) (hp : t.node p = some .dir)
    (hx : t.node (p ++ [n]) = some .dir → x = .dir) : FileTree ν β where
  node q := if q = p ++ [n] then some x else t.node q
  paths := Insert.insert (p ++ [n]) t.paths
  mem_paths q := by
    by_cases h : q = p ++ [n]
    · simp [h]
    · simp [h, t.mem_paths]
  root := by simp [t.root]
  parent q m h := by
    by_cases hq : q ++ [m] = p ++ [n]
    · obtain ⟨rfl, -⟩ := List.append_inj' hq rfl
      simp [hp]
    · rw [if_neg hq] at h
      have hdir := t.parent q m h
      by_cases hqp : q = p ++ [n]
      · rw [if_pos hqp, hx (hqp ▸ hdir)]
      · rw [if_neg hqp, hdir]

@[simp] lemma node_insert (t : FileTree ν β) (p : List ν) (n : ν) (x : Node β)
    (hp : t.node p = some .dir) (hx : t.node (p ++ [n]) = some .dir → x = .dir) (q : List ν) :
    (t.insert p n x hp hx).node q = if q = p ++ [n] then some x else t.node q := rfl

/-- Make the directory at `p` if nothing is there; its parent has to exist. -/
def makeDir (t : FileTree ν β) (p : List ν) : Option (FileTree ν β) :=
  match t.node p with
  | some .dir => some t
  | some (.file _) => none
  | none =>
      match p.getLast? with
      | none => none
      | some n =>
          if h : t.node p.dropLast = some .dir then some (t.insert p.dropLast n .dir h fun _ => rfl)
          else none

/-- Write a file at `p`; its parent has to exist and no directory may be there. -/
def writeFile (t : FileTree ν β) (p : List ν) (b : β) : Option (FileTree ν β) :=
  match p.getLast? with
  | none => none
  | some n =>
      if h : t.node p.dropLast = some .dir ∧ t.node (p.dropLast ++ [n]) ≠ some .dir then
        some (t.insert p.dropLast n (.file b) h.1 fun hdir => absurd hdir h.2)
      else none

/-- Copy a file to `p`.  A copy onto a directory goes into that directory. -/
def copyFile (t : FileTree ν β) (p : List ν) (b : β) : Option (FileTree ν β) :=
  if t.node p = some .dir then t.writeFile (p ++ p.getLast?.toList) b else t.writeFile p b

lemma makeDir_append {t : FileTree ν β} {p : List ν} {n : ν} (hp : t.node p = some .dir)
    (hn : t.node (p ++ [n]) = none) :
    ∃ u, t.makeDir (p ++ [n]) = some u ∧
      ∀ q, u.node q = if q = p ++ [n] then some .dir else t.node q := by
  refine ⟨t.insert p n .dir hp fun _ => rfl, ?_, fun q => rfl⟩
  unfold makeDir
  simp [hn, hp]

lemma writeFile_append {t : FileTree ν β} {p : List ν} {n : ν} (b : β)
    (hp : t.node p = some .dir) (hn : t.node (p ++ [n]) ≠ some .dir) :
    ∃ u, t.writeFile (p ++ [n]) b = some u ∧
      ∀ q, u.node q = if q = p ++ [n] then some (.file b) else t.node q := by
  refine ⟨t.insert p n (.file b) hp fun h => absurd h hn, ?_, fun q => rfl⟩
  unfold writeFile
  simp [hn, hp]

/-- What the making of a directory does. -/
lemma makeDir_eq_some {t u : FileTree ν β} {p : List ν} (h : t.makeDir p = some u)
    (q : List ν) : u.node q = if q = p then some .dir else t.node q := by
  unfold makeDir at h
  split at h
  case h_1 hdir =>
      obtain rfl := Option.some.inj h
      split
      · next hq => rw [hq, hdir]
      · rfl
  case h_2 => cases h
  case h_3 hnone =>
      split at h
      · cases h
      · next n hn =>
          split at h
          · next hparent =>
              obtain rfl := Option.some.inj h
              rw [node_insert, List.dropLast_append_getLast? n hn]
          · cases h

/-- Nothing is made where the directory above is not there. -/
lemma makeDir_eq_none {t : FileTree ν β} {p : List ν} (hp : t.node p = none)
    (hparent : t.node p.dropLast ≠ some .dir) : t.makeDir p = none := by
  unfold makeDir
  rw [hp]
  dsimp only
  split
  · rfl
  · rw [dif_neg hparent]

/-- What the writing of a file does. -/
lemma writeFile_eq_some {t u : FileTree ν β} {p : List ν} {b : β} (h : t.writeFile p b = some u) :
    t.node p ≠ some .dir ∧ ∀ q, u.node q = if q = p then some (.file b) else t.node q := by
  unfold writeFile at h
  split at h
  · cases h
  · next n hn =>
      have hp : p.dropLast ++ [n] = p := List.dropLast_append_getLast? n hn
      split at h
      · next hparent =>
          obtain rfl := Option.some.inj h
          exact ⟨hp ▸ hparent.2, fun q => by rw [node_insert, hp]⟩
      · cases h

/-- Take out a path, not the root, under which there is nothing. -/
def erase (t : FileTree ν β) (p : List ν) (hp : p ≠ []) (h : ∀ n, t.node (p ++ [n]) = none) :
    FileTree ν β where
  node q := if q = p then none else t.node q
  paths := t.paths.erase p
  mem_paths q := by
    by_cases hq : q = p <;> simp [hq, t.mem_paths]
  root := by simp [hp.symm, t.root]
  parent q n hq := by
    have hne : q ≠ p := by
      rintro rfl
      simp [h n] at hq
    by_cases hqn : q ++ [n] = p
    · simp [hqn] at hq
    · rw [if_neg hqn] at hq
      rw [if_neg hne, t.parent q n hq]

/-- Delete the file at `p`. -/
def unlink (t : FileTree ν β) (p : List ν) : Option (FileTree ν β) :=
  match h : t.node p with
  | some (.file _) => some (t.erase p (fun hp => by simp [hp, t.root] at h) fun n => by
      by_contra hn
      rw [t.parent p n hn] at h
      simp at h)
  | _ => none

/-- What a deletion of a file does. -/
lemma unlink_eq_some {t u : FileTree ν β} {p : List ν} (h : t.unlink p = some u) :
    (∃ b, t.node p = some (.file b)) ∧ ∀ q, u.node q = if q = p then none else t.node q := by
  unfold unlink at h
  split at h
  case h_1 b hfile => exact ⟨⟨b, hfile⟩, fun q => by rw [← Option.some.inj h]; rfl⟩
  case h_2 => cases h

/-- What is there after a deletion was there before it. -/
lemma node_of_unlink {t u : FileTree ν β} {p q : List ν} {x : Node β} (h : t.unlink p = some u)
    (hx : u.node q = some x) : t.node q = some x := by
  rw [(unlink_eq_some h).2] at hx
  split at hx
  · cases hx
  · exact hx

/-! ### The part of a tree below a path -/

/-- The tree below the directory at `p`. -/
def subtree (t : FileTree ν β) (p : List ν) : Option (FileTree ν β) :=
  if h : t.node p = some .dir then
    some {
      node := fun q => t.node (p ++ q)
      paths := (t.paths.filter (p <+: ·)).image (List.drop p.length)
      mem_paths := by
        intro q
        simp only [Finset.mem_image, Finset.mem_filter, t.mem_paths]
        constructor
        · rintro ⟨_, ⟨hr, s, rfl⟩, rfl⟩
          simpa using hr
        · intro hq
          exact ⟨p ++ q, ⟨hq, List.prefix_append p q⟩, by simp⟩
      root := by simpa using h
      parent := by
        intro q n hq
        exact t.parent (p ++ q) n (by simpa using hq) }
  else none

lemma subtree_eq_some {t u : FileTree ν β} {p : List ν} (h : t.subtree p = some u) :
    t.node p = some .dir ∧ ∀ q, u.node q = t.node (p ++ q) := by
  unfold subtree at h
  split at h
  · next hp =>
      obtain rfl := Option.some.inj h
      exact ⟨hp, fun _ => rfl⟩
  · exact absurd h (by simp)

lemma exists_subtree {t : FileTree ν β} {p : List ν} (h : t.node p = some .dir) :
    ∃ u, t.subtree p = some u := by
  rw [subtree, dif_pos h]
  exact ⟨_, rfl⟩

/-! ### Traversal -/

section Walk

/-- The names that occur in the tree. -/
def names (t : FileTree ν β) : Finset ν := t.paths.biUnion List.toFinset

lemma mem_names {t : FileTree ν β} {p : List ν} {n : ν} (h : t.node (p ++ [n]) ≠ none) :
    n ∈ t.names :=
  Finset.mem_biUnion.2 ⟨p ++ [n], (t.mem_paths _).2 h, by simp⟩

/-- The length of the longest path. -/
def depth (t : FileTree ν β) : ℕ := t.paths.sup List.length

lemma length_le_depth {t : FileTree ν β} {p : List ν} (h : t.node p ≠ none) :
    p.length ≤ t.depth :=
  Finset.le_sup (f := List.length) ((t.mem_paths p).2 h)

variable [LinearOrder ν]

/-- The elements of a finite set in their order, by insertion, so that it can be evaluated. -/
def sorted (s : Finset ν) : List ν :=
  Quot.liftOn s.val (fun l => l.insertionSort (· ≤ ·)) fun a b h =>
    List.Perm.eq_of_pairwise (fun _ _ _ _ => le_antisymm) (List.pairwise_insertionSort _ a)
      (List.pairwise_insertionSort _ b)
      ((List.perm_insertionSort _ a).trans (h.trans (List.perm_insertionSort _ b).symm))

omit [DecidableEq ν] in
lemma sorted_eq_sort (s : Finset ν) : sorted s = s.sort := by
  obtain ⟨⟨l⟩, hl⟩ := s
  have hperm : (l.insertionSort (· ≤ ·)).Perm (Finset.sort ⟨Quot.mk _ l, hl⟩) := by
    refine (List.perm_insertionSort _ l).trans (Multiset.coe_eq_coe.1 ?_)
    exact (Finset.sort_eq ⟨Quot.mk _ l, hl⟩ (· ≤ ·)).symm
  exact hperm.eq_of_pairwise (fun _ _ _ _ => le_antisymm) (List.pairwise_insertionSort _ l)
    (Finset.pairwise_sort _ _)

/-- The listing of the directory at `p`, sorted. -/
def children (t : FileTree ν β) (p : List ν) : List ν :=
  sorted (t.names.filter fun n => (t.node (p ++ [n])).isSome)

/-- The files of the directory at `p`, sorted by name. -/
def files (t : FileTree ν β) (p : List ν) : List (ν × β) :=
  (t.children p).filterMap fun n =>
    match t.node (p ++ [n]) with
    | some (.file b) => some (n, b)
    | _ => none

/-- The directories in the directory at `p`, sorted. -/
def directories (t : FileTree ν β) (p : List ν) : List ν :=
  (t.children p).filter fun n =>
    match t.node (p ++ [n]) with
    | some .dir => true
    | _ => false

/-- The traversal of at most `k` levels from the directory at `p`: the directory, its files,
then its directories one after the other. -/
def walkFrom (t : FileTree ν β) : ℕ → List ν → List (List ν × Node β)
  | 0, _ => []
  | k + 1, p =>
      (p, .dir) :: (t.files p).map (fun f => (p ++ [f.1], .file f.2)) ++
        (t.directories p).flatMap fun n => walkFrom t k (p ++ [n])

/-- The top-down traversal of the whole tree. -/
def walk (t : FileTree ν β) : List (List ν × Node β) := t.walkFrom (t.depth + 1) []

lemma mem_children {t : FileTree ν β} {p : List ν} {n : ν} :
    n ∈ t.children p ↔ t.node (p ++ [n]) ≠ none := by
  simp only [children, sorted_eq_sort, Finset.mem_sort, Finset.mem_filter,
    Option.isSome_iff_ne_none]
  exact ⟨fun h => h.2, fun h => ⟨mem_names h, h⟩⟩

/-- Delete the directory at `p`, which has to be empty. -/
def rmdir (t : FileTree ν β) (p : List ν) : Option (FileTree ν β) :=
  if h : t.node p = some .dir ∧ p ≠ [] ∧ t.children p = [] then
    some (t.erase p h.2.1 fun n => by
      by_contra hn
      simpa [h.2.2] using mem_children.2 hn)
  else none

/-- What a deletion of an empty directory does. -/
lemma rmdir_eq_some {t u : FileTree ν β} {p : List ν} (h : t.rmdir p = some u) :
    t.node p = some .dir ∧ ∀ q, u.node q = if q = p then none else t.node q := by
  unfold rmdir at h
  split at h
  case isTrue hdir => exact ⟨hdir.1, fun q => by rw [← Option.some.inj h]; rfl⟩
  case isFalse => cases h

lemma node_of_rmdir {t u : FileTree ν β} {p q : List ν} {x : Node β} (h : t.rmdir p = some u)
    (hx : u.node q = some x) : t.node q = some x := by
  rw [(rmdir_eq_some h).2] at hx
  split at hx
  · cases hx
  · exact hx

lemma nodup_children (t : FileTree ν β) (p : List ν) : (t.children p).Nodup := by
  rw [children, sorted_eq_sort]
  exact Finset.sort_nodup _ _

lemma mem_files {t : FileTree ν β} {p : List ν} {f : ν × β} :
    f ∈ t.files p ↔ t.node (p ++ [f.1]) = some (.file f.2) := by
  simp only [files, List.mem_filterMap, mem_children]
  constructor
  · rintro ⟨n, -, h⟩
    split at h
    · next b hb =>
        obtain rfl := Option.some.inj h
        exact hb
    · exact absurd h (by simp)
  · intro h
    exact ⟨f.1, by simp [h], by simp [h]⟩

lemma mem_directories {t : FileTree ν β} {p : List ν} {n : ν} :
    n ∈ t.directories p ↔ t.node (p ++ [n]) = some .dir := by
  simp only [directories, List.mem_filter, mem_children]
  constructor
  · rintro ⟨-, h⟩
    split at h
    · assumption
    · exact absurd h (by simp)
  · intro h
    simp [h]

lemma nodup_directories (t : FileTree ν β) (p : List ν) : (t.directories p).Nodup :=
  (t.nodup_children p).filter _

lemma pairwise_files (t : FileTree ν β) (p : List ν) :
    (t.files p).Pairwise fun f g => f.1 ≠ g.1 := by
  refine List.Pairwise.filterMap _ ?_ (t.nodup_children p)
  intro a a' hne b hb b' hb'
  split at hb
  · split at hb'
    · obtain rfl := Option.some.inj hb
      obtain rfl := Option.some.inj hb'
      exact hne
    · exact absurd hb' (by simp)
  · exact absurd hb (by simp)

/-- What the traversal meets is in the tree, below the directory it starts from. -/
lemma of_mem_walkFrom {t : FileTree ν β} (k : ℕ) :
    ∀ {p q : List ν} {x : Node β}, t.node p = some .dir → (q, x) ∈ t.walkFrom k p →
      ∃ r, q = p ++ r ∧ t.node q = some x := by
  induction k with
  | zero =>
      intro p q x _ h
      simp [walkFrom] at h
  | succ k ih =>
      intro p q x hp h
      rw [walkFrom, List.cons_append, List.mem_cons, List.mem_append, List.mem_map,
        List.mem_flatMap] at h
      rcases h with h | ⟨f, hf, h⟩ | ⟨n, hn, h⟩
      · obtain ⟨rfl, rfl⟩ := Prod.mk.inj h
        exact ⟨[], by simp, hp⟩
      · obtain ⟨rfl, rfl⟩ := Prod.mk.inj h
        exact ⟨[f.1], rfl, mem_files.1 hf⟩
      · obtain ⟨r, rfl, hx⟩ := ih (mem_directories.1 hn) h
        exact ⟨n :: r, by simp, hx⟩

/-- The traversal meets everything that is not deeper than its number of levels. -/
lemma mem_walkFrom {t : FileTree ν β} (k : ℕ) :
    ∀ {p r : List ν} {x : Node β}, t.node p = some .dir → r.length < k →
      t.node (p ++ r) = some x → (p ++ r, x) ∈ t.walkFrom k p := by
  induction k with
  | zero =>
      intro p r x _ hr
      exact absurd hr (Nat.not_lt_zero _)
  | succ k ih =>
      intro p r x hp hr hx
      rw [walkFrom, List.cons_append, List.mem_cons, List.mem_append, List.mem_map,
        List.mem_flatMap]
      cases r with
      | nil =>
          rw [List.append_nil, hp] at hx
          left
          rw [List.append_nil, ← Option.some.inj hx]
      | cons n r =>
          have happ : p ++ n :: r = p ++ [n] ++ r := by simp
          by_cases hdir : t.node (p ++ [n]) = some .dir
          · right; right
            refine ⟨n, mem_directories.2 hdir, ?_⟩
            rw [happ] at hx ⊢
            exact ih hdir (by simpa using hr) hx
          · -- not a directory, so nothing is below it
            have hnil : r = [] := by
              by_contra hne
              exact hdir (node_eq_dir_of_append r hne (by simp [← happ, hx]))
            subst hnil
            cases x with
            | dir => exact absurd hx hdir
            | file b => exact Or.inr (Or.inl ⟨(n, b), mem_files.2 hx, rfl⟩)

/-- The traversal meets every path of the tree, with what is there. -/
theorem mem_walk {t : FileTree ν β} {p : List ν} {x : Node β} :
    (p, x) ∈ t.walk ↔ t.node p = some x := by
  constructor
  · intro h
    obtain ⟨r, -, hx⟩ := of_mem_walkFrom _ t.root h
    exact hx
  · intro h
    exact mem_walkFrom (p := []) _ t.root
      (Nat.lt_succ_of_le (length_le_depth (by simp [h]))) h

lemma pairwise_walkFrom {t : FileTree ν β} (k : ℕ) :
    ∀ {p : List ν}, t.node p = some .dir →
      (t.walkFrom k p).Pairwise fun a b => ¬ b.1 <+: a.1 := by
  induction k with
  | zero => intro p _; exact List.Pairwise.nil
  | succ k ih =>
      intro p hp
      rw [walkFrom, List.cons_append, List.pairwise_cons, List.pairwise_append]
      have hbelow : ∀ b ∈ (t.directories p).flatMap (fun n => t.walkFrom k (p ++ [n])),
          ∃ n r, t.node (p ++ [n]) = some .dir ∧ b.1 = p ++ n :: r := by
        intro b hb
        obtain ⟨n, hn, hb⟩ := List.mem_flatMap.1 hb
        obtain ⟨r, hr, -⟩ := of_mem_walkFrom k (mem_directories.1 hn) hb
        exact ⟨n, r, mem_directories.1 hn, by simpa using hr⟩
      refine ⟨?_, ?_, ?_, ?_⟩
      · -- the directory itself comes first
        intro b hb hpre
        have hlen := hpre.length_le
        rcases List.mem_append.1 hb with hb | hb
        · obtain ⟨f, -, rfl⟩ := List.mem_map.1 hb
          simp only [List.length_append, List.length_cons, List.length_nil] at hlen
          omega
        · obtain ⟨n, r, -, hb⟩ := hbelow b hb
          rw [hb] at hlen
          simp only [List.length_append, List.length_cons] at hlen
          omega
      · -- its files have different names
        rw [List.pairwise_map]
        refine (t.pairwise_files p).imp ?_
        intro f g hne hpre
        have heq := hpre.eq_of_length (by simp)
        exact hne (by simpa using heq.symm)
      · -- the directories in it have different names
        rw [List.pairwise_flatMap]
        refine ⟨fun n hn => ih (mem_directories.1 hn), (t.nodup_directories p).imp_of_mem ?_⟩
        intro m n hm hn hne a ha b hb hpre
        obtain ⟨r, hr, -⟩ := of_mem_walkFrom k (mem_directories.1 hm) ha
        obtain ⟨s, hs, -⟩ := of_mem_walkFrom k (mem_directories.1 hn) hb
        rw [hr, hs, List.append_assoc, List.append_assoc, List.prefix_append_right_inj,
          List.singleton_append, List.singleton_append, List.cons_prefix_cons] at hpre
        exact hne hpre.1.symm
      · -- a file is not the start of a path into a directory
        intro a ha b hb hpre
        obtain ⟨f, hf, rfl⟩ := List.mem_map.1 ha
        obtain ⟨n, r, hn, hb⟩ := hbelow b hb
        rw [hb, List.prefix_append_right_inj, List.cons_prefix_cons] at hpre
        have hfile := mem_files.1 hf
        rw [← hpre.1, hn] at hfile
        exact absurd hfile (by simp)

/-- No path of the traversal is met again, and none is met before the directories that
contain it. -/
theorem pairwise_walk (t : FileTree ν β) : t.walk.Pairwise fun a b => ¬ b.1 <+: a.1 :=
  pairwise_walkFrom _ t.root

theorem nodup_walk (t : FileTree ν β) : (t.walk.map Prod.fst).Nodup := by
  rw [List.Nodup, List.pairwise_map]
  refine t.pairwise_walk.imp ?_
  intro a b h hab
  exact h (by rw [hab])

end Walk

/-! ### Copying one tree into another -/

/-- No path is a file in one of the trees and a directory in the other. -/
def Compatible (s t : FileTree ν β) : Prop :=
  ∀ p b, ¬ (s.node p = some (.file b) ∧ t.node p = some .dir) ∧
    ¬ (s.node p = some .dir ∧ t.node p = some (.file b))

/-- A file in the place of a directory, or the other way round. -/
def clashing : Option (Node β) → Option (Node β) → Bool
  | some (.file _), some .dir | some .dir, some (.file _) => true
  | _, _ => false

instance (s t : FileTree ν β) : Decidable (Compatible s t) :=
  decidable_of_iff (∀ p ∈ s.paths, clashing (s.node p) (t.node p) = false) (by
    constructor
    · intro h p b
      have hp := h p
      rw [s.mem_paths] at hp
      refine ⟨?_, ?_⟩
      · rintro ⟨hs, ht⟩
        simp [hs, ht, clashing] at hp
      · rintro ⟨hs, ht⟩
        simp [hs, ht, clashing] at hp
    · intro h p _
      unfold clashing
      split
      · next b hs ht => exact absurd ⟨hs, ht⟩ (h p b).1
      · next b hs ht => exact absurd ⟨hs, ht⟩ (h p b).2
      · rfl)

/-- Two files that are not on the way to one another fit into one tree. -/
lemma compatible_ofFile {p q : List ν} (b c : β) (hp : p ≠ []) (hq : q ≠ []) (hpq : ¬ p <+: q)
    (hqp : ¬ q <+: p) : Compatible (ofFile p b hp) (ofFile q c hq) := by
  intro r d
  simp only [node_ofFile]
  constructor
  · rintro ⟨h₁, h₂⟩
    by_cases hr : r = p
    · subst hr
      have hne : r ≠ q := fun h => hpq (h ▸ List.prefix_rfl)
      simp [hne, hpq] at h₂
    · by_cases hpre : r <+: p <;> simp [hr, hpre] at h₁
  · rintro ⟨h₁, h₂⟩
    by_cases hr : r = q
    · subst hr
      have hne : r ≠ p := fun h => hqp (h ▸ List.prefix_rfl)
      simp [hne, hqp] at h₁
    · by_cases hpre : r <+: q <;> simp [hr, hpre] at h₂

/-- The tree `s` laid over the tree `t`. -/
def overlay (s t : FileTree ν β) (h : Compatible s t) : FileTree ν β where
  node p := (s.node p).or (t.node p)
  paths := s.paths ∪ t.paths
  mem_paths p := by
    rw [Finset.mem_union, s.mem_paths, t.mem_paths]
    cases s.node p <;> simp
  root := by simp [s.root]
  parent p n hp := by
    cases hs : s.node (p ++ [n]) with
    | some x => simp [s.parent p n (by simp [hs])]
    | none =>
        have ht : t.node p = some .dir := t.parent p n (by simpa [hs] using hp)
        cases hsp : s.node p with
        | none => simpa using ht
        | some x =>
            cases x with
            | dir => rfl
            | file b => exact absurd ⟨hsp, ht⟩ (h p b).1

@[simp] lemma node_overlay (s t : FileTree ν β) (h : Compatible s t) (p : List ν) :
    (overlay s t h).node p = (s.node p).or (t.node p) := rfl

/-- One entry of a recursive copy. -/
def copyEntry (t : FileTree ν β) : List ν × Node β → Option (FileTree ν β)
  | (p, .dir) => t.makeDir p
  | (p, .file b) => t.copyFile p b

/-- One entry of the copy, when the directory that it belongs to has been copied. -/
lemma copyEntry_spec {s t cur : FileTree ν β} (h : Compatible s t) {done : Finset (List ν)}
    (hcur : ∀ p, cur.node p = if p ∈ done then s.node p else t.node p)
    {p : List ν} {x : Node β} (hp : s.node p = some x) (hdone : p ∉ done)
    (hparent : ∀ q n, p = q ++ [n] → q ∈ done) :
    ∃ cur', cur.copyEntry (p, x) = some cur' ∧
      ∀ q, cur'.node q = if q ∈ Insert.insert p done then s.node q else t.node q := by
  have hcurp : cur.node p = t.node p := by rw [hcur, if_neg hdone]
  rcases List.eq_nil_or_concat p with rfl | ⟨q, n, rfl⟩
  · -- the root is there already
    obtain rfl : x = .dir := by
      rw [s.root] at hp
      exact (Option.some.inj hp).symm
    refine ⟨cur, by simp [copyEntry, makeDir, cur.root], fun q => ?_⟩
    rw [hcur]
    by_cases hq : q = []
    · subst hq
      simp [hdone, s.root, t.root]
    · simp [hq]
  · rw [List.concat_eq_append] at *
    have hqdir : cur.node q = some .dir := by
      rw [hcur, if_pos (hparent q n rfl)]
      exact s.parent q n (by simp [hp])
    have hstep : ∀ r, (if r = q ++ [n] then some x else cur.node r) =
        if r ∈ Insert.insert (q ++ [n]) done then s.node r else t.node r := by
      intro r
      by_cases hr : r = q ++ [n]
      · simp [hr, hp]
      · simp [hr, hcur]
    cases x with
    | file b =>
        have hnot : cur.node (q ++ [n]) ≠ some .dir := by
          rw [hcurp]
          exact fun ht => (h _ b).1 ⟨hp, ht⟩
        obtain ⟨u, hu, hnode⟩ := writeFile_append b hqdir hnot
        exact ⟨u, by simpa [copyEntry, copyFile, hnot] using hu, fun r => by rw [hnode, hstep]⟩
    | dir =>
        cases ht : t.node (q ++ [n]) with
        | none =>
            obtain ⟨u, hu, hnode⟩ := makeDir_append hqdir (hcurp.trans ht)
            exact ⟨u, by simpa [copyEntry] using hu, fun r => by rw [hnode, hstep]⟩
        | some y =>
            cases y with
            | file b => exact absurd ⟨hp, ht⟩ (h _ b).2
            | dir =>
                refine ⟨cur, by simp [copyEntry, makeDir, hcurp, ht], fun r => ?_⟩
                rw [← hstep]
                by_cases hr : r = q ++ [n]
                · rw [if_pos hr, hr, hcurp, ht]
                · rw [if_neg hr]

lemma makeDir_of_file {t : FileTree ν β} {p : List ν} {b : β} (h : t.node p = some (.file b)) :
    t.makeDir p = none := by
  unfold makeDir
  split
  case h_1 hdir => rw [h] at hdir; cases hdir
  case h_2 => rfl
  case h_3 hnone => rw [h] at hnone; cases hnone

/-- Where a copied file ends up: at its own path, or in the directory that is there. -/
lemma copyFile_eq_some {t u : FileTree ν β} {p : List ν} {b : β} (h : t.copyFile p b = some u) :
    ∃ r, t.node r ≠ some .dir ∧ (t.node p ≠ some .dir → r = p) ∧
      ∀ q, u.node q = if q = r then some (.file b) else t.node q := by
  unfold copyFile at h
  by_cases hdir : t.node p = some .dir
  · rw [if_pos hdir] at h
    obtain ⟨hr, hu⟩ := writeFile_eq_some h
    exact ⟨_, hr, fun hne => absurd hdir hne, hu⟩
  · rw [if_neg hdir] at h
    obtain ⟨hr, hu⟩ := writeFile_eq_some h
    exact ⟨p, hr, fun _ => rfl, hu⟩

/-- One entry of a copy makes a directory only at its own path, and takes none away. -/
lemma copyEntry_dir {t u : FileTree ν β} {p : List ν} {x : Node β}
    (h : t.copyEntry (p, x) = some u) (q : List ν) :
    u.node q = some .dir ↔ t.node q = some .dir ∨ (q = p ∧ x = .dir) := by
  cases x with
  | dir =>
      rw [makeDir_eq_some h]
      by_cases hq : q = p <;> simp [hq]
  | file b =>
      obtain ⟨r, hr, -, hu⟩ := copyFile_eq_some h
      rw [hu]
      by_cases hq : q = r
      · subst hq
        simp [hr]
      · simp [hq]

/-- A file stays a file, whatever is written over it. -/
lemma copyEntry_file {t u : FileTree ν β} {p : List ν} {x : Node β}
    (h : t.copyEntry (p, x) = some u) {q : List ν} {b : β} (hq : t.node q = some (.file b)) :
    ∃ c, u.node q = some (.file c) := by
  cases x with
  | dir =>
      have hne : q ≠ p := by
        rintro rfl
        rw [copyEntry, makeDir_of_file hq] at h
        cases h
      exact ⟨b, by rw [makeDir_eq_some h, if_neg hne, hq]⟩
  | file c =>
      obtain ⟨r, -, -, hu⟩ := copyFile_eq_some h
      by_cases hqr : q = r
      · exact ⟨c, by rw [hu, if_pos hqr]⟩
      · exact ⟨b, by rw [hu, if_neg hqr, hq]⟩

/-- A file that is copied to a path without a directory is there afterwards. -/
lemma copyEntry_self {t u : FileTree ν β} {p : List ν} {b : β}
    (h : t.copyEntry (p, .file b) = some u) (hp : t.node p ≠ some .dir) :
    u.node p = some (.file b) := by
  obtain ⟨r, -, hr, hu⟩ := copyFile_eq_some h
  rw [hu, if_pos (hr hp).symm]

lemma foldlM_copyEntry_dir (entries : List (List ν × Node β)) : ∀ {t u : FileTree ν β},
    entries.foldlM copyEntry t = some u → ∀ q, u.node q = some .dir ↔
      t.node q = some .dir ∨ (q, Node.dir) ∈ entries := by
  induction entries with
  | nil =>
      intro t u h q
      obtain rfl : t = u := Option.some.inj h
      simp
  | cons e entries ih =>
      intro t u h q
      obtain ⟨p, x⟩ := e
      rw [List.foldlM_cons] at h
      obtain ⟨v, hv, hu⟩ := Option.bind_eq_some_iff.1 h
      rw [ih hu, copyEntry_dir hv, List.mem_cons, Prod.mk.injEq, or_assoc, eq_comm (a := Node.dir)]

lemma foldlM_copyEntry_file (entries : List (List ν × Node β)) : ∀ {t u : FileTree ν β},
    entries.foldlM copyEntry t = some u → ∀ {q b}, t.node q = some (.file b) →
      ∃ c, u.node q = some (.file c) := by
  induction entries with
  | nil =>
      intro t u h q b hq
      obtain rfl : t = u := Option.some.inj h
      exact ⟨b, hq⟩
  | cons e entries ih =>
      intro t u h q b hq
      rw [List.foldlM_cons] at h
      obtain ⟨v, hv, hu⟩ := Option.bind_eq_some_iff.1 h
      obtain ⟨c, hc⟩ := copyEntry_file hv hq
      exact ih hu hc

/-- The entries are what is in the tree, and a directory comes before what is in it. -/
structure Lists (entries : List (List ν × Node β)) (t : FileTree ν β) : Prop where
  mem : ∀ {p x}, (p, x) ∈ entries ↔ t.node p = some x
  pairwise : entries.Pairwise fun a b => ¬ b.1 <+: a.1

/-- The copy after the entries `pre`, and the rest of it. -/
lemma foldlM_copyEntry {s t : FileTree ν β} (h : Compatible s t)
    {entries : List (List ν × Node β)} (hs : Lists entries s) (post : List (List ν × Node β)) :
    ∀ (pre : List (List ν × Node β)) (cur : FileTree ν β), entries = pre ++ post →
      (∀ p, cur.node p = if p ∈ (pre.map Prod.fst).toFinset then s.node p else t.node p) →
      ∃ out, post.foldlM copyEntry cur = some out ∧
        ∀ p, out.node p =
          if p ∈ ((pre ++ post).map Prod.fst).toFinset then s.node p else t.node p := by
  induction post with
  | nil =>
      intro pre cur _ hcur
      exact ⟨cur, rfl, by simpa only [List.append_nil] using hcur⟩
  | cons e post ih =>
      intro pre cur hentries hcur
      obtain ⟨p, x⟩ := e
      have hpair := hs.pairwise
      rw [hentries] at hpair
      have hnode : s.node p = some x := hs.mem.1 (by rw [hentries]; simp)
      have hnew : p ∉ (pre.map Prod.fst).toFinset := by
        intro hmem
        obtain ⟨e, he, hep⟩ := List.mem_map.1 (List.mem_toFinset.1 hmem)
        exact (List.pairwise_append.1 hpair).2.2 e he (p, x) (by simp)
          (hep ▸ List.prefix_rfl)
      have hparent : ∀ q n, p = q ++ [n] → q ∈ (pre.map Prod.fst).toFinset := by
        rintro q n rfl
        have hq : (q, Node.dir) ∈ pre ++ (q ++ [n], x) :: post :=
          hentries ▸ hs.mem.2 (s.parent q n (by simp [hnode]))
        rcases List.mem_append.1 hq with hq | hq
        · exact List.mem_toFinset.2 (List.mem_map.2 ⟨_, hq, rfl⟩)
        · rcases List.mem_cons.1 hq with hq | hq
          · have := congrArg (fun e => e.1.length) hq
            simp at this
          · have hlater := List.pairwise_cons.1 (List.pairwise_append.1 hpair).2.1
            exact absurd (List.prefix_append q [n]) (hlater.1 _ hq)
      obtain ⟨cur', hcopy, hcur'⟩ := copyEntry_spec h hcur hnode hnew hparent
      obtain ⟨out, hfold, hout⟩ := ih (pre ++ [(p, x)]) cur' (by simpa using hentries) (by
        intro r
        rw [hcur']
        have hiff : r ∈ Insert.insert p (pre.map Prod.fst).toFinset ↔
            r ∈ ((pre ++ [(p, x)]).map Prod.fst).toFinset := by
          simp only [Finset.mem_insert, List.mem_toFinset, List.map_append, List.mem_append,
            List.map_cons, List.map_nil, List.mem_singleton]
          exact or_comm
        simp only [hiff])
      refine ⟨out, ?_, by simpa only [List.append_assoc, List.singleton_append] using hout⟩
      rw [List.foldlM_cons, hcopy]
      exact hfold

/-- **The recursive copy.**  Copying the entries of a tree into a compatible one lays it over that
tree. -/
theorem copyEntries_eq_overlay {s t : FileTree ν β} (h : Compatible s t)
    {entries : List (List ν × Node β)} (hs : Lists entries s) :
    entries.foldlM copyEntry t = some (overlay s t h) := by
  obtain ⟨out, hfold, hout⟩ := foldlM_copyEntry h hs entries [] t rfl (by simp)
  rw [hfold]
  congr 1
  ext1 p
  rw [hout]
  have hmem : p ∈ (([] ++ entries).map Prod.fst).toFinset ↔ s.node p ≠ none := by
    rw [List.nil_append, List.mem_toFinset, List.mem_map]
    constructor
    · rintro ⟨⟨q, x⟩, hq, rfl⟩
      simp [hs.mem.1 hq]
    · intro hne
      obtain ⟨x, hx⟩ := Option.ne_none_iff_exists'.1 hne
      exact ⟨(p, x), hs.mem.2 hx, rfl⟩
  simp only [hmem]
  show _ = (s.node p).or (t.node p)
  cases s.node p <;> simp

/-! ### Copying several trees into one -/

lemma compatible_empty (s : FileTree ν β) : Compatible s empty := by
  intro p b
  by_cases hp : p = []
  · subst hp
    simp [s.root]
  · simp [hp]

lemma Compatible.overlay {s t u : FileTree ν β} (ht : Compatible s t) (hu : Compatible s u)
    (h : Compatible t u) : Compatible s (overlay t u h) := by
  intro p b
  show ¬ (_ ∧ (t.node p).or (u.node p) = _) ∧ ¬ (_ ∧ (t.node p).or (u.node p) = _)
  cases htp : t.node p with
  | none => simpa using hu p b
  | some x => simpa [htp] using ht p b

/-- What is at a path when the trees are laid over one another, the later over the earlier. -/
def overlayAll : List (FileTree ν β) → List ν → Option (Node β)
  | [], _ => none
  | t :: ts, p => (overlayAll ts p).or (t.node p)

lemma exists_of_overlayAll {ts : List (FileTree ν β)} {p : List ν} {x : Node β}
    (h : overlayAll ts p = some x) : ∃ t ∈ ts, t.node p = some x := by
  induction ts with
  | nil => exact absurd h (by simp [overlayAll])
  | cons t ts ih =>
      rw [overlayAll, Option.or_eq_some_iff] at h
      rcases h with h | ⟨-, h⟩
      · obtain ⟨u, hu, hx⟩ := ih h
        exact ⟨u, List.mem_cons_of_mem _ hu, hx⟩
      · exact ⟨t, List.mem_cons_self, h⟩

lemma overlayAll_nil {ts : List (FileTree ν β)} (h : ts ≠ []) :
    overlayAll ts [] = some .dir := by
  induction ts with
  | nil => exact absurd rfl h
  | cons t ts ih =>
      rw [overlayAll, t.root]
      by_cases hts : ts = []
      · subst hts
        rfl
      · rw [ih hts]
        rfl

/-- The entries of several trees, copied one tree after the other. -/
def copyAll (lists : List (List (List ν × Node β))) (base : FileTree ν β) :
    Option (FileTree ν β) :=
  lists.foldlM (fun merged entries => entries.foldlM copyEntry merged) base

lemma copyAll_cons_eq_some {entries : List (List ν × Node β)}
    {lists : List (List (List ν × Node β))} {base u : FileTree ν β} :
    copyAll (entries :: lists) base = some u ↔
      ∃ v, entries.foldlM copyEntry base = some v ∧ copyAll lists v = some u := by
  rw [copyAll, List.foldlM_cons]
  exact Option.bind_eq_some_iff

variable {lists : List (List (List ν × Node β))} {ts : List (FileTree ν β)}

/-- Copying compatible trees one after the other lays them over one another. -/
theorem copyAll_eq_overlayAll (hl : List.Forall₂ Lists lists ts) :
    ∀ base : FileTree ν β, (∀ s ∈ ts, ∀ t ∈ ts, Compatible s t) → (∀ t ∈ ts, Compatible t base) →
      ∃ merged, copyAll lists base = some merged ∧
        ∀ p, merged.node p = (overlayAll ts p).or (base.node p) := by
  induction hl with
  | nil => intro base _ _; exact ⟨base, rfl, fun p => rfl⟩
  | @cons entries t lists ts hs _ ih =>
      intro base hts hbase
      have ht := hbase t List.mem_cons_self
      have htail : ∀ s ∈ ts, s ∈ t :: ts := fun s hs => List.mem_cons_of_mem _ hs
      obtain ⟨merged, hcopy, hmerged⟩ := ih (overlay t base ht)
        (fun s hs u hu => hts s (htail s hs) u (htail u hu))
        (fun s hs => (hts s (htail s hs) t List.mem_cons_self).overlay (hbase s (htail s hs)) ht)
      refine ⟨merged, copyAll_cons_eq_some.2 ⟨_, copyEntries_eq_overlay ht hs, hcopy⟩, fun p => ?_⟩
      rw [hmerged, overlayAll, Option.or_assoc]
      rfl

/-! ### Copying into a tree that need not fit -/

/-- The directories after a copy are those of the two trees. -/
lemma Lists.copied_dir {entries : List (List ν × Node β)} {s t u : FileTree ν β}
    (hs : Lists entries s) (h : entries.foldlM copyEntry t = some u) (q : List ν) :
    u.node q = some .dir ↔ t.node q = some .dir ∨ s.node q = some .dir := by
  rw [foldlM_copyEntry_dir _ h, hs.mem]

/-- A copied file is there after the copy, if no directory was in its place. -/
lemma Lists.copied_self {entries : List (List ν × Node β)} {s t u : FileTree ν β}
    (hs : Lists entries s) (h : entries.foldlM copyEntry t = some u) {q : List ν} {b : β}
    (hq : s.node q = some (.file b)) (ht : t.node q ≠ some .dir) :
    ∃ c, u.node q = some (.file c) := by
  obtain ⟨pre, post, hentries⟩ := List.append_of_mem (hs.mem.2 hq)
  rw [hentries, List.foldlM_append] at h
  obtain ⟨v, hv, h⟩ := Option.bind_eq_some_iff.1 h
  rw [List.foldlM_cons] at h
  obtain ⟨w, hw, hu⟩ := Option.bind_eq_some_iff.1 h
  have hdir : v.node q ≠ some .dir := by
    rw [ne_eq, foldlM_copyEntry_dir _ hv, not_or]
    refine ⟨ht, fun hmem => ?_⟩
    have hnode : s.node q = some .dir := hs.mem.1 (by rw [hentries]; simp [hmem])
    rw [hq] at hnode
    cases hnode
  exact foldlM_copyEntry_file _ hu (copyEntry_self hw hdir)

/-- The directories after several copies. -/
theorem copyAll_dir (hl : List.Forall₂ Lists lists ts) : ∀ {base u : FileTree ν β},
    copyAll lists base = some u → ∀ q,
      u.node q = some .dir ↔ base.node q = some .dir ∨ ∃ t ∈ ts, t.node q = some .dir := by
  induction hl with
  | nil =>
      intro base u h q
      obtain rfl : base = u := Option.some.inj h
      simp
  | cons hs _ ih =>
      intro base u h q
      obtain ⟨v, hv, hu⟩ := copyAll_cons_eq_some.1 h
      rw [ih hu, hs.copied_dir hv]
      simp [or_assoc]

lemma copyAll_file (lists : List (List (List ν × Node β))) : ∀ {base u : FileTree ν β},
    copyAll lists base = some u → ∀ {q b}, base.node q = some (.file b) →
      ∃ c, u.node q = some (.file c) := by
  induction lists with
  | nil =>
      intro base u h q b hq
      obtain rfl : base = u := Option.some.inj h
      exact ⟨b, hq⟩
  | cons entries lists ih =>
      intro base u h q b hq
      obtain ⟨v, hv, hu⟩ := copyAll_cons_eq_some.1 h
      obtain ⟨c, hc⟩ := foldlM_copyEntry_file _ hv hq
      exact ih hu hc

/-- A file of one of the trees is there after the copies, if none of them and not the base has a
directory in its place. -/
theorem copyAll_self (hl : List.Forall₂ Lists lists ts) : ∀ {base u : FileTree ν β},
    copyAll lists base = some u → ∀ {q},
      base.node q ≠ some .dir → (∀ t ∈ ts, t.node q ≠ some .dir) →
      (∃ t ∈ ts, ∃ b, t.node q = some (.file b)) → ∃ c, u.node q = some (.file c) := by
  induction hl with
  | nil => rintro base u - q - - ⟨t, ht, -⟩; exact absurd ht List.not_mem_nil
  | cons hs _ ih =>
      rintro base u h q hbase hts ⟨s, hmem, b, hb⟩
      obtain ⟨v, hv, hu⟩ := copyAll_cons_eq_some.1 h
      rcases List.mem_cons.1 hmem with rfl | hmem
      · obtain ⟨c, hc⟩ := hs.copied_self hv hb hbase
        exact copyAll_file _ hu hc
      · refine ih hu ?_ (fun r hr => hts r (List.mem_cons_of_mem _ hr)) ⟨s, hmem, b, hb⟩
        rw [ne_eq, hs.copied_dir hv, not_or]
        exact ⟨hbase, hts _ List.mem_cons_self⟩

/-! ### The copy of a whole tree -/

variable [LinearOrder ν]

/-- The recursive copy of `s` into `t`, entry by entry. -/
def copytree (s t : FileTree ν β) : Option (FileTree ν β) := s.walk.foldlM copyEntry t

lemma lists_walk (t : FileTree ν β) : Lists t.walk t := ⟨mem_walk, t.pairwise_walk⟩

lemma copytree_eq_overlay {s t : FileTree ν β} (h : Compatible s t) :
    copytree s t = some (overlay s t h) :=
  copyEntries_eq_overlay h s.lists_walk

end FileTree
