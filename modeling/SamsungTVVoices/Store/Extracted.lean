/-
What the extraction makes of an archive (`firmwareStore._safeTarExtract`).

The members with plain names are put where their names say, one after the other.  `archiveNode` is
what the members together say about a path, and the loop keeps the destination as the members so
far say.
-/
import SamsungTVVoices.Store.Extract

open RelativePath

namespace SamsungTVVoices.Store.Extract

open Driver (CodePoint PyString)

variable {lower : PyString → PyString} {cwd : PyString → List PyString}
  {fold : PyString → PyString} {root : AbsPath} {t : Files}

/-! ### Plain names -/

/-- Where a member belongs, by its name. -/
def Member.path (fold : PyString → PyString) (m : Member) : List PyString :=
  (m.name.splitOn slash).map fold

/-- The name is relative, and has no component that does not go down to a name. -/
def PlainName (name : PyString) : Prop :=
  backslash ∉ name ∧ colon ∉ name ∧
    ∀ c ∈ name.splitOn slash, c ≠ [] ∧ c ≠ [dot] ∧ c ≠ [dot, dot]

instance (name : PyString) : Decidable (PlainName name) :=
  inferInstanceAs (Decidable (_ ∧ _ ∧ _))

lemma mem_of_mem_splitOn {c x : CodePoint} {part name : PyString} (hpart : part ∈ name.splitOn c)
    (hx : x ∈ part) : x ∈ name := by
  induction name generalizing part with
  | nil =>
      rw [List.splitOn_nil] at hpart
      rwa [List.mem_singleton.1 hpart] at hx
  | cons y name ih =>
      rw [List.splitOn_cons_eq_if_modifyHead] at hpart
      split at hpart
      · rcases List.mem_cons.1 hpart with rfl | hpart
        · cases hx
        · exact List.mem_cons_of_mem _ (ih hpart hx)
      · cases hsplit : name.splitOn c with
        | nil => exact absurd hsplit (List.splitOn_ne_nil c name)
        | cons first rest =>
            rw [hsplit] at hpart ih
            rcases List.mem_cons.1 hpart with rfl | hpart
            · rcases List.mem_cons.1 hx with rfl | hx
              · exact List.mem_cons_self
              · exact List.mem_cons_of_mem _ (ih List.mem_cons_self hx)
            · exact List.mem_cons_of_mem _ (ih (List.mem_cons_of_mem _ hpart) hx)

lemma dots_mem_splitOn (rest : PyString) :
    [dot, dot] ∈ ([dot, dot] ++ slash :: rest).splitOn slash := by
  rw [List.splitOn_append_cons_self, List.splitOn_eq_singleton (by decide)]
  exact List.mem_append_left _ (List.mem_singleton_self _)

namespace PlainName

variable {name : PyString} (h : PlainName name)
include h

lemma component_eq {c : PyString} (hc : c ∈ name.splitOn slash) : component c = .down c := by
  obtain ⟨hnil, hdot, hdots⟩ := h.2.2 c hc
  unfold component
  rw [if_neg (not_or.2 ⟨hnil, hdot⟩), if_neg hdots]

lemma splitdrive_eq {c : PyString} (hc : c ∈ name.splitOn slash) : splitdrive c = ([], c) := by
  unfold splitdrive
  refine if_neg fun heq => h.2.1 (mem_of_mem_splitOn hc ?_)
  have hmem : colon ∈ (c.drop 1).take 1 := by
    rw [heq]
    exact List.mem_singleton_self _
  exact List.mem_of_mem_drop (List.mem_of_mem_take hmem)

lemma entryName_eq : entryName name = name := by
  have hmap : (name.map fun c => if c = backslash then slash else c) = name := by
    refine (List.map_congr_left fun c hc => if_neg ?_).trans (List.map_id _)
    rintro rfl
    exact h.1 hc
  rw [entryName, hmap]
  cases hname : name with
  | nil => rfl
  | cons c rest =>
      refine List.dropWhile_cons_of_neg ?_
      intro hc
      obtain rfl : c = slash := of_decide_eq_true hc
      refine (h.2.2 [] ?_).1 rfl
      rw [hname]
      exact List.mem_append_left _ (List.mem_singleton_self _)

lemma not_skipped {m : Member} (hm : m.name = name) (hsym : m.issym = false)
    (hlnk : m.islnk = false) : ¬ Skipped m := by
  rw [Skipped, hm, h.entryName_eq, hsym, hlnk]
  rintro (hnil | ⟨rest, hrest⟩ | ⟨front, rest, hrest⟩ | hfalse | hfalse)
  · refine (h.2.2 [] ?_).1 rfl
    rw [hnil]
    exact List.mem_singleton_self _
  · refine (h.2.2 [dot, dot] ?_).2.2 rfl
    rw [← hrest]
    exact dots_mem_splitOn rest
  · refine (h.2.2 [dot, dot] ?_).2.2 rfl
    have hname : name = front ++ slash :: ([dot, dot] ++ slash :: rest) := by
      rw [← hrest, List.append_assoc]
      rfl
    rw [hname, List.splitOn_append_cons_self]
    exact List.mem_append_right _ (dots_mem_splitOn rest)
  · cases hfalse
  · cases hfalse

/-- A plain name leads to the place that it names. -/
lemma parts_memberTarget {m : Member} (hm : m.name = name) (root : AbsPath) :
    (memberTarget lower cwd root m).drive = root.drive ∧
      (memberTarget lower cwd root m).parts = root.parts ++ name.splitOn slash := by
  have hjoin : ∀ (parts : List PyString) (path : JoinedPath), parts ⊆ name.splitOn slash →
      parts.foldl (joinPart lower) path = ⟨path.drive, path.rooted, path.parts ++ parts⟩ := by
    intro parts
    induction parts with
    | nil =>
        intro path _
        rw [List.append_nil]
        rfl
    | cons c parts ih =>
        intro path hsub
        have hpart : joinPart lower path c =
            ⟨path.drive, path.rooted, path.parts ++ [c]⟩ := by
          unfold joinPart
          rw [h.splitdrive_eq (hsub List.mem_cons_self)]
          rfl
        rw [List.foldl_cons, hpart, ih _ (List.subset_of_cons_subset hsub)]
        simp
  have hdown : (root.parts ++ name.splitOn slash).map component =
      (root.parts ++ name.splitOn slash).map .down := by
    refine List.map_congr_left fun c hc => ?_
    rcases List.mem_append.1 hc with hc | hc
    · exact root.normal c hc
    · exact h.component_eq hc
  rw [memberTarget, hm, h.entryName_eq, join, hjoin _ _ (List.Subset.refl _)]
  refine ⟨rfl, ?_⟩
  change resolve [] ((root.parts ++ name.splitOn slash).map component) = _
  rw [hdown, resolve_map_down, List.nil_append]

end PlainName

lemma key_memberTarget {m : Member} (h : PlainName m.name) (root : AbsPath) :
    (memberTarget lower cwd root m).key fold = root.key fold ++ m.path fold := by
  obtain ⟨hdrive, hparts⟩ : (memberTarget lower cwd root m).drive = root.drive ∧ _ :=
    h.parts_memberTarget rfl root
  rw [AbsPath.key, hdrive, hparts, List.map_append]
  rfl

/-! ### Making folders -/

/-- The folder `p` can be made: its drive is there, and no file is on the way. -/
def Makeable (fold : PyString → PyString) (t : Files) (p : AbsPath) : Prop :=
  t.node [fold p.drive] = some .dir ∧ ∀ q, q <+: p.key fold → ∀ b, t.node q ≠ some (.file b)

/-- The folders on the path are there, and everything else is as it was. -/
def MakesFolders (t : Files) (r : Result) (path : List PyString) : Prop :=
  r.error = none ∧
    ∀ y, r.files.node y = if y <+: path then some .dir else t.node y

lemma makesFolders_done {path : List PyString} (h : t.node path = some .dir) :
    MakesFolders t (.done t) path := by
  refine ⟨rfl, fun y => ?_⟩
  split
  · next hy => exact FileTree.node_eq_dir_of_prefix h hy
  · rfl

lemma mkdir_eq {path : List PyString} {n : PyString} {q : AbsPath}
    (hq : q.key fold = path ++ [n]) (hparts : q.parts ≠ []) (hparent : t.node path = some .dir)
    (hfile : ∀ b, t.node (path ++ [n]) ≠ some (.file b)) :
    (mkdir fold t q).error = none ∧
      (t.node (path ++ [n]) = none → .mkdir q ∈ (mkdir fold t q).effects) ∧
      ∀ y, (mkdir fold t q).files.node y = if y = path ++ [n] then some .dir else t.node y := by
  rw [mkdir, hq]
  cases hn : t.node (path ++ [n]) with
  | none =>
      obtain ⟨u, hu, hnode⟩ := FileTree.makeDir_append hparent hn
      dsimp only
      rw [if_neg hparts, hu]
      exact ⟨rfl, fun _ => List.mem_singleton_self _, hnode⟩
  | some x =>
      cases x with
      | file b => exact absurd hn (hfile b)
      | dir =>
          refine ⟨rfl, nofun, fun y => ?_⟩
          by_cases hy : y = path ++ [n]
          · rw [if_pos hy, hy]
            exact hn
          · rw [if_neg hy]
            rfl

lemma node_append_of_makesFolders {r : Result} {path : List PyString} (n : PyString)
    (h : MakesFolders t r path) : r.files.node (path ++ [n]) = t.node (path ++ [n]) := by
  rw [h.2, if_neg]
  intro hprefix
  have hlength := hprefix.length_le
  rw [List.length_append, List.length_singleton] at hlength
  omega

/-- One more folder, where no file is. -/
lemma MakesFolders.mkdir {r : Result} {path : List PyString} {n : PyString} {q : AbsPath}
    (h : MakesFolders t r path) (hq : q.key fold = path ++ [n]) (hparts : q.parts ≠ [])
    (hfile : ∀ b, t.node (path ++ [n]) ≠ some (.file b)) :
    MakesFolders t (r.andThen fun u => mkdir fold u q) (path ++ [n]) := by
  have hsame := node_append_of_makesFolders n h
  obtain ⟨herror, hnode⟩ := h
  have hparent : r.files.node path = some .dir := by rw [hnode, if_pos List.prefix_rfl]
  obtain ⟨herror', -, hnode'⟩ := mkdir_eq (t := r.files) hq hparts hparent fun b => by
    rw [hsame]
    exact hfile b
  unfold Result.andThen
  rw [herror]
  refine ⟨herror', fun y => (hnode' y).trans ?_⟩
  -- the new folder is the one more prefix
  by_cases heq : y = path ++ [n]
  · rw [if_pos heq, heq, if_pos List.prefix_rfl]
  · rw [if_neg heq, hnode]
    exact if_congr (by rw [List.prefix_concat_iff, or_iff_right heq]) rfl rfl

variable (fold) in
/-- One name more. -/
lemma key_take_succ {q : AbsPath} {k : ℕ} (hk : k < q.parts.length) :
    ∃ n, (q.take (k + 1)).key fold = (q.take k).key fold ++ [n] := by
  have hlength : k + 1 < (q.key fold).length := by
    rw [length_key]
    exact Nat.succ_lt_succ hk
  exact ⟨_, by rw [key_take, key_take, List.take_succ_eq_append_getElem hlength]⟩

lemma take_parts_ne_nil {q : AbsPath} {k : ℕ} (hk : k < q.parts.length) :
    (q.take (k + 1)).parts ≠ [] := by
  intro hnil
  have hlength := congrArg List.length hnil
  rw [AbsPath.take, List.length_take, List.length_nil] at hlength
  omega

lemma take_length (q : AbsPath) : q.take q.parts.length = q := by
  obtain ⟨drive, parts, normal⟩ := q
  simp only [AbsPath.take, List.take_length]

lemma Makeable.take {q : AbsPath} (h : Makeable fold t q) (k : ℕ) :
    Makeable fold t (q.take k) := by
  refine ⟨h.1, fun y hy => h.2 y (hy.trans ?_)⟩
  rw [key_take]
  exact List.take_prefix _ _

/-- What is there, on a path that can be made, is a folder. -/
lemma node_eq_dir_of_makeable {q : AbsPath} (h : Makeable fold t q)
    (hsome : t.node (q.key fold) ≠ none) : t.node (q.key fold) = some .dir := by
  cases hnode : t.node (q.key fold) with
  | none => exact absurd hnode hsome
  | some x =>
      cases x with
      | dir => rfl
      | file b => exact absurd hnode (h.2 _ List.prefix_rfl b)

/-- `os.makedirs` for the first names of the path, where no file is in the way. -/
lemma makesFolders_makedirsUpTo {q : AbsPath} (h : Makeable fold t q) {k : ℕ}
    (hk : k ≤ q.parts.length) :
    MakesFolders t (makedirsUpTo fold t q k) ((q.take k).key fold) := by
  induction k with
  | zero =>
      have hdrive : t.node ((q.take 0).key fold) = some .dir := h.1
      rw [makedirsUpTo, mkdir, hdrive]
      exact makesFolders_done hdrive
  | succ k ih =>
      obtain ⟨n, hn⟩ := key_take_succ fold (Nat.lt_of_succ_le hk)
      have hfile := (h.take (k + 1)).2 _ List.prefix_rfl
      rw [makedirsUpTo, hn]
      rw [hn] at hfile
      refine MakesFolders.mkdir ?_ hn (take_parts_ne_nil (Nat.lt_of_succ_le hk)) hfile
      split
      · exact ih (Nat.le_of_succ_le hk)
      · next hsome =>
          exact makesFolders_done (node_eq_dir_of_makeable (h.take k) hsome)

/-- `os.makedirs`, where no file is in the way. -/
lemma makesFolders_makedirs {q : AbsPath} (h : Makeable fold t q) :
    MakesFolders t (makedirs fold t q) (q.key fold) := by
  have hall := makesFolders_makedirsUpTo h le_rfl
  rwa [take_length] at hall

/-! ### What an archive holds -/

/-- The data of the member, if it is a file of that name. -/
def Member.dataAt (fold : PyString → PyString) (path : List PyString) (m : Member) :
    Option Bytes :=
  match m.type with
  | .regular data => if m.path fold = path then some data else none
  | _ => none

/-- What the members say about a path: the last file of that name, or a folder if there is one of
that name or something belongs into it. -/
def archiveNode (fold : PyString → PyString) (members : List Member) (path : List PyString) :
    Option (Node Bytes) :=
  match (members.filterMap (Member.dataAt fold path)).getLast? with
  | some data => some (.file data)
  | none =>
      if path = [] ∨ ∃ m ∈ members, m.Kept ∧ path <+: m.path fold then some .dir else none

/-- No path is used both for a file and for a folder. -/
def Separate (fold : PyString → PyString) (members : List Member) : Prop :=
  ∀ m ∈ members, ∀ m' ∈ members, m.isfile = true → m'.Kept → m.path fold <+: m'.path fold →
    m'.isfile = true ∧ m'.path fold = m.path fold

instance (members : List Member) : Decidable (Separate fold members) :=
  inferInstanceAs (Decidable (∀ m ∈ members, ∀ m' ∈ members, m.isfile = true → m'.Kept →
    m.path fold <+: m'.path fold → m'.isfile = true ∧ m'.path fold = m.path fold))

variable {members : List Member} {m : Member} {path : List PyString} {data : Bytes}

lemma path_ne_nil (m : Member) : m.path fold ≠ [] := by
  rw [Member.path, ne_eq, List.map_eq_nil_iff]
  exact List.splitOn_ne_nil _ _

lemma dataAt_eq_some : m.dataAt fold path = some data ↔
    m.type = .regular data ∧ m.path fold = path := by
  unfold Member.dataAt
  split
  · next data' hdata =>
      rw [hdata]
      by_cases hpath : m.path fold = path <;> simp [hpath]
  · next hnot => simpa using fun h => absurd h (hnot data)

lemma isfile_of_type (h : m.type = .regular data) : m.isfile = true := by
  rw [Member.isfile, h]

lemma exists_type_of_isfile (h : m.isfile = true) : ∃ data, m.type = .regular data := by
  unfold Member.isfile at h
  split at h
  · next data hdata => exact ⟨data, hdata⟩
  · cases h

lemma type_of_isdir (h : m.isdir = true) : m.type = .directory := by
  unfold Member.isdir at h
  split at h
  · next htype => exact htype
  · cases h

lemma Separate.mono {members' : List Member} (h : Separate fold members)
    (hsub : members' ⊆ members) : Separate fold members' :=
  fun m hm m' hm' => h m (hsub hm) m' (hsub hm')

/-- Nothing is a file where the path of another member leads through. -/
lemma filterMap_dataAt_eq_nil (hsep : Separate fold (members ++ [m])) (hkept : m.Kept)
    (hpath : path <+: m.path fold) (hne : m.isfile = true → path ≠ m.path fold) :
    members.filterMap (Member.dataAt fold path) = [] := by
  refine List.filterMap_eq_nil_iff.2 fun m' hm' => ?_
  by_contra hsome
  obtain ⟨data, hdata⟩ := Option.ne_none_iff_exists'.1 hsome
  obtain ⟨htype, rfl⟩ := dataAt_eq_some.1 hdata
  obtain ⟨hfile, heq⟩ := hsep m' (List.mem_append_left _ hm') m
    (List.mem_append_right _ (List.mem_singleton_self _)) (isfile_of_type htype) hkept hpath
  exact hne hfile heq.symm

/-- A file is not written where a folder is. -/
lemma archiveNode_ne_dir (hsep : Separate fold (members ++ [m])) (hfile : m.isfile = true) :
    archiveNode fold members (m.path fold) ≠ some .dir := by
  unfold archiveNode
  split
  · simp
  · next hnone =>
      rw [List.getLast?_eq_none_iff, List.filterMap_eq_nil_iff] at hnone
      rw [if_neg]
      · simp
      · rintro (hnil | ⟨m', hm', hkept, hpath⟩)
        · exact path_ne_nil m hnil
        · obtain ⟨hfile', heq⟩ := hsep m (List.mem_append_right _ (List.mem_singleton_self _)) m'
            (List.mem_append_left _ hm') hfile hkept hpath
          obtain ⟨data, hdata⟩ := exists_type_of_isfile hfile'
          have hsome := dataAt_eq_some.2 ⟨hdata, heq⟩
          rw [hnone m' hm'] at hsome
          cases hsome

/-- One more member that is a folder, or whose path is longer than this one. -/
lemma archiveNode_concat_folder (hsep : Separate fold (members ++ [m])) (hkept : m.Kept)
    (hpath : path <+: m.path fold) (hne : m.isfile = true → path ≠ m.path fold) :
    archiveNode fold (members ++ [m]) path = some .dir := by
  have hm : m.dataAt fold path = none := by
    by_contra hsome
    obtain ⟨data, hdata⟩ := Option.ne_none_iff_exists'.1 hsome
    obtain ⟨htype, heq⟩ := dataAt_eq_some.1 hdata
    exact hne (isfile_of_type htype) heq.symm
  unfold archiveNode
  rw [List.filterMap_append, filterMap_dataAt_eq_nil hsep hkept hpath hne,
    List.filterMap_cons_none hm]
  exact if_pos (Or.inr ⟨m, List.mem_append_right _ (List.mem_singleton_self _), hkept, hpath⟩)

/-- One more file, at its own path. -/
lemma archiveNode_concat_self (htype : m.type = .regular data) :
    archiveNode fold (members ++ [m]) (m.path fold) = some (.file data) := by
  unfold archiveNode
  rw [List.filterMap_append, List.filterMap_cons_some (dataAt_eq_some.2 ⟨htype, rfl⟩),
    List.filterMap_nil, List.getLast?_concat]

/-- One more member does not matter to the paths that do not lead to it. -/
lemma archiveNode_concat_elsewhere (h : m.Kept → ¬ path <+: m.path fold) :
    archiveNode fold (members ++ [m]) path = archiveNode fold members path := by
  have hm : m.dataAt fold path = none := by
    by_contra hsome
    obtain ⟨data, hdata⟩ := Option.ne_none_iff_exists'.1 hsome
    obtain ⟨htype, rfl⟩ := dataAt_eq_some.1 hdata
    exact h (Or.inr (isfile_of_type htype)) List.prefix_rfl
  unfold archiveNode
  rw [List.filterMap_append, List.filterMap_cons_none hm, List.filterMap_nil, List.append_nil]
  have hiff : (∃ m' ∈ members ++ [m], m'.Kept ∧ path <+: m'.path fold) ↔
      ∃ m' ∈ members, m'.Kept ∧ path <+: m'.path fold := by
    constructor
    · rintro ⟨m', hm', hkept, hpath⟩
      rcases List.mem_append.1 hm' with hm' | hm'
      · exact ⟨m', hm', hkept, hpath⟩
      · rw [List.mem_singleton.1 hm'] at hkept hpath
        exact absurd hpath (h hkept)
    · rintro ⟨m', hm', hrest⟩
      exact ⟨m', List.mem_append_left _ hm', hrest⟩
  simp only [hiff]

/-! ### The extraction of an archive -/

/-- The destination holds what the members say. -/
def Holds (fold : PyString → PyString) (root : AbsPath) (t : Files) (members : List Member) :
    Prop :=
  ∀ path, t.node (root.key fold ++ path) = archiveNode fold members path

lemma Holds.dir (h : Holds fold root t members) : t.node (root.key fold) = some .dir := by
  have hroot := h []
  rw [List.append_nil] at hroot
  rw [hroot, archiveNode]
  have hnil : members.filterMap (Member.dataAt fold []) = [] := by
    refine List.filterMap_eq_nil_iff.2 fun m _ => ?_
    by_contra hsome
    obtain ⟨data, hdata⟩ := Option.ne_none_iff_exists'.1 hsome
    exact path_ne_nil m (dataAt_eq_some.1 hdata).2
  rw [hnil]
  exact if_pos (Or.inl rfl)

/-- In the folder of the destination a path is on the way to another if it is so from there. -/
lemma prefix_key_iff {q : List PyString} :
    root.key fold ++ path <+: root.key fold ++ q ↔ path <+: q :=
  List.prefix_append_right_inj _

/-- A folder is made with a plain name. -/
lemma makesFolders_of_holds (h : Holds fold root t members) {q : AbsPath}
    (hq : q.key fold = root.key fold ++ path)
    (hfile : ∀ y, y <+: path → ∀ b, archiveNode fold members y ≠ some (.file b)) :
    MakesFolders t (makedirs fold t q) (root.key fold ++ path) := by
  rw [← hq]
  have hdrive : [fold q.drive] <+: root.key fold := by
    have hprefix : root.key fold <+: q.key fold := hq ▸ List.prefix_append _ path
    obtain ⟨heq, -⟩ := List.cons_prefix_cons.1 hprefix
    exact heq ▸ List.cons_prefix_cons.2 ⟨rfl, List.nil_prefix⟩
  refine makesFolders_makedirs ⟨FileTree.node_eq_dir_of_prefix h.dir hdrive, fun y hy b hb => ?_⟩
  rw [hq] at hy
  rcases List.prefix_or_prefix_of_prefix hy (List.prefix_append _ path) with hroot | hroot
  · rw [FileTree.node_eq_dir_of_prefix h.dir hroot] at hb
    cases hb
  · obtain ⟨rest, rfl⟩ := hroot
    rw [h] at hb
    exact hfile rest (prefix_key_iff.1 hy) b hb

/-- No file is in the way of a member. -/
lemma archiveNode_ne_file (hsep : Separate fold (members ++ [m])) (hkept : m.Kept)
    (hpath : path <+: m.path fold) (hne : m.isfile = true → path ≠ m.path fold) (b : Bytes) :
    archiveNode fold members path ≠ some (.file b) := by
  unfold archiveNode
  rw [filterMap_dataAt_eq_nil hsep hkept hpath hne]
  dsimp only [List.getLast?_nil]
  split <;> simp

section Turn

variable (lower cwd root t)

/-- The place that a plain name leads to is in the destination. -/
lemma commonpath_of_plain (hplain : PlainName m.name) :
    commonpath lower root (memberTarget lower cwd root m) = some root.parts := by
  obtain ⟨hdrive, hparts⟩ : (memberTarget lower cwd root m).drive = root.drive ∧ _ :=
    hplain.parts_memberTarget rfl root
  unfold commonpath
  rw [hdrive, if_pos rfl, hparts]
  refine congrArg some ((commonPrefix_eq_left_iff lower).2 ?_)
  rw [List.map_append]
  exact List.prefix_append _ _

lemma extractMember_directory (hplain : PlainName m.name) (htype : m.type = .directory) :
    extractMember lower cwd fold root m t = makedirs fold t (memberTarget lower cwd root m) := by
  have hskipped : ¬ Skipped m :=
    hplain.not_skipped rfl (by rw [Member.issym, htype]) (by rw [Member.islnk, htype])
  have hdir : m.isdir = true := by rw [Member.isdir, htype]
  unfold extractMember
  rw [if_neg hskipped]
  dsimp only
  rw [commonpath_of_plain lower cwd root hplain]
  dsimp only
  rw [if_neg (not_not.2 rfl), if_pos hdir]

lemma extractMember_regular (hplain : PlainName m.name) (htype : m.type = .regular data) :
    extractMember lower cwd fold root m t =
      (makedirs fold t (memberTarget lower cwd root m).dirname).andThen fun u =>
        writeFile fold u (memberTarget lower cwd root m) data := by
  have hskipped : ¬ Skipped m :=
    hplain.not_skipped rfl (by rw [Member.issym, htype]) (by rw [Member.islnk, htype])
  have hdir : ¬ m.isdir = true := by simp [Member.isdir, htype]
  have hsource : extractfile m = some data := by rw [extractfile, htype]
  unfold extractMember
  rw [if_neg hskipped]
  dsimp only
  rw [commonpath_of_plain lower cwd root hplain]
  dsimp only
  rw [if_neg (not_not.2 rfl), if_neg hdir, if_pos (isfile_of_type htype), hsource]

lemma extractMember_of_not_kept (hplain : PlainName m.name) (hkept : ¬ m.Kept) :
    extractMember lower cwd fold root m t = .done t := by
  obtain ⟨hdir, hfile⟩ := not_or.1 hkept
  unfold extractMember
  by_cases hskipped : Skipped m
  · rw [if_pos hskipped]
  · rw [if_neg hskipped]
    dsimp only
    rw [commonpath_of_plain lower cwd root hplain]
    dsimp only
    rw [if_neg (not_not.2 rfl), if_neg hdir, if_neg hfile]

end Turn

/-- A folder. -/
lemma holds_directory (h : Holds fold root t members) (hplain : PlainName m.name)
    (hsep : Separate fold (members ++ [m])) (htype : m.type = .directory) :
    (extractMember lower cwd fold root m t).error = none ∧
      Holds fold root (extractMember lower cwd fold root m t).files (members ++ [m]) := by
  have hkept : m.Kept := Or.inl (by rw [Member.isdir, htype])
  have hnot : m.isfile = true → ∀ y, y ≠ m.path fold := by
    intro hfile
    rw [Member.isfile, htype] at hfile
    cases hfile
  have hkey : (memberTarget lower cwd root m).key fold = root.key fold ++ m.path fold :=
    key_memberTarget hplain root
  obtain ⟨herror, hnode⟩ := makesFolders_of_holds h hkey fun y hy =>
    archiveNode_ne_file hsep hkept hy fun hfile => hnot hfile y
  rw [extractMember_directory lower cwd root t hplain htype]
  refine ⟨herror, fun path => (hnode _).trans ?_⟩
  rw [if_congr prefix_key_iff rfl (h path)]
  split
  · next hpath =>
      exact (archiveNode_concat_folder hsep hkept hpath fun hfile => hnot hfile path).symm
  · next hpath => exact (archiveNode_concat_elsewhere fun _ => hpath).symm

/-- A file, which may be there already. -/
lemma holds_regular (h : Holds fold root t members) (hplain : PlainName m.name)
    (hsep : Separate fold (members ++ [m])) (htype : m.type = .regular data) :
    (extractMember lower cwd fold root m t).error = none ∧
      Holds fold root (extractMember lower cwd fold root m t).files (members ++ [m]) := by
  have hfile := isfile_of_type htype
  have hkept : m.Kept := Or.inr hfile
  obtain ⟨n, hn⟩ : ∃ n, m.path fold = (m.path fold).dropLast ++ [n] :=
    ⟨_, (List.dropLast_append_getLast (path_ne_nil m)).symm⟩
  have hshort : ∀ y, y <+: (m.path fold).dropLast → y ≠ m.path fold := by
    rintro y hy rfl
    have hlength := hy.length_le
    rw [List.length_dropLast] at hlength
    have hpos : 0 < (m.path fold).length := List.length_pos_iff.2 (path_ne_nil m)
    omega
  have hkey : (memberTarget lower cwd root m).key fold = root.key fold ++ m.path fold :=
    key_memberTarget hplain root
  have hparts : (memberTarget lower cwd root m).parts ≠ [] := by
    rw [(hplain.parts_memberTarget rfl root).2]
    exact List.append_ne_nil_of_right_ne_nil _ (List.splitOn_ne_nil _ _)
  have hfolder : (memberTarget lower cwd root m).dirname.key fold =
      root.key fold ++ (m.path fold).dropLast := by
    rw [key_dirname_of_parts fold hparts, hkey, List.dropLast_append_of_ne_nil (path_ne_nil m)]
  obtain ⟨herror, hnode⟩ := makesFolders_of_holds h hfolder fun y hy =>
    archiveNode_ne_file hsep hkept (hy.trans (List.dropLast_prefix _)) fun _ => hshort y hy
  rw [extractMember_regular lower cwd root t hplain htype, Result.andThen, herror]
  dsimp only
  -- the folder of the file is there now, and the file itself is as it was
  have hparent : (makedirs fold t (memberTarget lower cwd root m).dirname).files.node
      (root.key fold ++ (m.path fold).dropLast) = some .dir := by
    rw [hnode, if_pos List.prefix_rfl]
  have hself : root.key fold ++ (m.path fold).dropLast ++ [n] =
      root.key fold ++ m.path fold := by
    rw [List.append_assoc, ← hn]
  have hnotDir : (makedirs fold t (memberTarget lower cwd root m).dirname).files.node
      (root.key fold ++ (m.path fold).dropLast ++ [n]) ≠ some .dir := by
    rw [hself, hnode, if_neg, h]
    · exact archiveNode_ne_dir hsep hfile
    · exact fun hprefix => hshort _ (prefix_key_iff.1 hprefix) rfl
  obtain ⟨u, hu, hwritten⟩ := FileTree.writeFile_append data hparent hnotDir
  rw [hself] at hu hwritten
  unfold writeFile
  rw [if_neg hparts, hkey, hu]
  refine ⟨rfl, fun path => (hwritten _).trans ?_⟩
  by_cases hpath : path = m.path fold
  · rw [hpath, if_pos rfl]
    exact (archiveNode_concat_self htype).symm
  · have hiff : path <+: (m.path fold).dropLast ↔ path <+: m.path fold := by
      rw [hn, List.dropLast_concat, List.prefix_concat_iff, or_iff_right (hn ▸ hpath)]
    rw [if_neg fun heq => hpath (List.append_cancel_left heq), hnode,
      if_congr (prefix_key_iff.trans hiff) rfl (h path)]
    split
    · next hprefix =>
        exact (archiveNode_concat_folder hsep hkept hprefix fun _ => hpath).symm
    · next hprefix => exact (archiveNode_concat_elsewhere fun _ => hprefix).symm

/-- A turn of the loop, for a member with a plain name. -/
lemma holds_extractMember (h : Holds fold root t members) (hplain : PlainName m.name)
    (hsep : Separate fold (members ++ [m])) :
    (extractMember lower cwd fold root m t).error = none ∧
      Holds fold root (extractMember lower cwd fold root m t).files (members ++ [m]) := by
  by_cases hkept : m.Kept
  · rcases hkept with hdir | hfile
    · exact holds_directory h hplain hsep (type_of_isdir hdir)
    · obtain ⟨data, htype⟩ := exists_type_of_isfile hfile
      exact holds_regular h hplain hsep htype
  · rw [extractMember_of_not_kept lower cwd root t hplain hkept]
    exact ⟨rfl, fun path =>
      (h path).trans (archiveNode_concat_elsewhere fun hm => absurd hm hkept).symm⟩

/-- The loop. -/
lemma holds_extractMembers (rest : List Member) (h : Holds fold root t members)
    (hplain : ∀ m ∈ rest, PlainName m.name) (hsep : Separate fold (members ++ rest)) :
    (extractMembers lower cwd fold root rest t).error = none ∧
      Holds fold root (extractMembers lower cwd fold root rest t).files (members ++ rest) := by
  induction rest generalizing members t with
  | nil => exact ⟨rfl, by rwa [List.append_nil]⟩
  | cons m rest ih =>
      have hsplit : members ++ m :: rest = members ++ [m] ++ rest := List.append_cons _ _ _
      rw [hsplit] at hsep ⊢
      obtain ⟨herror, hholds⟩ : (extractMember lower cwd fold root m t).error = none ∧ _ :=
        holds_extractMember h (hplain m List.mem_cons_self)
          (hsep.mono (List.subset_append_left _ _))
      rw [extractMembers, Result.andThen, herror]
      exact ih hholds (fun m' hm' => hplain m' (List.mem_cons_of_mem _ hm')) hsep

/-- An empty folder holds what no members say. -/
lemma holds_nil (hdir : t.node (root.key fold) = some .dir)
    (hempty : ∀ n, t.node (root.key fold ++ [n]) = none) : Holds fold root t [] := by
  intro path
  cases path with
  | nil =>
      rw [List.append_nil, hdir]
      rfl
  | cons n path =>
      have hnone : archiveNode fold [] (n :: path) = none := by simp [archiveNode]
      rw [hnone]
      by_contra hsome
      by_cases hpath : path = []
      · exact hsome (hpath ▸ hempty n)
      · rw [List.append_cons] at hsome
        have hfolder := FileTree.node_eq_dir_of_append path hpath hsome
        rw [hempty] at hfolder
        cases hfolder

end SamsungTVVoices.Store.Extract
