/-
Where the extraction leaves the destination (`firmwareStore._safeTarExtract`).

`os.path.commonpath` compares names in lower case.  It takes a name with the Kelvin sign for a name
with the letter k, and the file system of Windows does not.  A member whose name spells the way to
the destination like this passes the comparison, and is put elsewhere.  The extraction is right
exactly if it comes to no such member while there is something to be made for it.
-/
import SamsungTVVoices.Store.Extracted

namespace SamsungTVVoices.Store.Extract

open Driver (CodePoint PyString)

variable {lower : PyString → PyString} {cwd : PyString → List PyString}
  {fold : PyString → PyString} {root p : AbsPath} {m : Member} {members : List Member}
  {t u : Files}

/-! ### Folders that cannot be made -/

/-- Nothing has been made, and an error raised. -/
def Result.Refused (r : Result) (t : Files) : Prop := r.Idle t ∧ r.error ≠ none

lemma refused_raise (t : Files) (e : ExtractError) : (Result.raise t e).Refused t :=
  ⟨idle_raise t e, Option.some_ne_none e⟩

lemma Result.Refused.andThen {r : Result} (h : r.Refused t) (next : Files → Result) :
    (r.andThen next).Refused t := by
  obtain ⟨e, he⟩ := Option.ne_none_iff_exists'.1 h.2
  have hsame : r.andThen next = r := by
    unfold Result.andThen
    rw [he]
  rwa [hsame]

/-- After a part that has made nothing and gone well, only the next part counts. -/
lemma Result.Idle.andThen {r : Result} {next : Files → Result} (h : r.Idle t)
    (herror : r.error = none) (hnext : (next t).Idle t) : (r.andThen next).Idle t := by
  obtain ⟨rfl, heffects⟩ := h
  unfold Result.andThen
  rw [herror]
  refine ⟨hnext.1, ?_⟩
  dsimp only
  rw [heffects, hnext.2, List.append_nil]

/-- No folder is made where nothing is, if the folder above is missing too. -/
lemma refused_mkdir {q : AbsPath} (hdir : t.node (q.key fold) ≠ some .dir)
    (hparent : t.node (q.key fold) = none →
      q.parts = [] ∨ t.node (q.key fold).dropLast ≠ some .dir) :
    (mkdir fold t q).Refused t := by
  unfold mkdir
  split
  · next h => exact absurd h hdir
  · exact refused_raise t _
  · next hnone =>
      split
      · exact refused_raise t _
      · next hparts =>
          split
          · next v hv =>
              have hnot := (hparent hnone).resolve_left hparts
              exact absurd hv (by rw [FileTree.makeDir_eq_none hnone hnot]; exact nofun)
          · exact refused_raise t _

lemma makeable_of_dir (h : t.node (p.key fold) = some .dir) : Makeable fold t p := by
  refine ⟨FileTree.node_eq_dir_of_prefix h (List.cons_prefix_cons.2 ⟨rfl, List.nil_prefix⟩), ?_⟩
  intro q hq b hb
  rw [FileTree.node_eq_dir_of_prefix h hq] at hb
  cases hb

lemma makeable_of_take {k : ℕ} (hk : k < p.parts.length) (h : Makeable fold t (p.take k))
    (hfile : ∀ b, t.node ((p.take (k + 1)).key fold) ≠ some (.file b)) :
    Makeable fold t (p.take (k + 1)) := by
  obtain ⟨n, hn⟩ := key_take_succ fold hk
  refine ⟨h.1, fun q hq => ?_⟩
  rw [hn, List.prefix_concat_iff] at hq
  rcases hq with rfl | hq
  · rwa [← hn]
  · exact h.2 q hq

/-- `os.makedirs` for the first names of a path with a file in the way, or without its drive. -/
lemma refused_makedirsUpTo {k : ℕ} (hk : k ≤ p.parts.length)
    (h : ¬ Makeable fold t (p.take k)) : (makedirsUpTo fold t p k).Refused t := by
  have hdir : ∀ {k}, ¬ Makeable fold t (p.take k) →
      t.node ((p.take k).key fold) ≠ some .dir := fun hnot heq => hnot (makeable_of_dir heq)
  induction k with
  | zero => exact refused_mkdir (hdir h) fun _ => Or.inl rfl
  | succ k ih =>
      have hlt := Nat.lt_of_succ_le hk
      obtain ⟨n, hn⟩ := key_take_succ fold hlt
      rw [makedirsUpTo]
      by_cases hnone : t.node ((p.take k).key fold) = none
      · -- nothing is there, and it is the folder above that cannot be made
        rw [if_pos hnone]
        refine Result.Refused.andThen (ih (Nat.le_of_succ_le hk) fun hmake => h ?_) _
        refine makeable_of_take hlt hmake fun b hb => ?_
        rw [hn] at hb
        rw [FileTree.parent _ _ _ (by rw [hb]; exact Option.some_ne_none _)] at hnone
        cases hnone
      · rw [if_neg hnone]
        have hrefused : (mkdir fold t (p.take (k + 1))).Refused t := by
          refine refused_mkdir (hdir h) fun hnew => Or.inr ?_
          rw [hn, List.dropLast_concat]
          intro hparent
          refine h (makeable_of_take hlt (makeable_of_dir hparent) fun b hb => ?_)
          rw [hnew] at hb
          cases hb
        exact hrefused

lemma refused_makedirs (h : ¬ Makeable fold t p) : (makedirs fold t p).Refused t :=
  refused_makedirsUpTo le_rfl (by rwa [take_length])

/-- A folder that is there need not be made. -/
lemma makedirs_of_dir (h : t.node (p.key fold) = some .dir) : makedirs fold t p = .done t := by
  have hupTo : ∀ k, makedirsUpTo fold t p k = .done t := by
    have hmkdir : ∀ k, mkdir fold t (p.take k) = .done t := by
      intro k
      have hprefix : (p.take k).key fold <+: p.key fold := by
        rw [key_take]
        exact List.take_prefix _ _
      rw [mkdir, FileTree.node_eq_dir_of_prefix h hprefix]
    intro k
    induction k with
    | zero => exact hmkdir 0
    | succ k ih =>
        rw [makedirsUpTo, ih, ite_self]
        exact hmkdir (k + 1)
  exact hupTo _

/-- A folder that is not there is made. -/
lemma mem_effects_makedirs (h : Makeable fold t p) (hdir : t.node (p.key fold) ≠ some .dir) :
    .mkdir p ∈ (makedirs fold t p).effects := by
  have hnone : t.node (p.key fold) = none := by
    cases hnode : t.node (p.key fold) with
    | none => rfl
    | some x =>
        cases x with
        | dir => exact absurd hnode hdir
        | file b => exact absurd hnode (h.2 _ List.prefix_rfl b)
  have hparts : 0 < p.parts.length := by
    refine List.length_pos_iff.2 fun hnil => hdir ?_
    rw [AbsPath.key, hnil]
    exact h.1
  obtain ⟨k, hk⟩ := Nat.exists_eq_succ_of_ne_zero hparts.ne'
  have hlt : k < p.parts.length := hk ▸ Nat.lt_succ_self k
  have htake : p.take (k + 1) = p := by rw [← Nat.succ_eq_add_one, ← hk, take_length]
  obtain ⟨n, hn⟩ := key_take_succ fold hlt
  rw [htake] at hn
  have habove : MakesFolders t
      (if t.node ((p.take k).key fold) = none then makedirsUpTo fold t p k else .done t)
      ((p.take k).key fold) := by
    split
    · exact makesFolders_makedirsUpTo h hlt.le
    · next hsome => exact makesFolders_done (node_eq_dir_of_makeable (h.take k) hsome)
  rw [makedirs, hk, Nat.succ_eq_add_one, makedirsUpTo, htake]
  have hsame := node_append_of_makesFolders n habove
  rw [← hn, hnone] at hsame
  obtain ⟨-, heffect, -⟩ := mkdir_eq hn (List.length_pos_iff.1 hparts)
    (by rw [habove.2, if_pos List.prefix_rfl])
    (by rw [← hn, hsame]; exact fun b => (Option.some_ne_none _).symm)
  unfold Result.andThen
  rw [habove.1]
  exact List.mem_append_right _ (heffect (by rw [← hn, hsame]))

/-! ### Members that lead past the destination -/

/-- The loop comes to the member `m`, with the files as they are then. -/
inductive Reached (lower : PyString → PyString) (cwd : PyString → List PyString)
    (fold : PyString → PyString) (root : AbsPath) :
    List Member → Files → Member → Files → Prop where
  | head (m : Member) (members : List Member) (t : Files) :
      Reached lower cwd fold root (m :: members) t m t
  | tail {m m' : Member} {members : List Member} {t u : Files}
      (herror : (extractMember lower cwd fold root m t).error = none)
      (hreached : Reached lower cwd fold root members
        (extractMember lower cwd fold root m t).files m' u) :
      Reached lower cwd fold root (m :: members) t m' u

/-- The member leads into the destination for `os.path`, and elsewhere for the file system. -/
def Respelled (lower : PyString → PyString) (cwd : PyString → List PyString)
    (fold : PyString → PyString) (root : AbsPath) (m : Member) : Prop :=
  m.Kept ∧ ¬ Skipped m ∧ Inside lower root (memberTarget lower cwd root m) ∧
    ¬ Inside fold root (memberTarget lower cwd root m)

/-- There is something to be made for the member, and nothing in its way. -/
def Open (fold : PyString → PyString) (m : Member) (t : Files) (target : AbsPath) : Prop :=
  t.node (target.key fold) ≠ some .dir ∧
    Makeable fold t (if m.isfile then target.dirname else target)

lemma not_isdir_of_isfile (h : m.isfile = true) : ¬ m.isdir = true := by
  obtain ⟨data, htype⟩ := exists_type_of_isfile h
  simp [Member.isdir, htype]

/-- A file is opened where its folder has been made. -/
lemma mem_effects_writeFile {data : Bytes} (h : MakesFolders t (.done u) (p.dirname.key fold))
    (hparts : p.parts ≠ []) (hdir : t.node (p.key fold) ≠ some .dir) :
    .openFile p ∈ (writeFile fold u p data).effects := by
  have hkey : p.key fold ≠ [] := List.cons_ne_nil _ _
  have hself := List.dropLast_append_getLast hkey
  have hfolder := key_dirname_of_parts fold hparts
  have hnode : u.node (p.key fold) = t.node (p.key fold) := by
    have hsame := node_append_of_makesFolders ((p.key fold).getLast hkey) h
    rwa [hfolder, hself] at hsame
  have hparent : u.node (p.key fold).dropLast = some .dir := by
    rw [← hfolder]
    exact (h.2 _).trans (if_pos List.prefix_rfl)
  obtain ⟨v, hv, -⟩ := FileTree.writeFile_append (n := (p.key fold).getLast hkey) data hparent
    (by rw [hself, hnode]; exact hdir)
  rw [hself] at hv
  unfold writeFile
  rw [if_neg hparts, hv]
  exact List.mem_singleton_self _

/-- No file is opened where a folder is. -/
lemma idle_writeFile (data : Bytes) (hdir : t.node (p.key fold) = some .dir) :
    (writeFile fold t p data).Idle t := by
  unfold writeFile
  split
  · exact idle_raise t _
  · split
    · next v hv => exact absurd hdir (FileTree.writeFile_eq_some hv).1
    · exact idle_raise t _

section Turn

variable (h : Respelled lower cwd fold root m)
include h

/-- A member that leads past the destination is made there, if there is something to be made. -/
lemma Respelled.exists_effect (hopen : Open fold m t (memberTarget lower cwd root m)) :
    ∃ e ∈ (extractMember lower cwd fold root m t).effects, ¬ Inside fold root e.path := by
  obtain ⟨hkept, hskipped, hinside, houtside⟩ := h
  obtain ⟨hdir, hmake⟩ := hopen
  rw [extractMember_of_inside hskipped hinside]
  by_cases hfile : m.isfile = true
  · obtain ⟨data, htype⟩ := exists_type_of_isfile hfile
    have hsource : extractfile m = some data := by rw [extractfile, htype]
    rw [if_pos hfile] at hmake
    rw [if_neg (not_isdir_of_isfile hfile), if_pos hfile, hsource]
    have hparts : (memberTarget lower cwd root m).parts ≠ [] := by
      intro hnil
      refine hdir ?_
      rw [AbsPath.key, hnil]
      exact hmake.1
    have hfolders := makesFolders_makedirs hmake
    refine ⟨.openFile (memberTarget lower cwd root m), ?_, houtside⟩
    unfold Result.andThen
    rw [hfolders.1]
    exact List.mem_append_right _ (mem_effects_writeFile ⟨rfl, hfolders.2⟩ hparts hdir)
  · have hisdir : m.isdir = true := hkept.resolve_right hfile
    rw [if_neg hfile] at hmake
    rw [if_pos hisdir]
    exact ⟨_, mem_effects_makedirs hmake hdir, houtside⟩

/-- Where there is nothing to be made, the member is passed over, or the extraction raises. -/
lemma Respelled.idle (hopen : ¬ Open fold m t (memberTarget lower cwd root m)) :
    (extractMember lower cwd fold root m t).Idle t := by
  obtain ⟨hkept, hskipped, hinside, -⟩ := h
  rw [extractMember_of_inside hskipped hinside]
  by_cases hfile : m.isfile = true
  · obtain ⟨data, htype⟩ := exists_type_of_isfile hfile
    have hsource : extractfile m = some data := by rw [extractfile, htype]
    rw [if_neg (not_isdir_of_isfile hfile), if_pos hfile, hsource]
    by_cases hdir : t.node ((memberTarget lower cwd root m).key fold) = some .dir
    · -- the folder is there, and the file cannot be opened
      have hfolder := FileTree.node_eq_dir_of_prefix hdir (dirname_prefix_key _)
      rw [makedirs_of_dir hfolder]
      exact (idle_done t).andThen rfl (idle_writeFile data hdir)
    · have hmake : ¬ Makeable fold t (memberTarget lower cwd root m).dirname := by
        intro hmake
        exact hopen ⟨hdir, by rwa [if_pos hfile]⟩
      exact ((refused_makedirs hmake).andThen _).1
  · rw [if_pos (hkept.resolve_right hfile)]
    by_cases hdir : t.node ((memberTarget lower cwd root m).key fold) = some .dir
    · rw [makedirs_of_dir hdir]
      exact idle_done t
    · have hmake : ¬ Makeable fold t (memberTarget lower cwd root m) := by
        intro hmake
        exact hopen ⟨hdir, by rwa [if_neg hfile]⟩
      exact (refused_makedirs hmake).1

end Turn

/-- A member that is not both a folder or a file and in the destination makes nothing, unless it
leads past the destination to where there is something to be made. -/
lemma idle_of_not_open (h : ¬ (m.Kept ∧ Inside fold root (memberTarget lower cwd root m)))
    (hopen : ¬ (Respelled lower cwd fold root m ∧
      Open fold m t (memberTarget lower cwd root m))) :
    (extractMember lower cwd fold root m t).Idle t := by
  by_cases htaken : m.Kept ∧ ¬ Skipped m ∧ Inside lower root (memberTarget lower cwd root m)
  · obtain ⟨hkept, hskipped, hinside⟩ := htaken
    have hrespelled : Respelled lower cwd fold root m :=
      ⟨hkept, hskipped, hinside, fun hin => h ⟨hkept, hin⟩⟩
    exact hrespelled.idle fun ho => hopen ⟨hrespelled, ho⟩
  · exact idle_extractMember htaken t

/-! ### The whole loop -/

/-- What is made for a member that the loop comes to is among what is made. -/
lemma Reached.effects_subset (h : Reached lower cwd fold root members t m u) :
    (extractMember lower cwd fold root m u).effects ⊆
      (extractMembers lower cwd fold root members t).effects := by
  induction h with
  | head m members t =>
      rw [extractMembers, Result.andThen]
      split
      · exact List.Subset.refl _
      · exact List.subset_append_left _ _
  | tail herror _ ih =>
      rw [extractMembers, Result.andThen, herror]
      exact List.Subset.trans ih (List.subset_append_right _ _)

lemma stays_extractMembers (ht : t.node (root.key fold) = some .dir)
    (h : ∀ m u, Reached lower cwd fold root members t m u →
      ¬ (Respelled lower cwd fold root m ∧ Open fold m u (memberTarget lower cwd root m))) :
    Stays fold root t (extractMembers lower cwd fold root members t) := by
  induction members generalizing t with
  | nil => exact (idle_done t).stays ht
  | cons m members ih =>
      have hfirst : Stays fold root t (extractMember lower cwd fold root m t) := by
        by_cases hinside : m.Kept ∧ Inside fold root (memberTarget lower cwd root m)
        · exact stays_extractMember hinside.2 ht
        · exact (idle_of_not_open hinside (h m t (.head m members t))).stays ht
      rw [extractMembers, Result.andThen]
      split
      · exact hfirst
      · next herror =>
          have hrest : Stays fold root _ _ :=
            ih hfirst.dir fun m' u hreached => h m' u (.tail herror hreached)
          refine ⟨?_, fun q hq => (hrest.outside q hq).trans (hfirst.outside q hq), hrest.dir⟩
          intro e he
          rcases List.mem_append.1 he with he | he
          · exact hfirst.inside e he
          · exact hrest.inside e he

variable (lower cwd fold root) in
/-- The end of the archive makes nothing. -/
lemma effects_safeTarExtract (archive : Archive) (t : Files) :
    (safeTarExtract lower cwd fold root archive t).effects =
        (extractMembers lower cwd fold root archive.members t).effects ∧
      (safeTarExtract lower cwd fold root archive t).files =
        (extractMembers lower cwd fold root archive.members t).files := by
  rw [safeTarExtract]
  unfold Result.andThen
  split
  · exact ⟨rfl, rfl⟩
  · split <;> exact ⟨List.append_nil _, rfl⟩

/-! ### Extraction -/

/-- What the extraction of an archive does to the file system. -/
structure ExtractsRight (lower : PyString → PyString) (cwd : PyString → List PyString)
    (fold : PyString → PyString) (root : AbsPath) (t : Files) (archive : Archive) : Prop where
  /-- What is made or opened is the destination or below it. -/
  inside : ∀ e ∈ (safeTarExtract lower cwd fold root archive t).effects, Inside fold root e.path
  outside : ∀ path, ¬ root.key fold <+: path →
    (safeTarExtract lower cwd fold root archive t).files.node path = t.node path
  /-- A link, a special file, or a name that leads elsewhere is passed over, or the extraction
  raises. -/
  idle : ∀ m u, Reached lower cwd fold root archive.members t m u →
    ¬ (m.Kept ∧ Inside fold root (memberTarget lower cwd root m)) →
      (extractMember lower cwd fold root m u).Idle u
  /-- With plain names, an empty folder becomes what the archive says. -/
  faithful : archive.broken = false → (∀ m ∈ archive.members, PlainName m.name) →
    Separate fold archive.members → (∀ n, t.node (root.key fold ++ [n]) = none) →
      (safeTarExtract lower cwd fold root archive t).error = none ∧
        ∀ path, (safeTarExtract lower cwd fold root archive t).files.node
          (root.key fold ++ path) = archiveNode fold archive.members path

lemma faithful_safeTarExtract (hdir : t.node (root.key fold) = some .dir) {archive : Archive}
    (hbroken : archive.broken = false) (hplain : ∀ m ∈ archive.members, PlainName m.name)
    (hsep : Separate fold archive.members) (hempty : ∀ n, t.node (root.key fold ++ [n]) = none) :
    (safeTarExtract lower cwd fold root archive t).error = none ∧
      ∀ path, (safeTarExtract lower cwd fold root archive t).files.node
        (root.key fold ++ path) = archiveNode fold archive.members path := by
  obtain ⟨herror, hholds⟩ : (extractMembers lower cwd fold root archive.members t).error = none ∧
      Holds fold root _ ([] ++ archive.members) :=
    holds_extractMembers archive.members (holds_nil hdir hempty) hplain hsep
  rw [safeTarExtract, Result.andThen, herror, hbroken]
  exact ⟨rfl, hholds⟩

/-- **Extraction.** The destination is there, as `_installPack` has made it just before.  Whatever
the members are called, nothing is made outside it, and an archive of plain names is extracted as it
is, exactly if the loop comes to no member that leads past it while there is something to be made
for that member. -/
theorem extractsRight_iff (lower : PyString → PyString) (cwd : PyString → List PyString)
    (fold : PyString → PyString) (root : AbsPath) (t : Files)
    (hdir : t.node (root.key fold) = some .dir) (archive : Archive) :
    ExtractsRight lower cwd fold root t archive ↔
      ∀ m u, Reached lower cwd fold root archive.members t m u →
        ¬ (Respelled lower cwd fold root m ∧ Open fold m u (memberTarget lower cwd root m)) := by
  obtain ⟨heffects, hfiles⟩ := effects_safeTarExtract lower cwd fold root archive t
  constructor
  · rintro ⟨hinside, -, -, -⟩ m u hreached ⟨hrespelled, hopen⟩
    obtain ⟨e, he, hout⟩ := hrespelled.exists_effect hopen
    refine hout (hinside e ?_)
    rw [heffects]
    exact hreached.effects_subset he
  · intro h
    have hstays := stays_extractMembers hdir h
    refine ⟨?_, ?_, fun m u hreached hm => idle_of_not_open hm (h m u hreached), ?_⟩
    · rw [heffects]
      exact hstays.inside
    · rw [hfiles]
      exact hstays.outside
    · exact fun hbroken hplain hsep hempty =>
        faithful_safeTarExtract hdir hbroken hplain hsep hempty

/-- A plain name does not lead past the destination. -/
lemma not_respelled_of_plainName (h : PlainName m.name) : ¬ Respelled lower cwd fold root m := by
  rintro ⟨-, -, -, houtside⟩
  refine houtside ?_
  rw [Inside, key_memberTarget h]
  exact List.prefix_append _ _

lemma Reached.mem (h : Reached lower cwd fold root members t m u) : m ∈ members := by
  induction h with
  | head => exact List.mem_cons_self
  | tail _ _ ih => exact List.mem_cons_of_mem _ ih

/-- `C:\w`. -/
def folderRoot : AbsPath := ⟨[0x43, colon], [[0x77]], by decide⟩

/-- The drive of the folder, with nothing else on it. -/
def folderFiles : Files :=
  FileTree.insert (FileTree.insert .empty [] [0x43, colon] .dir (FileTree.root _) fun _ => rfl)
    [[0x43, colon]] [0x77] .dir (by decide) fun _ => rfl

/-- An archive with a folder `a` and twice the file `a/b`. -/
def twiceArchive : Archive where
  members :=
    [⟨[0x61], .directory⟩, ⟨[0x61, slash, 0x62], .regular [1]⟩, ⟨[0x61, slash, 0x62], .regular [2]⟩]
  broken := false

theorem extractsRight_twiceArchive :
    (safeTarExtract id (fun _ => []) id folderRoot twiceArchive folderFiles).error = none ∧
      (safeTarExtract id (fun _ => []) id folderRoot twiceArchive folderFiles).files.node
        [[0x43, colon], [0x77], [0x61], [0x62]] = some (.file [2]) := by
  have hempty : ∀ n, folderFiles.node (folderRoot.key id ++ [n]) = none := by
    intro n
    simp [folderFiles, folderRoot, AbsPath.key]
  have hplain : ∀ m ∈ twiceArchive.members, PlainName m.name := by decide
  obtain ⟨herror, hnode⟩ := ((extractsRight_iff id (fun _ => []) id folderRoot folderFiles
    (by decide) twiceArchive).2 fun m u hreached hbad =>
      not_respelled_of_plainName (hplain m hreached.mem) hbad.1).faithful rfl hplain (by decide)
        hempty
  have hfile := hnode [[0x61], [0x62]]
  rw [show folderRoot.key id = [[0x43, colon], [0x77]] from rfl] at hfile
  exact ⟨herror, hfile.trans (by decide)⟩

/-- A name that goes up behind the drive passes the tests of the name. -/
example : (safeTarExtract id (fun _ => []) id folderRoot
    ⟨[⟨[0x43, colon, dot, dot], .directory⟩], false⟩ folderFiles).error = some .unsafePath := by
  decide

/-! ### The Kelvin sign -/

def kelvinSign : CodePoint := 0x212A

/-- `str.lower`, of the letters of ASCII and the Kelvin sign. -/
def lowerName (name : PyString) : PyString :=
  name.map fun c => if c = kelvinSign then 0x6B else if 0x41 ≤ c ∧ c ≤ 0x5A then c + 0x20 else c

/-- What names are to the file system of Windows, for the letters of ASCII.  The Kelvin sign is
its own capital. -/
def foldName (name : PyString) : PyString :=
  name.map fun c => if 0x61 ≤ c ∧ c ≤ 0x7A then c - 0x20 else c

/-- `C:\k`. -/
def letterRoot : AbsPath := ⟨[0x43, colon], [[0x6B]], by decide⟩

/-- The drive of the folder `k`, with nothing else on it. -/
def letterFiles : Files :=
  FileTree.insert (FileTree.insert .empty [] [0x43, colon] .dir (FileTree.root _) fun _ => rfl)
    [[0x43, colon]] [0x4B] .dir (by decide) fun _ => rfl

/-- The folder `C:../K/a`, with the Kelvin sign. -/
def kelvinArchive : Archive where
  members := [⟨[0x43, colon, dot, dot, slash, kelvinSign, slash, 0x61], .directory⟩]
  broken := false

/-- The name goes up behind the drive and comes back to another folder. -/
theorem not_extractsRight_kelvinArchive :
    ¬ ExtractsRight lowerName (fun _ => []) foldName letterRoot letterFiles kelvinArchive := by
  rintro ⟨hinside, -, -, -⟩
  refine absurd (hinside (.mkdir ⟨[0x43, colon], [[kelvinSign], [0x61]], by decide⟩) ?_) ?_
  · decide
  · decide

end SamsungTVVoices.Store.Extract
