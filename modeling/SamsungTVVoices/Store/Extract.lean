/-
The extraction of the archive that the helper sends (`firmwareStore._safeTarExtract`).

The names of the members are whatever the archive says.  A backslash is taken for a slash, slashes
in front are dropped, and what goes up in the middle of a name is passed over.  A name can still go
up at its end, or behind a drive, so the path that a name leads to is compared with the destination
before anything is made.

Paths are those of Windows: a drive and the names below it.  There are two notions of the same
name.  `os.path` takes names for the same if `lower` makes the same of them, and the comparison with
the destination is that of `os.path`.  What is made is put where the file system finds its name, and
to the file system names are the same if `fold` makes the same of them.
-/
import SamsungTVVoices.Driver.Speech
import SamsungTVVoices.Lib.FileTree
import SamsungTVVoices.Lib.Path

open RelativePath

namespace SamsungTVVoices.Store.Extract

open Driver (CodePoint PyString)

/-! ### Archives -/

/-- What a member of an archive is. -/
inductive MemberType where
  | regular (data : Bytes)
  | directory
  | symbolicLink
  | hardLink
  /-- A device or a pipe, or a type that `tarfile` does not know. -/
  | special
deriving DecidableEq, Repr

/-- A `TarInfo`. -/
structure Member where
  name : PyString
  type : MemberType
deriving DecidableEq, Repr

namespace Member

def isdir (m : Member) : Bool :=
  match m.type with
  | .directory => true
  | _ => false

def isfile (m : Member) : Bool :=
  match m.type with
  | .regular _ => true
  | _ => false

def issym (m : Member) : Bool :=
  match m.type with
  | .symbolicLink => true
  | _ => false

def islnk (m : Member) : Bool :=
  match m.type with
  | .hardLink => true
  | _ => false

end Member

/-- An archive as `tarfile` reads it. -/
structure Archive where
  members : List Member
  /-- What follows the members cannot be read, and `tarfile` raises. -/
  broken : Bool

/-- `TarFile.extractfile`, of a member that is not a link. -/
def extractfile (m : Member) : Option Bytes :=
  match m.type with
  | .regular data => some data
  | _ => none

/-! ### Names -/

def slash : CodePoint := 0x2F

def backslash : CodePoint := 0x5C

def colon : CodePoint := 0x3A

def dot : CodePoint := 0x2E

/-- `name.replace("\\", "/").lstrip("/")` -/
def entryName (name : PyString) : PyString :=
  (name.map fun c => if c = backslash then slash else c).dropWhile (· = slash)

/-- What a component means to `os.path.normpath`. -/
def component (c : PyString) : Component PyString :=
  if c = [] ∨ c = [dot] then .stay else if c = [dot, dot] then .up else .down c

/-- `os.path.splitdrive`, of a string without separators. -/
def splitdrive (p : PyString) : PyString × PyString :=
  if (p.drop 1).take 1 = [colon] then (p.take 2, p.drop 2) else ([], p)

/-! ### Paths -/

/-- A normalised absolute path. -/
structure AbsPath where
  drive : PyString
  parts : List PyString
  normal : ∀ c ∈ parts, component c = .down c
deriving DecidableEq

namespace AbsPath

/-- The first names of the path. -/
def take (p : AbsPath) (k : ℕ) : AbsPath where
  drive := p.drive
  parts := p.parts.take k
  normal c hc := p.normal c (List.mem_of_mem_take hc)

/-- `os.path.dirname`.  The root of a drive is its own folder. -/
def dirname (p : AbsPath) : AbsPath where
  drive := p.drive
  parts := p.parts.dropLast
  normal c hc := p.normal c (List.dropLast_subset _ hc)

end AbsPath

/-- What `os.path.join` makes. -/
structure JoinedPath where
  drive : PyString
  /-- A path that is not rooted starts in the current directory of its drive. -/
  rooted : Bool
  parts : List PyString

-- `str.lower`, and the current directory of each drive
variable (lower : PyString → PyString) (cwd : PyString → List PyString)

/-- The loop of `os.path.join`, for a string without separators. -/
def joinPart (path : JoinedPath) (p : PyString) : JoinedPath :=
  let (pDrive, pPath) := splitdrive p
  if pDrive ≠ [] ∧ pDrive ≠ path.drive then
    if lower pDrive ≠ lower path.drive then ⟨pDrive, false, [pPath]⟩
    else ⟨pDrive, path.rooted, path.parts ++ [pPath]⟩
  else ⟨path.drive, path.rooted, path.parts ++ [pPath]⟩

/-- `os.path.join(root, *parts)` -/
def join (root : AbsPath) (parts : List PyString) : JoinedPath :=
  parts.foldl (joinPart lower) ⟨root.drive, true, root.parts⟩

/-- The path that the components lead to, from the root of the drive. -/
def normalPath (drive : PyString) (parts : List PyString) : AbsPath where
  drive := drive
  parts := resolve [] (parts.map component)
  normal := by
    intro c hc
    rcases mem_resolve hc with hnil | hmem
    · cases hnil
    · obtain ⟨c', -, hc'⟩ := List.mem_map.1 hmem
      have heq : c' = c := by
        unfold component at hc'
        split_ifs at hc'
        exact Component.down.inj hc'
      rwa [heq] at hc'

/-- `os.path.abspath` -/
def abspath (path : JoinedPath) : AbsPath :=
  normalPath path.drive (if path.rooted then path.parts else cwd path.drive ++ path.parts)

/-- The names below the drive in `os.path.commonpath((root, target))`; `none` is the `ValueError`
for different drives. -/
def commonpath (root target : AbsPath) : Option (List PyString) :=
  if lower root.drive = lower target.drive then some (commonPrefix lower root.parts target.parts)
  else none

/-! ### Effects -/

/-- The file system: the drives, and what is on them. -/
abbrev Files := FileTree PyString Bytes

/-- The path with its names as `fold` makes them. -/
def AbsPath.key (fold : PyString → PyString) (p : AbsPath) : List PyString :=
  fold p.drive :: p.parts.map fold

/-- Something that has been made. -/
inductive Effect where
  | mkdir (path : AbsPath)
  | openFile (path : AbsPath)
deriving DecidableEq

/-- What has been made, or opened for writing. -/
def Effect.path : Effect → AbsPath
  | .mkdir path | .openFile path => path

/-- Why the extraction raises. -/
inductive ExtractError where
  | differentDrives | unsafePath | unreadable | brokenArchive
  /-- `os.makedirs` or `open` has failed. -/
  | osError
deriving DecidableEq, Repr

/-- The text of an error, if it comes from `_safeTarExtract`. -/
def ExtractError.message : ExtractError → Option String
  | unsafePath => some "The firmware extractor returned an unsafe path."
  | unreadable => some "The firmware extractor returned an unreadable file."
  | differentDrives | brokenArchive | osError => none

/-- What a part of the extraction leaves. -/
structure Result where
  files : Files
  effects : List Effect
  error : Option ExtractError

namespace Result

def done (t : Files) : Result := ⟨t, [], none⟩

def raise (t : Files) (e : ExtractError) : Result := ⟨t, [], some e⟩

/-- One part after another. -/
def andThen (r : Result) (next : Files → Result) : Result :=
  match r.error with
  | some _ => r
  | none => ⟨(next r.files).files, r.effects ++ (next r.files).effects, (next r.files).error⟩

end Result

-- which names, and which drives, are the same to the file system
variable (fold : PyString → PyString)

/-- `mkdir`, in `os.makedirs` with `exist_ok`.  A drive cannot be made. -/
def mkdir (t : Files) (p : AbsPath) : Result :=
  match t.node (p.key fold) with
  | some .dir => .done t
  | some (.file _) => .raise t .osError
  | none =>
      if p.parts = [] then .raise t .osError
      else
        match t.makeDir (p.key fold) with
        | some u => ⟨u, [.mkdir p], none⟩
        | none => .raise t .osError

/-- `os.makedirs` for the first names of a path: a folder that does not exist is made first. -/
def makedirsUpTo (t : Files) (p : AbsPath) : ℕ → Result
  | 0 => mkdir fold t (p.take 0)
  | k + 1 =>
      (if t.node ((p.take k).key fold) = none then makedirsUpTo t p k else .done t).andThen
        fun u => mkdir fold u (p.take (k + 1))

/-- `os.makedirs(path, exist_ok=True)` -/
def makedirs (t : Files) (p : AbsPath) : Result := makedirsUpTo fold t p p.parts.length

/-- `open(path, "wb")`, and the copy. -/
def writeFile (t : Files) (p : AbsPath) (source : Bytes) : Result :=
  if p.parts = [] then .raise t .osError
  else
    match t.writeFile (p.key fold) source with
    | some u => ⟨u, [.openFile p], none⟩
    | none => .raise t .osError

/-! ### The extraction -/

/-- The names that `_safeTarExtract` passes over, and the links. -/
def Skipped (m : Member) : Prop :=
  entryName m.name = [] ∨ [dot, dot, slash] <+: entryName m.name ∨
    [slash, dot, dot, slash] <:+: entryName m.name ∨ m.issym = true ∨ m.islnk = true

instance (m : Member) : Decidable (Skipped m) := inferInstanceAs (Decidable (_ ∨ _ ∨ _ ∨ _ ∨ _))

/-- Where the member is put. -/
def memberTarget (root : AbsPath) (m : Member) : AbsPath :=
  abspath cwd (join lower root ((entryName m.name).splitOn slash))

/-- One turn of the loop. -/
def extractMember (root : AbsPath) (m : Member) (t : Files) : Result :=
  if Skipped m then .done t
  else
    let target := memberTarget lower cwd root m
    match commonpath lower root target with
    | none => .raise t .differentDrives
    | some common =>
        if common ≠ root.parts then .raise t .unsafePath
        else if m.isdir then makedirs fold t target
        else if m.isfile then
          (makedirs fold t target.dirname).andThen fun u =>
            match extractfile m with
            | none => .raise u .unreadable
            | some source => writeFile fold u target source
        else .done t

/-- The loop. -/
def extractMembers (root : AbsPath) : List Member → Files → Result
  | [], t => .done t
  | m :: members, t =>
      (extractMember lower cwd fold root m t).andThen (extractMembers root members)

/-- `_safeTarExtract`, into `root`. -/
def safeTarExtract (root : AbsPath) (archive : Archive) (t : Files) : Result :=
  (extractMembers lower cwd fold root archive.members t).andThen fun u =>
    if archive.broken then .raise u .brokenArchive else .done u

/-! ### Paths in the file system -/

variable {lower cwd fold} {root p : AbsPath} {t u : Files}

lemma key_take (p : AbsPath) (k : ℕ) : (p.take k).key fold = (p.key fold).take (k + 1) := by
  rw [AbsPath.key, AbsPath.key, List.take_succ_cons, ← List.map_take]
  rfl

lemma length_key (p : AbsPath) : (p.key fold).length = p.parts.length + 1 := by
  rw [AbsPath.key, List.length_cons, List.length_map]

variable (fold) in
lemma key_dirname_of_parts (h : p.parts ≠ []) : p.dirname.key fold = (p.key fold).dropLast := by
  rw [AbsPath.key, AbsPath.key, List.dropLast_cons_of_ne_nil (by simpa using h), ← List.map_dropLast]
  rfl

lemma dirname_prefix_key (p : AbsPath) : p.dirname.key fold <+: p.key fold :=
  List.cons_prefix_cons.2 ⟨rfl, (List.dropLast_prefix p.parts).map fold⟩

/-- The path is `root` or below it, for names and drives that are the same under `fold`. -/
def Inside (fold : PyString → PyString) (root p : AbsPath) : Prop :=
  root.key fold <+: p.key fold

instance (root p : AbsPath) : Decidable (Inside fold root p) :=
  inferInstanceAs (Decidable (_ <+: _))

/-- The comparison is with the destination as a whole, and that of `os.path`. -/
lemma commonpath_eq_parts_iff :
    commonpath lower root p = some root.parts ↔ Inside lower root p := by
  unfold commonpath Inside AbsPath.key
  rw [List.cons_prefix_cons, ← commonPrefix_eq_left_iff]
  split
  · next hdrive => simp [hdrive]
  · next hdrive => simp [hdrive]

/-! ### Members that are put nowhere -/

/-- The member is a folder or a file. -/
def Member.Kept (m : Member) : Prop := m.isdir = true ∨ m.isfile = true

instance (m : Member) : Decidable m.Kept := inferInstanceAs (Decidable (_ ∨ _))

/-- Nothing has been made. -/
def Result.Idle (r : Result) (t : Files) : Prop := r.files = t ∧ r.effects = []

lemma idle_done (t : Files) : (Result.done t).Idle t := ⟨rfl, rfl⟩

lemma idle_raise (t : Files) (e : ExtractError) : (Result.raise t e).Idle t := ⟨rfl, rfl⟩

/-- What a member leads to that is taken. -/
lemma extractMember_of_inside {m : Member} (hskipped : ¬ Skipped m)
    (hinside : Inside lower root (memberTarget lower cwd root m)) (t : Files) :
    extractMember lower cwd fold root m t =
      if m.isdir then makedirs fold t (memberTarget lower cwd root m)
      else if m.isfile then
        (makedirs fold t (memberTarget lower cwd root m).dirname).andThen fun u =>
          match extractfile m with
          | none => .raise u .unreadable
          | some source => writeFile fold u (memberTarget lower cwd root m) source
      else .done t := by
  unfold extractMember
  rw [if_neg hskipped]
  dsimp only
  rw [commonpath_eq_parts_iff.2 hinside]
  dsimp only
  rw [if_neg (not_not.2 rfl)]

/-- Any other member is passed over, or the extraction raises. -/
lemma idle_extractMember {m : Member}
    (h : ¬ (m.Kept ∧ ¬ Skipped m ∧ Inside lower root (memberTarget lower cwd root m)))
    (t : Files) : (extractMember lower cwd fold root m t).Idle t := by
  by_cases hskipped : Skipped m
  · rw [extractMember, if_pos hskipped]
    exact idle_done t
  by_cases hinside : Inside lower root (memberTarget lower cwd root m)
  · have hkept : ¬ m.Kept := fun hkept => h ⟨hkept, hskipped, hinside⟩
    obtain ⟨hdir, hfile⟩ := not_or.1 hkept
    rw [extractMember_of_inside hskipped hinside, if_neg hdir, if_neg hfile]
    exact idle_done t
  · unfold extractMember
    rw [if_neg hskipped]
    dsimp only
    split
    · exact idle_raise t _
    · next common hcommon =>
        have hroot : common ≠ root.parts := by
          rintro rfl
          exact hinside (commonpath_eq_parts_iff.1 hcommon)
        rw [if_pos hroot]
        exact idle_raise t _

/-! ### The folder of the destination -/

/-- Nothing is made outside the destination, and the destination stays a folder. -/
structure Stays (fold : PyString → PyString) (root : AbsPath) (t : Files) (r : Result) :
    Prop where
  inside : ∀ e ∈ r.effects, Inside fold root e.path
  outside : ∀ q, ¬ root.key fold <+: q → r.files.node q = t.node q
  dir : r.files.node (root.key fold) = some .dir

lemma Result.Idle.stays {r : Result} (h : r.Idle t) (ht : t.node (root.key fold) = some .dir) :
    Stays fold root t r := by
  obtain ⟨hfiles, heffects⟩ := h
  refine ⟨?_, fun q _ => by rw [hfiles], by rw [hfiles, ht]⟩
  rw [heffects]
  exact fun e he => absurd he List.not_mem_nil

lemma Stays.andThen {r : Result} {next : Files → Result} (h : Stays fold root t r)
    (hnext : ∀ u, u.node (root.key fold) = some .dir → Stays fold root u (next u)) :
    Stays fold root t (r.andThen next) := by
  unfold Result.andThen
  cases r.error with
  | some e => exact h
  | none =>
      have hn := hnext r.files h.dir
      refine ⟨?_, fun q hq => (hn.outside q hq).trans (h.outside q hq), hn.dir⟩
      intro e he
      rcases List.mem_append.1 he with he | he
      · exact h.inside e he
      · exact hn.inside e he

/-- A folder is made on the way to a path in the destination. -/
lemma stays_mkdir {q : AbsPath} (ht : t.node (root.key fold) = some .dir)
    (hp : Inside fold root p) (hq : q.key fold <+: p.key fold) :
    Stays fold root t (mkdir fold t q) := by
  unfold mkdir
  split
  · exact (idle_done t).stays ht
  · exact (idle_raise t _).stays ht
  · next hnone =>
      split
      · exact (idle_raise t _).stays ht
      · split
        · next u hu =>
            have hnode := FileTree.makeDir_eq_some hu
            have hinside : root.key fold <+: q.key fold := by
              rcases List.prefix_or_prefix_of_prefix hp hq with h | h
              · exact h
              · rw [FileTree.node_eq_dir_of_prefix ht h] at hnone
                cases hnone
            refine ⟨?_, ?_, ?_⟩
            · intro e he
              obtain rfl := List.mem_singleton.1 he
              exact hinside
            · intro y hy
              refine (hnode y).trans (if_neg ?_)
              rintro rfl
              exact hy hinside
            · refine (hnode _).trans ?_
              split
              · rfl
              · exact ht
        · exact (idle_raise t _).stays ht

/-- All the folders are made on the way to a path in the destination. -/
lemma stays_makedirs {q : AbsPath} (hp : Inside fold root p) (hq : q.key fold <+: p.key fold)
    (ht : t.node (root.key fold) = some .dir) : Stays fold root t (makedirs fold t q) := by
  have htake : ∀ k, (q.take k).key fold <+: p.key fold := by
    intro k
    rw [key_take]
    exact (List.take_prefix (k + 1) _).trans hq
  unfold makedirs
  induction q.parts.length with
  | zero => exact stays_mkdir ht hp (htake 0)
  | succ k ih =>
      rw [makedirsUpTo]
      refine Stays.andThen ?_ fun u hu => stays_mkdir hu hp (htake (k + 1))
      split
      · exact ih
      · exact (idle_done t).stays ht

lemma stays_writeFile (hp : Inside fold root p) (source : Bytes)
    (ht : t.node (root.key fold) = some .dir) :
    Stays fold root t (writeFile fold t p source) := by
  unfold writeFile
  split
  · exact (idle_raise t _).stays ht
  · split
    · next u hu =>
        obtain ⟨hnot, hnode⟩ := FileTree.writeFile_eq_some hu
        refine ⟨?_, ?_, ?_⟩
        · intro e he
          obtain rfl := List.mem_singleton.1 he
          exact hp
        · intro y hy
          refine (hnode y).trans (if_neg ?_)
          rintro rfl
          exact hy hp
        · -- the destination itself is a folder, and cannot be opened
          refine (hnode _).trans ((if_neg ?_).trans ht)
          intro heq
          exact hnot (heq ▸ ht)
    · exact (idle_raise t _).stays ht

/-- A member that leads into the destination, for the file system. -/
lemma stays_extractMember {m : Member} (h : Inside fold root (memberTarget lower cwd root m))
    (ht : t.node (root.key fold) = some .dir) :
    Stays fold root t (extractMember lower cwd fold root m t) := by
  by_cases hkept : m.Kept ∧ ¬ Skipped m ∧ Inside lower root (memberTarget lower cwd root m)
  · rw [extractMember_of_inside hkept.2.1 hkept.2.2]
    split
    · exact stays_makedirs h List.prefix_rfl ht
    · split
      · refine Stays.andThen (stays_makedirs h (dirname_prefix_key _) ht) fun u hu => ?_
        split
        · exact (idle_raise u _).stays hu
        · exact stays_writeFile h _ hu
      · exact (idle_done t).stays ht
  · exact (idle_extractMember hkept t).stays ht

end SamsungTVVoices.Store.Extract
