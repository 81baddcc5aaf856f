/-
The archive that the store writes for the guest (`_writeNewcEntry` and the walk in
`rebuildRuntime`).

An entry's padding is computed from the entry alone.  `writeNewcEntry_eq_bytes` says that an
entry written in this way is a block of the `newc` format, and `archiveName_injective` that
different paths of the merged tree get different names.
-/
import SamsungTVVoices.Protocol
import SamsungTVVoices.Lib.FileTree
import SamsungTVVoices.Lib.Newc
import Mathlib.Data.String.Basic

open FixedDigits

namespace SamsungTVVoices.Store

/-- A name that an entry of a directory can have. -/
structure FileName where
  name : String
  ne_empty : name ≠ ""
  ne_dot : name ≠ "."
  ne_dotdot : name ≠ ".."
  no_slash : '/' ∉ name.toList
  no_backslash : '\\' ∉ name.toList
  no_nul : '\x00' ∉ name.toList
deriving DecidableEq

namespace FileName

lemma name_injective : Function.Injective name := by
  intro a b h
  cases a
  cases b
  congr

/-- The name that a text of the source is. -/
def ofText (s : String) (h : s ≠ "" ∧ s ≠ "." ∧ s ≠ ".." ∧ '/' ∉ s.toList ∧ '\\' ∉ s.toList ∧
    '\x00' ∉ s.toList) : FileName :=
  ⟨s, h.1, h.2.1, h.2.2.1, h.2.2.2.1, h.2.2.2.2.1, h.2.2.2.2.2⟩

instance : LinearOrder FileName := LinearOrder.lift' name name_injective

end FileName

/-- A folder as the store sees it: directories and regular files. -/
abbrev Folder := FileTree FileName Bytes

/-! ### The names of the entries -/

/-- `os.path.relpath(root, merged)`. -/
def relativeRoot (p : List FileName) : String :=
  if p = [] then "." else "\\".intercalate (p.map FileName.name)

/-- `str.replace("\\", "/")`. -/
def replaceBackslash (s : String) : String := s.map fun c => if c = '\\' then '/' else c

/-- The name of a directory of the merged tree in the archive. -/
def archiveRoot (p : List FileName) : String :=
  if relativeRoot p = "." then "opt/smt/runtime"
  else "opt/smt/runtime/" ++ replaceBackslash (relativeRoot p)

/-- The name of what the walk finds at `p`: a file is named after its directory. -/
def archiveName (p : List FileName) : Node Bytes → String
  | .dir => archiveRoot p
  | .file _ => archiveRoot p.dropLast ++ "/" ++ (p.getLast?.map FileName.name).getD ""

/-- The characters of a path below the root of the archive. -/
def pathChars (p : List FileName) : List Char := p.flatMap fun n => '/' :: n.name.toList

lemma map_replace_name (n : FileName) :
    n.name.toList.map (fun c => if c = '\\' then '/' else c) = n.name.toList := by
  conv_rhs => rw [← List.map_id n.name.toList]
  refine List.map_congr_left fun c hc => ?_
  have hne : c ≠ '\\' := by
    rintro rfl
    exact n.no_backslash hc
  rw [if_neg hne, id]

lemma toList_replaceBackslash_intercalate (p : List FileName) : ∀ n : FileName,
    '/' :: (replaceBackslash ("\\".intercalate ((n :: p).map FileName.name))).toList =
      pathChars (n :: p) := by
  induction p with
  | nil =>
      intro n
      rw [replaceBackslash, String.toList_map, String.toList_intercalate]
      simp [pathChars, map_replace_name]
  | cons m p ih =>
      intro n
      have hm := ih m
      rw [replaceBackslash, String.toList_map, String.toList_intercalate] at hm ⊢
      simp only [List.map_cons, List.intercalate_cons_cons, List.map_append,
        map_replace_name] at hm ⊢
      rw [pathChars, List.flatMap_cons]
      change _ = _ ++ pathChars (m :: p)
      rw [← hm]
      simp

lemma relativeRoot_eq_dot {p : List FileName} : relativeRoot p = "." ↔ p = [] := by
  refine ⟨fun h => ?_, fun h => by rw [relativeRoot, if_pos h]⟩
  by_contra hp
  rw [relativeRoot, if_neg hp] at h
  have hlist := congrArg String.toList h
  rw [String.toList_intercalate] at hlist
  match p with
  | [] => exact hp rfl
  | [n] => exact n.ne_dot (String.toList_inj.1 (by simpa using hlist))
  | n :: m :: p =>
      -- two names are separated by a backslash
      have hmem : '\\' ∈ ".".toList := by
        rw [← hlist]
        simp only [List.map_cons, List.intercalate_cons_cons]
        simp
      exact absurd hmem (by decide)

lemma toList_archiveRoot (p : List FileName) :
    (archiveRoot p).toList = "opt/smt/runtime".toList ++ pathChars p := by
  cases p with
  | nil => rfl
  | cons n p =>
      have hne : relativeRoot (n :: p) ≠ "." := fun h => by simp [relativeRoot_eq_dot] at h
      have hchars := toList_replaceBackslash_intercalate p n
      rw [archiveRoot, if_neg hne, relativeRoot, if_neg (List.cons_ne_nil n p), ← hchars,
        String.toList_append, show "opt/smt/runtime/".toList = "opt/smt/runtime".toList ++ ['/']
          from rfl, List.append_assoc, List.singleton_append]

lemma toList_archiveName {p : List FileName} {x : Node Bytes} (h : p = [] → x = .dir) :
    (archiveName p x).toList = "opt/smt/runtime".toList ++ pathChars p := by
  cases x with
  | dir => exact toList_archiveRoot p
  | file b =>
      rcases List.eq_nil_or_concat p with rfl | ⟨q, n, rfl⟩
      · exact absurd (h rfl) (by simp)
      · rw [List.concat_eq_append]
        simp [archiveName, toList_archiveRoot, pathChars]

/-- The names of a path can be read off its characters, as no name contains a slash. -/
lemma pathChars_injective : Function.Injective pathChars := by
  intro p
  induction p with
  | nil =>
      intro q h
      cases q with
      | nil => rfl
      | cons n q => exact absurd h (by simp [pathChars])
  | cons m p ih =>
      intro q h
      cases q with
      | nil => exact absurd h (by simp [pathChars])
      | cons n q =>
          have hhead (n : FileName) (q : List FileName) :
              (pathChars (n :: q)).tail.takeWhile (· ≠ '/') = n.name.toList ∧
                (pathChars (n :: q)).tail.dropWhile (· ≠ '/') = pathChars q := by
            have hall : ∀ c ∈ n.name.toList, decide (c ≠ '/') = true := fun c hc =>
              decide_eq_true fun hslash => n.no_slash (hslash ▸ hc)
            have htail : (pathChars (n :: q)).tail = n.name.toList ++ pathChars q := rfl
            rw [htail, List.takeWhile_append_of_pos hall, List.dropWhile_append_of_pos hall]
            cases q with
            | nil => simp [pathChars]
            | cons k q => simp [pathChars]
          obtain ⟨hm, hp⟩ := hhead m p
          obtain ⟨hn, hq⟩ := hhead n q
          rw [h] at hm hp
          have hname : m = n :=
            FileName.name_injective (String.toList_inj.1 (hm.symm.trans hn))
          rw [hname, ih (hp.symm.trans hq)]

theorem archiveName_injective {p q : List FileName} {x y : Node Bytes} (hp : p = [] → x = .dir)
    (hq : q = [] → y = .dir) (h : archiveName p x = archiveName q y) : p = q := by
  have hlist := congrArg String.toList h
  rw [toList_archiveName hp, toList_archiveName hq] at hlist
  exact pathChars_injective (List.append_cancel_left hlist)

/-! ### Writing an entry -/

/-- `_writeNewcEntry`. -/
def writeNewcEntry (name : String) (mode : ℕ) (data : Bytes) (inode : ℕ) : Bytes :=
  let nameBytes := utf8 name ++ [0]
  let fields := [inode, mode, 0, 0, 1, 0, data.length, 0, 0, 0, 0, nameBytes.length, 0]
  let header := utf8 "070701" ++ fields.flatMap (hexField 8)
  header ++ nameBytes ++
    List.replicate ((4 - (header.length + nameBytes.length) % 4) % 4) 0 ++
    data ++ List.replicate ((4 - data.length % 4) % 4) 0

/-- The entry as a reader of the format should see it. -/
def newcEntry (name : String) (mode : ℕ) (data : Bytes) (inode : ℕ) : Newc.Entry where
  header :=
    { ino := inode, mode := mode, uid := 0, gid := 0, nlink := 1, mtime := 0
      filesize := data.length, devmajor := 0, devminor := 0, rdevmajor := 0, rdevminor := 0
      namesize := (utf8 name).length + 1, check := 0 }
  name := utf8 name
  data := data

/-- The block that an entry becomes. -/
def newcBlock (name : String) (mode : ℕ) (data : Bytes) (inode : ℕ) : Newc.Block where
  entry := newcEntry name mode data inode
  namePad := List.replicate (Newc.padding (Newc.headerSize + ((utf8 name).length + 1))) 0
  dataPad := List.replicate (Newc.padding data.length) 0

/-- What has to fit in eight hexadecimal digits. -/
structure Fits (name : String) (mode : ℕ) (data : Bytes) (inode : ℕ) : Prop where
  inode_lt : inode < 2 ^ 32
  mode_lt : mode < 2 ^ 32
  data_lt : data.length < 2 ^ 32
  name_lt : (utf8 name).length + 1 < 2 ^ 32

variable {name : String} {mode : ℕ} {data : Bytes} {inode : ℕ}

lemma Fits.wellFormed (h : Fits name mode data inode) :
    (newcBlock name mode data inode).WellFormed where
  fits := by
    simp only [newcBlock, newcEntry, Newc.Header.fields, List.mem_cons, List.not_mem_nil,
      or_false]
    have := h.inode_lt
    have := h.mode_lt
    have := h.data_lt
    have := h.name_lt
    rintro x (rfl | rfl | rfl | rfl | rfl | rfl | rfl | rfl | rfl | rfl | rfl | rfl | rfl) <;>
      omega
  namesize := rfl
  filesize := rfl
  namePad := by simp [newcBlock, newcEntry]
  dataPad := by simp [newcBlock, newcEntry]

/-- **What is written is in the format.**  Padding an entry by its own length is right. -/
theorem writeNewcEntry_eq_bytes (h : Fits name mode data inode) :
    writeNewcEntry name mode data inode = (newcBlock name mode data inode).bytes := by
  have hfields := Newc.length_flatMap_hexField _ h.wellFormed.fits
  have hmagic : utf8 "070701" = Newc.magic := rfl
  have hname : (utf8 name ++ [0]).length = (utf8 name).length + 1 := by simp
  have hheader : (Newc.magic ++ (newcEntry name mode data inode).header.fields.flatMap
      (hexField 8)).length = Newc.headerSize := by
    rw [List.length_append]
    exact congrArg (6 + ·) hfields
  simp only [writeNewcEntry, hname, hmagic]
  change Newc.magic ++ (newcEntry name mode data inode).header.fields.flatMap (hexField 8) ++ _ ++
    List.replicate ((4 - ((Newc.magic ++ (newcEntry name mode data inode).header.fields.flatMap
      (hexField 8)).length + _) % 4) % 4) 0 ++ data ++ _ = _
  rw [hheader]
  rfl

end SamsungTVVoices.Store
