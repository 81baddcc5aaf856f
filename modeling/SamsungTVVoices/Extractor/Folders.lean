/-
The folders of the catalog and the paths of its records (`make_folder_list`,
`make_path_from_dir_list`, `create_all_folders` and `samsung_tts_path_is_wanted` of `unpack.c`).

The path of a record is put together from its end: the names of the folders are set before it, from
its parent up to the output folder.  `makePathFromDirList_eq_ok_iff` says that what comes out is the
path of the output folder, a slash and the path of the record relative to it (`relPath`).
-/
import SamsungTVVoices.Extractor.Files
import Mathlib.Data.List.Sort
import Mathlib.Data.List.Infix

namespace SamsungTVVoices.Extractor

/-- A record that is visited, with how the operations for it go. -/
structure Visit where
  record : Record
  calls : Outcomes

/-! ### The list of folders -/

/-- `struct dir_list_item`. -/
structure DirItem where
  objectId : ℕ
  parentId : ℕ
  name : Bytes
deriving DecidableEq

/-- `list_insert`: the head stays where it is, and of equal items the new one comes last. -/
def listInsert (new : DirItem) : List DirItem → List DirItem
  | [] => []
  | head :: rest => head :: rest.orderedInsert (fun a b => a.objectId < b.objectId) new

/-- `list_get`. -/
def listGet (dirs : List DirItem) (objectId : ℕ) : Option DirItem :=
  dirs.find? (·.objectId = objectId)

/-- The list with the item of the record, if that is a folder. -/
def addFolder (dirs : List DirItem) (r : Record) : List DirItem :=
  if r.recordType = .folder then listInsert ⟨r.objectId, r.parentId, r.name⟩ dirs else dirs

/-- `make_folder_list`: nothing is read after the last record. -/
def makeFolderList : List Visit → List DirItem → Except ℤ (List DirItem)
  | [], dirs => .ok dirs
  | v :: vs, dirs =>
    if vs.isEmpty || v.calls.nextItem then makeFolderList vs (addFolder dirs v.record)
    else .error (-erdfail)

/-- The list before a folder is added to it: the output folder alone. -/
def rootItem (root : Bytes) : DirItem := ⟨rootIno, 0, root⟩

/-! ### Paths -/

/-- `/`. -/
def slash : UInt8 := 0x2F

/-- The loop of `make_path_from_dir_list`: `none` if it does not end. -/
def makePath (dirs : List DirItem) : ℕ → ℕ → Bytes → Option (Except ℤ Bytes)
  | 0, _, _ => none
  | fuel + 1, objId, path =>
    if objId = 0 then some (.ok path)
    else match listGet dirs objId with
      | none => some (.error (-enoent))
      | some item => makePath dirs fuel item.parentId (item.name ++ slash :: path)

/-- `make_path_from_dir_list`: a walk that takes more steps than there are items goes round. -/
def makePathFromDirList (dirs : List DirItem) (objId : ℕ) (name : Bytes) :
    Option (Except ℤ Bytes) :=
  makePath dirs (dirs.length + 1) objId name

/-- `strstr`. -/
def strstr (s pat : Bytes) : Bool := pat <:+: s

/-- The three texts that a wanted path holds. -/
def speechTree : Bytes := utf8 "/usr/share/voice/tts/smt_vd/"

@[inherit_doc speechTree] def usrEngine : Bytes := utf8 "/usr/lib/libSMT_engine_sh.so"

@[inherit_doc speechTree] def libEngine : Bytes := utf8 "/lib/libSMT_engine_sh.so"

/-- `samsung_tts_path_is_wanted`. -/
def samsungTtsPathIsWanted (name : Bytes) : Bool :=
  strstr name speechTree || strstr name usrEngine || strstr name libEngine

/-- `create_all_folders`, from the code of the folder before: `mkdir` also fails with a code other
than `EEXIST`.  What the last folder returns is returned. -/
def createAllFolders (dirs : List DirItem) : List Visit → ℤ → Option ℤ
  | [], ret => some ret
  | v :: vs, ret =>
    let r := v.record
    let o := v.calls
    let go (ret : ℤ) : Option ℤ :=
      if vs.isEmpty || o.nextFolder then createAllFolders dirs vs ret else some (-erdfail)
    if r.recordType = .folder then
      (makePathFromDirList dirs r.parentId r.name).bind fun
        | .error code => some code
        | .ok _ =>
          if !o.mkdir then some (-1)
          else if o.attributes = 0 && !r.isLink then go o.xattr
          else go o.attributes
    else go ret

/-! ### The relative path of a record -/

/-- The names of the folders from the output folder down to the one with the id. -/
def folderNames (dirs : List DirItem) : ℕ → ℕ → Option (List Bytes)
  | 0, _ => none
  | fuel + 1, objId =>
    if objId = rootIno then some []
    else (listGet dirs objId).bind fun item =>
      (folderNames dirs fuel item.parentId).map (· ++ [item.name])

/-- The path of a record relative to the output folder. -/
def relPath (dirs : List DirItem) (r : Record) : Option Bytes :=
  (folderNames dirs dirs.length r.parentId).map fun names =>
    names.flatMap (· ++ [slash]) ++ r.name

/-- The folder of every item but the first has an id, and the first is the output folder. -/
def Rooted (root : Bytes) (dirs : List DirItem) : Prop :=
  ∃ rest, dirs = rootItem root :: rest ∧ ∀ item ∈ rest, item.parentId ≠ 0

variable {dirs : List DirItem} {root path p : Bytes} {r : Record} {fuel objId : ℕ}

lemma rooted_root : Rooted root [rootItem root] := ⟨[], rfl, fun _ h => absurd h List.not_mem_nil⟩

lemma Rooted.addFolder (h : Rooted root dirs) (hr : r.parentId ≠ 0) :
    Rooted root (addFolder dirs r) := by
  unfold Extractor.addFolder
  split
  · obtain ⟨rest, rfl, hrest⟩ := h
    refine ⟨_, rfl, fun item hitem => ?_⟩
    rcases (List.mem_orderedInsert _).1 hitem with rfl | hitem
    · exact hr
    · exact hrest item hitem
  · exact h

/-- The folders of all the records. -/
def folders (root : Bytes) (rs : List Record) : List DirItem := rs.foldl addFolder [rootItem root]

lemma rooted_foldl {rs : List Record} (h : Rooted root dirs) (hrs : ∀ r ∈ rs, r.parentId ≠ 0) :
    Rooted root (rs.foldl addFolder dirs) := by
  induction rs generalizing dirs with
  | nil => exact h
  | cons r rs ih =>
    exact ih (h.addFolder (hrs r List.mem_cons_self))
      fun r' hr' => hrs r' (List.mem_cons_of_mem _ hr')

/-- The list that is made has all the folders. -/
lemma makeFolderList_eq {vs : List Visit} {dirs' : List DirItem}
    (h : makeFolderList vs dirs = .ok dirs') :
    dirs' = (vs.map Visit.record).foldl addFolder dirs := by
  induction vs generalizing dirs with
  | nil => exact (Except.ok.inj h).symm
  | cons v vs ih =>
    rw [makeFolderList] at h
    split at h
    · exact ih h
    · cases h

lemma makeFolderList_ne_error_zero {vs : List Visit} : makeFolderList vs dirs ≠ .error 0 := by
  induction vs generalizing dirs with
  | nil =>
    intro h
    cases h
  | cons v vs ih =>
    rw [makeFolderList]
    split_ifs
    · exact ih
    · intro h
      exact absurd (Except.error.inj h) (by decide)

lemma Rooted.listGet_root (h : Rooted root dirs) : listGet dirs rootIno = some (rootItem root) := by
  obtain ⟨rest, rfl, -⟩ := h
  rw [listGet, List.find?_cons_of_pos (by simp [rootItem])]

lemma Rooted.parentId_ne_zero (h : Rooted root dirs) {item : DirItem}
    (hitem : listGet dirs objId = some item) (hobj : objId ≠ rootIno) : item.parentId ≠ 0 := by
  obtain ⟨rest, rfl, hrest⟩ := h
  have hhead : (decide ((rootItem root).objectId = objId)) = false := decide_eq_false hobj.symm
  simp only [listGet, List.find?_cons, hhead] at hitem
  exact hrest item (List.mem_of_find?_eq_some hitem)

/-- **The path is rebuilt from its end.**  The walk ends at the output folder, and the names of the
folders below it stand before the name in their order. -/
lemma makePath_eq_ok_iff (hroot : Rooted root dirs) (hobj : objId ≠ 0) :
    makePath dirs (fuel + 1) objId path = some (.ok p) ↔
      ∃ names, folderNames dirs fuel objId = some names ∧
        p = root ++ slash :: (names.flatMap (· ++ [slash]) ++ path) := by
  induction fuel generalizing objId path with
  | zero =>
    rw [makePath, if_neg hobj]
    cases listGet dirs objId <;> simp [makePath, folderNames]
  | succ fuel ih =>
    rw [makePath, if_neg hobj]
    by_cases hid : objId = rootIno
    · subst hid
      rw [hroot.listGet_root]
      simp [makePath, rootItem, folderNames, eq_comm]
    · cases hget : listGet dirs objId with
      | none => simp [folderNames, hid, hget]
      | some item =>
        simp only
        rw [ih (hroot.parentId_ne_zero hget hid)]
        simp [folderNames, hid, hget]

/-- **The path of a record** is that of the output folder, a slash and its relative path. -/
theorem makePathFromDirList_eq_ok_iff (hroot : Rooted root dirs) (hr : r.parentId ≠ 0) :
    makePathFromDirList dirs r.parentId r.name = some (.ok p) ↔
      ∃ rel, relPath dirs r = some rel ∧ p = root ++ slash :: rel := by
  rw [makePathFromDirList, makePath_eq_ok_iff hroot hr, relPath]
  simp

end SamsungTVVoices.Extractor
