/-
The runtime archive (`rebuildRuntime`).

The runtime folders of the installed packs are copied over one another in the order of
`PACKS`, and the merged folder is appended to the clean initramfs as a `newc` archive.

`readArchive_appended` reads the archive of any folder back.  The folders of this module have names
that are told apart by their capitals; `Store.Windows` has the store on a drive of Windows.
-/
import SamsungTVVoices.Store.Packs
import SamsungTVVoices.Store.Newc

open FixedDigits

namespace SamsungTVVoices.Store

/-- The content of `packsRoot()`: the folder of each pack, if there is one. -/
abbrev Packs := PackId → Option Folder

/-- `pack.json`, which marks a pack as installed. -/
def packJson : FileName := .ofText "pack.json" (by decide)

/-- `runtime`, the folder of a pack that goes into the archive. -/
def runtimeName : FileName := .ofText "runtime" (by decide)

/-- `os.path.isfile`. -/
def isFile (t : Folder) (p : List FileName) : Bool :=
  match t.node p with
  | some (.file _) => true
  | _ => false

/-- `isPackInstalled`. -/
def isPackInstalled (packs : Packs) (id : PackId) : Bool :=
  match packs id with
  | some t => isFile t [packJson]
  | none => false

/-- `installedPackIds`. -/
def installedPackIds (packs : Packs) : List PackId := PACKS.filter (isPackInstalled packs)

/-- The folder of a pack in `_runtimeRoots`, if it is there. -/
def runtimeRoot (packs : Packs) (id : PackId) : Option Folder :=
  (packs id).bind fun t => t.subtree [runtimeName]

/-- The copies of `rebuildRuntime` into the folder made by `mkdtemp`. -/
def mergeRuntime (packs : Packs) : Option Folder :=
  (installedPackIds packs).foldlM (fun merged id => do (← runtimeRoot packs id).copytree merged)
    FileTree.empty

/-- The mode of an entry. -/
def entryMode : Node Bytes → ℕ
  | .dir => 0o040755
  | .file _ => 0o100644

/-- The data of an entry. -/
def entryData : Node Bytes → Bytes
  | .dir => []
  | .file b => b

/-- The entries from `inode` on, and the trailer. -/
def writeEntries : ℕ → List (List FileName × Node Bytes) → Bytes
  | inode, [] => writeNewcEntry "TRAILER!!!" 0 [] inode
  | inode, (p, x) :: rest =>
      writeNewcEntry (archiveName p x) (entryMode x) (entryData x) inode ++
        writeEntries (inode + 1) rest

/-- What is written after the clean initramfs. -/
def appended (merged : Folder) : Bytes := writeEntries 1000 merged.walk

/-- `rebuildRuntime`: what it leaves at `runtimePath()`, or `none` if it raises, and then it
has left there what was there before. -/
def rebuildRuntime (clean : Bytes) (packs : Packs) : Option (Option Bytes) :=
  if installedPackIds packs = [] then some none
  else (mergeRuntime packs).map fun merged => some (clean ++ appended merged)

/-! ### Reading the entries back -/

/-- The name that a path has in the guest. -/
def guestName (p : List FileName) : String :=
  "opt/smt/runtime" ++ String.join (p.map fun n => "/" ++ n.name)

lemma archiveName_eq_guestName {p : List FileName} {x : Node Bytes} (h : p = [] → x = .dir) :
    archiveName p x = guestName p := by
  refine String.toList_inj.1 ?_
  rw [toList_archiveName h, guestName, String.toList_append, String.toList_join,
    List.flatMap_map, pathChars]
  simp

/-- What a reader should see of a path: name, mode and data. -/
def guestEntry (e : List FileName × Node Bytes) : Bytes × ℕ × Bytes :=
  (utf8 (guestName e.1), entryMode e.2, entryData e.2)

/-- What a reader sees of an entry. -/
def entryView (e : Newc.Entry) : Bytes × ℕ × Bytes := (e.name, e.header.mode, e.data)

lemma entryMode_lt (x : Node Bytes) : entryMode x < 2 ^ 32 := by
  cases x <;> simp [entryMode]

/-- The name of a path does not end the archive. -/
lemma utf8_guestName_ne_trailer (p : List FileName) : utf8 (guestName p) ≠ Newc.trailer := by
  intro h
  rw [guestName, utf8_append] at h
  have hhead := congrArg List.head? h
  rw [show utf8 "opt/smt/runtime" = 111 :: (utf8 "opt/smt/runtime").tail from rfl,
    List.cons_append, Newc.trailer, List.head?_cons, List.head?_cons] at hhead
  exact absurd hhead (by decide)

/-- The blocks of the entries from `inode` on. -/
def entryBlocks : ℕ → List (List FileName × Node Bytes) → List Newc.Block
  | _, [] => []
  | inode, (p, x) :: rest =>
      newcBlock (guestName p) (entryMode x) (entryData x) inode :: entryBlocks (inode + 1) rest

/-- What is required of the entries for the format to hold them. -/
structure EntryFits (e : List FileName × Node Bytes) : Prop where
  root : e.1 = [] → e.2 = .dir
  data_lt : (entryData e.2).length < 2 ^ 32
  name_lt : (utf8 (guestName e.1)).length + 1 < 2 ^ 32

lemma EntryFits.fits {e : List FileName × Node Bytes} (h : EntryFits e) (inode : ℕ)
    (hinode : inode < 2 ^ 32) : Fits (guestName e.1) (entryMode e.2) (entryData e.2) inode :=
  ⟨hinode, entryMode_lt e.2, h.data_lt, h.name_lt⟩

/-- The bytes of the entries are the bytes of their blocks. -/
lemma writeEntries_eq (nodes : List (List FileName × Node Bytes)) :
    ∀ inode : ℕ, (∀ e ∈ nodes, EntryFits e) → inode + nodes.length < 2 ^ 32 →
      writeEntries inode nodes = (entryBlocks inode nodes).flatMap Newc.Block.bytes ++
        (newcBlock "TRAILER!!!" 0 [] (inode + nodes.length)).bytes := by
  induction nodes with
  | nil =>
      intro inode _ hinode
      exact writeNewcEntry_eq_bytes ⟨by simpa using hinode, by norm_num, by simp, by decide⟩
  | cons e nodes ih =>
      intro inode hnodes hinode
      obtain ⟨p, x⟩ := e
      have he : EntryFits (p, x) := hnodes _ List.mem_cons_self
      rw [List.length_cons] at hinode
      have hwrite := writeNewcEntry_eq_bytes (he.fits inode (by omega))
      have hrest := ih (inode + 1) (fun f hf => hnodes f (List.mem_cons_of_mem _ hf)) (by omega)
      rw [writeEntries, archiveName_eq_guestName he.root, hwrite, hrest, entryBlocks,
        List.flatMap_cons, List.append_assoc, List.length_cons,
        show inode + 1 + nodes.length = inode + (nodes.length + 1) by omega]

lemma entryBlocks_wellFormed (nodes : List (List FileName × Node Bytes)) :
    ∀ inode : ℕ, (∀ e ∈ nodes, EntryFits e) → inode + nodes.length < 2 ^ 32 →
      ∀ b ∈ entryBlocks inode nodes, b.WellFormed ∧ b.entry.name ≠ Newc.trailer := by
  induction nodes with
  | nil => intro inode _ _ b hb; exact absurd hb (by simp [entryBlocks])
  | cons e nodes ih =>
      intro inode hnodes hinode b hb
      rw [List.length_cons] at hinode
      rcases List.mem_cons.1 hb with rfl | hb
      · have he := hnodes e List.mem_cons_self
        exact ⟨(he.fits inode (by omega)).wellFormed, utf8_guestName_ne_trailer e.1⟩
      · exact ih (inode + 1) (fun f hf => hnodes f (List.mem_cons_of_mem _ hf)) (by omega) b hb

lemma view_entryBlocks (nodes : List (List FileName × Node Bytes)) : ∀ inode : ℕ,
    ((entryBlocks inode nodes).map Newc.Block.entry).map entryView = nodes.map guestEntry := by
  induction nodes with
  | nil => intro inode; rfl
  | cons e nodes ih =>
      intro inode
      rw [entryBlocks, List.map_cons, List.map_cons, List.map_cons, ih]
      rfl

/-- What is appended for a folder is read back as the walk through it. -/
theorem readArchive_appended {offset : ℕ} (hoffset : offset % 4 = 0) (merged : Folder)
    (hnodes : ∀ e ∈ merged.walk, EntryFits e) (hcount : 1000 + merged.walk.length < 2 ^ 32) :
    ∃ entries, Newc.readArchive offset (appended merged) = some (entries, []) ∧
      entries.map entryView = merged.walk.map guestEntry := by
  have htrailer : Fits "TRAILER!!!" 0 [] (1000 + merged.walk.length) :=
    ⟨hcount, by norm_num, by simp, by decide⟩
  refine ⟨(entryBlocks 1000 merged.walk).map Newc.Block.entry, ?_, view_entryBlocks _ 1000⟩
  rw [appended, writeEntries_eq _ 1000 hnodes hcount]
  exact Newc.readArchive_append hoffset htrailer.wellFormed rfl
    (entryBlocks_wellFormed _ 1000 hnodes hcount)

/-! ### The merged folder -/

/-- A loop over names, each of which has a value, is a loop over the values. -/
lemma foldlM_bind_eq.{u} {ι : Type*} {α σ : Type u} (f : ι → Option α) (g : α → σ → Option σ)
    {ids : List ι} {values : List α} (h : ids.mapM f = some values) (base : σ) :
    ids.foldlM (fun s id => do g (← f id) s) base = values.foldlM (fun s a => g a s) base := by
  induction ids generalizing values base with
  | nil =>
      obtain rfl : [] = values := by simpa using h
      rfl
  | cons id ids ih =>
      rw [List.mapM_cons] at h
      obtain ⟨a, ha, h⟩ := Option.bind_eq_some_iff.1 h
      obtain ⟨as, has, h⟩ := Option.bind_eq_some_iff.1 h
      obtain rfl := Option.some.inj h
      rw [List.foldlM_cons, List.foldlM_cons, ha]
      simp only [Option.bind_eq_bind, Option.bind_some]
      cases hstep : g a base with
      | none => rfl
      | some s => exact ih has s

/-- A loop that goes through has a value for each of the names. -/
lemma mapM_of_foldlM_bind.{u} {ι : Type*} {α σ : Type u} {f : ι → Option α} {g : α → σ → Option σ}
    {ids : List ι} {base s : σ} (h : ids.foldlM (fun s id => do g (← f id) s) base = some s) :
    ids.mapM f = some (ids.filterMap f) := by
  induction ids generalizing base with
  | nil => rfl
  | cons id ids ih =>
      rw [List.foldlM_cons] at h
      obtain ⟨t, ht, h⟩ := Option.bind_eq_some_iff.1 h
      obtain ⟨a, ha, -⟩ := Option.bind_eq_some_iff.1 ht
      rw [List.mapM_cons, ha, ih h, List.filterMap_cons_some ha]
      rfl

lemma mergeRuntime_eq {packs : Packs} {roots : List Folder}
    (h : (installedPackIds packs).mapM (runtimeRoot packs) = some roots) :
    mergeRuntime packs =
      roots.foldlM (fun merged t => t.copytree merged) FileTree.empty :=
  foldlM_bind_eq (runtimeRoot packs) FileTree.copytree h FileTree.empty

lemma guestName_injective : Function.Injective guestName := by
  intro p q h
  refine archiveName_injective (x := .dir) (y := .dir) (fun _ => rfl) (fun _ => rfl) ?_
  rw [archiveName_eq_guestName fun _ => rfl, archiveName_eq_guestName fun _ => rfl, h]

/-! ### A store with one pack -/

/-- A runtime folder with one empty file. -/
def oneFile (n : FileName) : Folder :=
  FileTree.empty.insert [] n (.file []) FileTree.empty.root fun h => by simp at h

/-- A pack whose runtime folder is `oneFile n`. -/
def oneFilePack (n : FileName) : Folder :=
  ((FileTree.empty.insert [] packJson (.file []) FileTree.empty.root fun h => by simp at h).insert
    [] runtimeName .dir (FileTree.root _) fun _ => rfl).insert [runtimeName] n (.file [])
      (by simp) fun h => by simp at h

/-- The store with one such pack. -/
def oneFilePacks (n : FileName) : Packs
  | .europe => some (oneFilePack n)
  | .northAmerica => none

lemma installedPackIds_oneFilePacks (n : FileName) :
    installedPackIds (oneFilePacks n) = [.europe] := by
  have hfile : isFile (oneFilePack n) [packJson] = true := by
    have hne : packJson ≠ runtimeName := by decide
    have hnode : (oneFilePack n).node [packJson] = some (.file []) := by
      simp [oneFilePack, hne]
    rw [isFile, hnode]
  simp [installedPackIds, PACKS, isPackInstalled, oneFilePacks, hfile]

lemma runtimeRoot_oneFilePacks (n : FileName) :
    runtimeRoot (oneFilePacks n) .europe = some (oneFile n) := by
  have hdir : (oneFilePack n).node [runtimeName] = some .dir := by simp [oneFilePack]
  obtain ⟨u, hu⟩ := FileTree.exists_subtree hdir
  have hnode := (FileTree.subtree_eq_some hu).2
  have hone : u = oneFile n := by
    ext1 p
    rw [hnode]
    cases p with
    | nil => simp [hdir, FileTree.root]
    | cons m p => simp [oneFilePack, oneFile]
  rw [runtimeRoot]
  show (oneFilePack n).subtree [runtimeName] = _
  rw [hu, hone]

/-- The archive of a store with one pack that has one runtime file. -/
lemma rebuildRuntime_oneFilePacks (clean : Bytes) (n : FileName) :
    rebuildRuntime clean (oneFilePacks n) = some (some (clean ++ appended (oneFile n))) := by
  have hroots : (installedPackIds (oneFilePacks n)).mapM (runtimeRoot (oneFilePacks n)) =
      some [oneFile n] := by
    rw [installedPackIds_oneFilePacks, List.mapM_cons, runtimeRoot_oneFilePacks]
    rfl
  have hcopy : (oneFile n).copytree FileTree.empty = some (oneFile n) := by
    rw [FileTree.copytree_eq_overlay (FileTree.compatible_empty _)]
    congr 1
    ext1 p
    rw [FileTree.node_overlay, FileTree.node_empty]
    by_cases hp : p = []
    · rw [hp, (oneFile n).root]
      rfl
    · rw [if_neg hp, Option.or_none]
  rw [rebuildRuntime, if_neg (by rw [installedPackIds_oneFilePacks]; exact List.cons_ne_nil _ _),
    mergeRuntime_eq hroots, List.foldlM_cons, hcopy]
  rfl

end SamsungTVVoices.Store
