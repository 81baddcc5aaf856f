/-
The runtime archive on a drive of Windows (`rebuildRuntime`).

The add-on runs on Windows, whose file system finds a name however its letters are capitalised, and
keeps the spelling that the name was made with.  `fold` says which names are the same to it.  A copy
of a runtime folder into the merged folder finds what is there under any spelling, so the archive
has the spelling of the first pack that has a path.

`roundTrips_rebuildRuntime` is the result about the store: what the guest's kernel unpacks is the
overlay of the packs.  Where the file system tells all names apart, the store is the one of
`Store.Runtime`, as `rebuildRuntime_ofTree` says.
-/
import SamsungTVVoices.Store.Runtime
import SamsungTVVoices.Lib.FoldedTree

namespace SamsungTVVoices.Store.Windows

variable {κ : Type*} [DecidableEq κ] {fold : FileName → κ}

/-- A folder on a drive. -/
abbrev DriveFolder (fold : FileName → κ) := FoldedTree fold Bytes

/-- The content of `packsRoot()`: the folder of each pack, if there is one. -/
abbrev DrivePacks (fold : FileName → κ) := PackId → Option (DriveFolder fold)

/-- `os.path.isfile` -/
def isFile (t : DriveFolder fold) (p : List FileName) : Bool :=
  match t.node p with
  | some (.file _) => true
  | _ => false

/-- `os.path.isdir` -/
def isDir (t : DriveFolder fold) (p : List FileName) : Bool := t.node p = some .dir

/-- `os.listdir`, of a folder that is there: the names as they are spelled. -/
def listdir (t : DriveFolder fold) (p : List FileName) : List FileName :=
  t.spelled.children (t.spell (p.map fold))

/-- `isPackInstalled`. -/
def isPackInstalled (packs : DrivePacks fold) (id : PackId) : Bool :=
  match packs id with
  | some t => isFile t [packJson]
  | none => false

/-- `installedPackIds`. -/
def installedPackIds (packs : DrivePacks fold) : List PackId :=
  PACKS.filter (isPackInstalled packs)

/-- The folder of a pack in `_runtimeRoots`, if it is there. -/
def runtimeRoot (packs : DrivePacks fold) (id : PackId) : Option (DriveFolder fold) :=
  (packs id).bind fun t => t.subtree [runtimeName]

/-- The folders of `_runtimeRoots` that are there; of one that is not, every test is false. -/
def runtimeRoots (packs : DrivePacks fold) : List (DriveFolder fold) :=
  (installedPackIds packs).filterMap (runtimeRoot packs)

/-- The copies of `rebuildRuntime` into the folder made by `mkdtemp`. -/
def mergeRuntime (packs : DrivePacks fold) : Option (DriveFolder fold) :=
  (installedPackIds packs).foldlM (fun merged id => do (← runtimeRoot packs id).copytree merged)
    FoldedTree.empty

/-- `rebuildRuntime`: what it leaves at `runtimePath()`, or `none` if it raises.  The walk meets the
names as they are spelled. -/
def rebuildRuntime (clean : Bytes) (packs : DrivePacks fold) : Option (Option Bytes) :=
  if installedPackIds packs = [] then some none
  else (mergeRuntime packs).map fun merged => some (clean ++ appended merged.spelled)

lemma mergeRuntime_eq {packs : DrivePacks fold} {roots : List (DriveFolder fold)}
    (h : (installedPackIds packs).mapM (runtimeRoot packs) = some roots) :
    mergeRuntime packs = FoldedTree.copytrees roots FoldedTree.empty :=
  foldlM_bind_eq (runtimeRoot packs) FoldedTree.copytree h FoldedTree.empty

/-- Where the merge goes through, every installed pack has its runtime folder. -/
lemma mergeRuntime_eq_some {packs : DrivePacks fold} {merged : DriveFolder fold}
    (h : mergeRuntime packs = some merged) :
    (installedPackIds packs).mapM (runtimeRoot packs) = some (runtimeRoots packs) ∧
      FoldedTree.copytrees (runtimeRoots packs) FoldedTree.empty = some merged := by
  have hroots := mapM_of_foldlM_bind h
  exact ⟨hroots, (mergeRuntime_eq hroots).symm.trans h⟩

lemma rebuildRuntime_eq_some {clean : Bytes} {packs : DrivePacks fold} {merged : DriveFolder fold}
    (h : mergeRuntime packs = some merged) (hpacks : installedPackIds packs ≠ []) :
    rebuildRuntime clean packs = some (some (clean ++ appended merged.spelled)) := by
  rw [rebuildRuntime, if_neg hpacks, h, Option.map_some]

/-! ### Names that are all told apart -/

section OfTree

/-- The packs on a file system to which names are the same only if they are equal. -/
def ofPacks (packs : Packs) : DrivePacks id := fun id => (packs id).map FoldedTree.ofTree

lemma installedPackIds_ofPacks (packs : Packs) :
    installedPackIds (ofPacks packs) = Store.installedPackIds packs := by
  refine List.filter_congr fun id _ => ?_
  rw [isPackInstalled, Store.isPackInstalled, ofPacks]
  cases packs id with
  | none => rfl
  | some t =>
      dsimp only [Option.map_some]
      rw [isFile, Store.isFile, FoldedTree.node, List.map_id]
      rfl

lemma runtimeRoot_ofPacks (packs : Packs) (id : PackId) :
    runtimeRoot (ofPacks packs) id = (Store.runtimeRoot packs id).map FoldedTree.ofTree := by
  rw [runtimeRoot, Store.runtimeRoot, ofPacks]
  cases packs id with
  | none => rfl
  | some t => exact FoldedTree.subtree_ofTree t [runtimeName]

lemma mergeRuntime_ofPacks (packs : Packs) :
    mergeRuntime (ofPacks packs) = (Store.mergeRuntime packs).map FoldedTree.ofTree := by
  have hempty : (FoldedTree.empty : DriveFolder id) = FoldedTree.ofTree FileTree.empty :=
    FoldedTree.eq_ofTree _
  rw [mergeRuntime, Store.mergeRuntime, installedPackIds_ofPacks, hempty]
  generalize Store.installedPackIds packs = ids
  generalize (FileTree.empty : Folder) = base
  induction ids generalizing base with
  | nil => rfl
  | cons id ids ih =>
      rw [List.foldlM_cons, List.foldlM_cons, runtimeRoot_ofPacks]
      cases Store.runtimeRoot packs id with
      | none => rfl
      | some root =>
          simp only [Option.map_some, Option.bind_eq_bind, Option.bind_some,
            FoldedTree.copytree_ofTree]
          cases root.copytree base with
          | none => rfl
          | some merged => exact ih merged

/-- A file system that tells all names apart has the archive of the store with such names. -/
theorem rebuildRuntime_ofPacks (clean : Bytes) (packs : Packs) :
    rebuildRuntime clean (ofPacks packs) = Store.rebuildRuntime clean packs := by
  rw [rebuildRuntime, Store.rebuildRuntime, installedPackIds_ofPacks, mergeRuntime_ofPacks]
  refine if_congr Iff.rfl rfl ?_
  cases Store.mergeRuntime packs with
  | none => rfl
  | some merged =>
      simp only [Option.map_some]
      rw [FoldedTree.spelled_ofTree]

end OfTree

/-! ### What the guest unpacks -/

/-- The paths at which one of the folders has something, however they are spelled. -/
def allPaths (roots : List (DriveFolder fold)) : Finset (List κ) :=
  roots.foldr (fun t ks => t.keyed.paths ∪ ks) ∅

lemma mem_allPaths {roots : List (DriveFolder fold)} {k : List κ} :
    k ∈ allPaths roots ↔ ∃ t ∈ roots, t.keyed.node k ≠ none := by
  induction roots with
  | nil => simp [allPaths]
  | cons t roots ih =>
      rw [allPaths, List.foldr_cons, Finset.mem_union, t.keyed.mem_paths]
      change _ ∨ k ∈ allPaths roots ↔ _
      rw [ih]
      simp

/-- The packs are installed with runtime folders that can be merged and archived. -/
structure Archivable (packs : DrivePacks fold) (roots : List (DriveFolder fold)) : Prop where
  roots_eq : (installedPackIds packs).mapM (runtimeRoot packs) = some roots
  nonempty : roots ≠ []
  compatible : ∀ s ∈ roots, ∀ t ∈ roots, FileTree.Compatible s.keyed t.keyed
  data_lt : ∀ t ∈ roots, ∀ p b, t.node p = some (.file b) → b.length < 2 ^ 32
  count_lt : (allPaths roots).card < 2 ^ 31

/-- No path on the drive, however it is spelled, is as long as `2 ^ 32` bytes with its NUL.  A path
of Windows has at most 32767 units of UTF-16. -/
def ShortNames (roots : List (DriveFolder fold)) : Prop :=
  ∀ p, (∃ t ∈ roots, t.node p ≠ none) → (utf8 (guestName p)).length + 1 < 2 ^ 32

/-- The path is spelled as the first of the folders that has it spells it, name by name. -/
def SpelledFirst (roots : List (DriveFolder fold)) (p : List FileName) : Prop :=
  ∀ q, q <+: p → FoldedTree.firstName roots (q.map fold) = q.getLast?

instance (roots : List (DriveFolder fold)) (p : List FileName) : Decidable (SpelledFirst roots p) :=
  decidable_of_iff (∀ q ∈ p.inits, FoldedTree.firstName roots (q.map fold) = q.getLast?)
    (forall_congr' fun q => by rw [List.mem_inits])

/-- What is appended to the clean initramfs is read back, to its end, as the overlay of the
runtime folders: each path once, however it is spelled, after the directories it is in, and with
the spelling of the first pack that has it. -/
def RoundTrips (clean : Bytes) (packs : DrivePacks fold) (roots : List (DriveFolder fold)) :
    Prop :=
  ∃ (appendedBytes : Bytes) (entries : List Newc.Entry)
      (nodes : List (List FileName × Node Bytes)),
    rebuildRuntime clean packs = some (some (clean ++ appendedBytes)) ∧
    Newc.readArchive clean.length appendedBytes = some (entries, []) ∧
    entries.map entryView = nodes.map guestEntry ∧
    (∀ k x, (∃ p, (p, x) ∈ nodes ∧ p.map fold = k) ↔
      FileTree.overlayAll (roots.map FoldedTree.keyed) k = some x) ∧
    (∀ e ∈ nodes, SpelledFirst roots e.1) ∧
    (nodes.map fun e => e.1.map fold).Nodup ∧ (entries.map Newc.Entry.name).Nodup ∧
    nodes.Pairwise fun a b => ¬ b.1 <+: a.1

/-- The store merges the runtime folders into their overlay. -/
lemma Archivable.mergeRuntime_eq {packs : DrivePacks fold} {roots : List (DriveFolder fold)}
    (h : Archivable packs roots) : ∃ merged, mergeRuntime packs = some merged ∧
      (∀ k, merged.keyed.node k = FileTree.overlayAll (roots.map FoldedTree.keyed) k) ∧
      ∀ k, merged.name k = FoldedTree.firstName roots k := by
  have hcompatible : ∀ s ∈ roots.map FoldedTree.keyed, ∀ t ∈ roots.map FoldedTree.keyed,
      FileTree.Compatible s t := by
    intro s hs t ht
    obtain ⟨root, hroot, rfl⟩ := List.mem_map.1 hs
    obtain ⟨other, hother, rfl⟩ := List.mem_map.1 ht
    exact h.compatible root hroot other hother
  obtain ⟨keyed, hcopy, hnode⟩ := FileTree.copyAll_eq_overlayAll
    (FoldedTree.forall₂_lists_entries roots) (FoldedTree.empty : DriveFolder fold).keyed
    hcompatible fun t _ => t.compatible_empty
  rw [← FoldedTree.keyed_copytrees roots FoldedTree.empty] at hcopy
  obtain ⟨merged, hmerged, rfl⟩ := Option.map_eq_some_iff.1 hcopy
  refine ⟨merged, by rw [Windows.mergeRuntime_eq h.roots_eq, hmerged], fun k => ?_, fun k => ?_⟩
  · rw [hnode, FoldedTree.empty, FileTree.node_empty]
    by_cases hk : k = []
    · rw [hk, FileTree.overlayAll_nil (by simpa using h.nonempty)]
      rfl
    · rw [if_neg hk, Option.or_none]
  · rw [FoldedTree.name_copytrees_of_compatible roots hmerged h.compatible
      fun t _ => FileTree.compatible_empty _]
    rfl

lemma Archivable.installed {packs : DrivePacks fold} {roots : List (DriveFolder fold)}
    (h : Archivable packs roots) : installedPackIds packs ≠ [] := by
  intro hnil
  have hroots := h.roots_eq
  rw [hnil] at hroots
  exact h.nonempty (by simpa using hroots.symm)

/-- What the walk through the merged folder meets. -/
lemma mem_walk_merged {roots : List (DriveFolder fold)} {merged : DriveFolder fold}
    (hnode : ∀ k, merged.keyed.node k = FileTree.overlayAll (roots.map FoldedTree.keyed) k)
    {p : List FileName} {x : Node Bytes} (h : (p, x) ∈ merged.spelled.walk) :
    ∃ t ∈ roots, t.node p = some x := by
  have hx := (FoldedTree.mem_walk_spelled.1 h).2
  rw [FoldedTree.node, hnode] at hx
  obtain ⟨t, ht, htx⟩ := FileTree.exists_of_overlayAll hx
  obtain ⟨root, hroot, rfl⟩ := List.mem_map.1 ht
  exact ⟨root, hroot, htx⟩

lemma nodup_walk_merged (merged : DriveFolder fold) :
    (merged.spelled.walk.map fun e => e.1.map fold).Nodup := by
  rw [List.Nodup, List.pairwise_map]
  refine (List.pairwise_map.1 merged.spelled.nodup_walk).imp_of_mem fun {a b} ha hb hne heq => ?_
  refine hne ?_
  rw [← (FoldedTree.mem_walk_spelled.1 ha).1, ← (FoldedTree.mem_walk_spelled.1 hb).1, heq]

/-- What is appended to a clean initramfs of whole words is read back as the walk through the merged
folder. -/
lemma Archivable.readArchive {clean : Bytes} (hclean : clean.length % 4 = 0)
    {packs : DrivePacks fold} {roots : List (DriveFolder fold)} (h : Archivable packs roots)
    (hnames : ShortNames roots) {merged : DriveFolder fold}
    (hnode : ∀ k, merged.keyed.node k = FileTree.overlayAll (roots.map FoldedTree.keyed) k) :
    ∃ entries, Newc.readArchive clean.length (appended merged.spelled) = some (entries, []) ∧
      entries.map entryView = merged.spelled.walk.map guestEntry := by
  have hfits : ∀ e ∈ merged.spelled.walk, EntryFits e := by
    rintro ⟨p, x⟩ he
    obtain ⟨t, ht, hx⟩ := mem_walk_merged hnode he
    refine ⟨?_, ?_, hnames p ⟨t, ht, by rw [hx]; exact Option.some_ne_none x⟩⟩
    · rintro rfl
      have hroot : t.node [] = some .dir := t.keyed.root
      exact (Option.some.inj (hroot.symm.trans hx)).symm
    · cases x with
      | dir => simp [entryData]
      | file b => exact h.data_lt t ht p b hx
  have hlength : merged.spelled.walk.length ≤ (allPaths roots).card := by
    rw [← List.length_map (f := fun e => e.1.map fold),
      ← List.toFinset_card_of_nodup (nodup_walk_merged merged)]
    refine Finset.card_le_card fun k hk => ?_
    obtain ⟨⟨p, x⟩, he, rfl⟩ := List.mem_map.1 (List.mem_toFinset.1 hk)
    obtain ⟨t, ht, hx⟩ := mem_walk_merged hnode he
    exact mem_allPaths.2 ⟨t, ht, by rw [← FoldedTree.node, hx]; exact Option.some_ne_none x⟩
  have hcount := h.count_lt
  exact readArchive_appended hclean merged.spelled hfits (by omega)

/-- **The runtime archive.**  Whatever names the file system takes for the same, what the store
appends to a clean initramfs of whole words is read back as the overlay of the installed packs. -/
theorem roundTrips_rebuildRuntime {clean : Bytes} (hclean : clean.length % 4 = 0)
    {packs : DrivePacks fold} {roots : List (DriveFolder fold)} (h : Archivable packs roots)
    (hnames : ShortNames roots) : RoundTrips clean packs roots := by
  obtain ⟨merged, hmerged, hnode, hname⟩ := h.mergeRuntime_eq
  obtain ⟨entries, hread, hview⟩ := h.readArchive hclean hnames hnode
  refine ⟨appended merged.spelled, entries, merged.spelled.walk,
    rebuildRuntime_eq_some hmerged h.installed, hread, hview, fun k x => ?_, ?_,
    nodup_walk_merged merged, ?_, merged.spelled.pairwise_walk⟩
  · rw [← hnode, ← merged.lists_entries.mem, FoldedTree.entries, List.mem_map]
    constructor
    · rintro ⟨p, hp, rfl⟩
      exact ⟨(p, x), hp, rfl⟩
    · rintro ⟨⟨p, y⟩, hp, heq⟩
      obtain ⟨rfl, rfl⟩ := Prod.mk.inj heq
      exact ⟨p, hp, rfl⟩
  · rintro ⟨p, x⟩ he q hq
    obtain ⟨hspell, hx⟩ := FoldedTree.mem_walk_spelled.1 he
    rw [← hname]
    exact (FoldedTree.spell_map_eq_iff (by rw [hx]; exact Option.some_ne_none x)).1 hspell q hq
  · have hnames : entries.map Newc.Entry.name =
        (merged.spelled.walk.map Prod.fst).map fun p => utf8 (guestName p) := by
      have h := congrArg (List.map Prod.fst) hview
      rw [List.map_map, List.map_map] at h
      rw [List.map_map]
      exact h
    rw [hnames]
    exact merged.spelled.nodup_walk.map (utf8_injective.comp guestName_injective)

/-! ### Capitals -/

/-- A name as the file system compares it: letter by letter, in capitals. -/
def foldName (upcase : Char → Char) (n : FileName) : List Char := n.name.toList.map upcase

variable {upcase : Char → Char}

variable (upcase) in
lemma length_guestName (p : List FileName) : (guestName p).toList.length =
    15 + ((p.map (foldName upcase)).map fun c => c.length + 1).sum := by
  rw [guestName, String.toList_append, String.toList_join, List.length_append, List.length_flatMap,
    List.map_map, List.map_map]
  congr 2
  refine List.map_congr_left fun n _ => ?_
  simp [foldName]

/-- A bound on the number of letters is one on the number of bytes, in any spelling. -/
lemma shortNames_of_letters {roots : List (DriveFolder (foldName upcase))}
    (h : ∀ t ∈ roots, ∀ k ∈ t.keyed.paths,
      4 * (15 + (k.map fun c => c.length + 1).sum) + 1 < 2 ^ 32) : ShortNames roots := by
  rintro p ⟨t, ht, hp⟩
  have hletters := h t ht (p.map (foldName upcase)) ((t.keyed.mem_paths _).2 hp)
  have hbytes := length_utf8_le (guestName p)
  rw [length_guestName upcase] at hbytes
  omega

/-- A bound on the files of the folders, which can be tested. -/
lemma data_lt_of_paths {roots : List (DriveFolder fold)} {limit : ℕ}
    (h : ∀ t ∈ roots, ∀ k ∈ t.keyed.paths, ((t.keyed.node k).elim [] entryData).length < limit) :
    ∀ t ∈ roots, ∀ p b, t.node p = some (.file b) → b.length < limit := by
  intro t ht p b hb
  have hmem : p.map fold ∈ t.keyed.paths := by
    rw [t.keyed.mem_paths, ← FoldedTree.node, hb]
    exact Option.some_ne_none _
  have hlt := h t ht _ hmem
  rwa [← FoldedTree.node, hb] at hlt

/-- The folder of a pack with the entries given in its runtime folder. -/
def packOf (entries : List (List FileName × Node Bytes)) : Option (DriveFolder fold) :=
  (([packJson], Node.file []) :: ([runtimeName], .dir) ::
    entries.map fun e => (runtimeName :: e.1, e.2)).foldlM FoldedTree.copyEntry FoldedTree.empty

/-- Two packs that capitalise the name of a folder differently, with a file each in it. -/
def twoSpellings : DrivePacks (foldName Char.toUpper)
  | .europe => packOf [([.ofText "Voice" (by decide)], .dir),
      ([.ofText "Voice" (by decide), .ofText "a.so" (by decide)], .file [1])]
  | .northAmerica => packOf [([.ofText "VOICE" (by decide)], .dir),
      ([.ofText "VOICE" (by decide), .ofText "A.so" (by decide)], .file [2])]

/-- The archive has the folder once, and in it the file of the later pack. -/
theorem roundTrips_twoSpellings : RoundTrips [] twoSpellings (runtimeRoots twoSpellings) := by
  obtain ⟨merged, hmerged⟩ : ∃ merged, mergeRuntime twoSpellings = some merged :=
    Option.isSome_iff_exists.1 (by decide +kernel)
  refine roundTrips_rebuildRuntime rfl ⟨(mergeRuntime_eq_some hmerged).1, ?_, ?_, ?_, ?_⟩
    (shortNames_of_letters (by decide +kernel))
  · decide +kernel
  · decide +kernel
  · exact data_lt_of_paths (by decide +kernel)
  · decide +kernel

end SamsungTVVoices.Store.Windows
