/-
The voices that the store lists (`LANGUAGES`, `_runtimeRoots`, `availableVoiceDefinitions`).

The listing looks into the runtime folder of each pack, one test for each language and one for each
gender, while the guest sees the one folder into which `rebuildRuntime` has copied them all.  A file
that is copied onto a directory goes into that directory, so a library that one pack has as a
directory is missing from the archive although another pack has it.  The file system of Windows
finds a name however it is capitalised and the guest does not, so a path is missing too if the first
pack that has it capitalises it in another way.  `voiceInArchive_iff` says that nothing else can come
between the listing and the archive.
-/
import SamsungTVVoices.Store.Windows

namespace SamsungTVVoices.Store

/-! ### The languages -/

/-- The characters that a string has to be without to be in the name of a file. -/
def isPlain (s : String) : Bool := s.toList.all fun c => c != '/' && c != '\\' && c != '\x00'

/-- A row of `LANGUAGES`. -/
structure Language where
  localeKey : String
  languageId : ℕ
  languageName : String
  locale : String
  suffix : String
  modelFolder : String
  suffix_plain : isPlain suffix = true := by decide
  modelFolder_plain : isPlain modelFolder = true := by decide
  modelFolder_name : modelFolder ≠ "" ∧ modelFolder ≠ "." ∧ modelFolder ≠ ".." := by decide

/-- `LANGUAGES` -/
def LANGUAGES : List Language :=
  [.mk "ko_KR" 0 "Korean" "ko_KR" "kr" "Ko",
   .mk "en_US" 1 "US English" "en_US" "usen" "EnUS",
   .mk "en_GB" 2 "UK English" "en_GB" "uken" "EnGB",
   .mk "de_DE" 4 "German" "de_DE" "ge" "De",
   .mk "fr_FR" 5 "French" "fr_FR" "fr" "Fr",
   .mk "es_ES" 6 "Spanish" "es_ES" "es" "Es",
   .mk "it_IT" 7 "Italian" "it_IT" "it" "It",
   .mk "nl_NL" 8 "Dutch" "nl_NL" "nl" "Nl",
   .mk "pl_PL" 11 "Polish" "pl_PL" "pl" "Pl",
   .mk "ru_RU" 12 "Russian" "ru_RU" "ru" "Ru",
   .mk "da_DK" 13 "Danish" "da_DK" "dk" "Dk",
   .mk "sv_SE" 14 "Swedish" "sv_SE" "se" "Se",
   .mk "fi_FI" 15 "Finnish" "fi_FI" "fi" "Fi",
   .mk "nb_NO" 16 "Norwegian" "nb_NO" "no" "No",
   .mk "pt_PT" 17 "Portuguese" "pt_PT" "pt" "Pt"]

/-- The genders, by their number: `(0, "Female"), (1, "Male")`. -/
inductive Gender where
  | female | male
deriving DecidableEq, Repr

namespace Gender

def model : Gender → ℕ
  | female => 0
  | male => 1

def name : Gender → String
  | female => "Female"
  | male => "Male"

/-- `gender.lower()` -/
def lower : Gender → String
  | female => "female"
  | male => "male"

/-- `prefix`, with which the names of the models begin. -/
def modelStart : Gender → String
  | female => "smtf_"
  | male => "smtm_"

end Gender

lemma isPlain_append (s t : String) : isPlain (s ++ t) = (isPlain s && isPlain t) := by
  simp [isPlain]

lemma not_mem_of_isPlain {s : String} (h : isPlain s = true) :
    '/' ∉ s.toList ∧ '\\' ∉ s.toList ∧ '\x00' ∉ s.toList := by
  rw [isPlain, List.all_eq_true] at h
  refine ⟨fun hc => ?_, fun hc => ?_, fun hc => ?_⟩ <;>
    exact absurd (h _ hc) (by decide)

namespace Language

/-- `"libSMT_lang_%s.so" % suffix` -/
def libraryText (l : Language) : String := "libSMT_lang_" ++ l.suffix ++ ".so"

lemma libraryText_ne (l : Language) {s : String} (h : s.length < 12) : l.libraryText ≠ s := by
  rintro rfl
  rw [libraryText, String.length_append, String.length_append] at h
  have : "libSMT_lang_".length = 12 := rfl
  omega

lemma libraryText_plain (l : Language) : isPlain l.libraryText = true := by
  rw [libraryText, isPlain_append, isPlain_append, l.suffix_plain]
  rfl

def libraryFile (l : Language) : FileName :=
  .ofText l.libraryText ⟨l.libraryText_ne (by decide), l.libraryText_ne (by decide),
    l.libraryText_ne (by decide), not_mem_of_isPlain l.libraryText_plain⟩

def modelFolderName (l : Language) : FileName :=
  .ofText l.modelFolder ⟨l.modelFolder_name.1, l.modelFolder_name.2.1, l.modelFolder_name.2.2,
    not_mem_of_isPlain l.modelFolder_plain⟩

lemma lib_plain : "Lib" ≠ "" ∧ "Lib" ≠ "." ∧ "Lib" ≠ ".." ∧ '/' ∉ "Lib".toList ∧
    '\\' ∉ "Lib".toList ∧ '\x00' ∉ "Lib".toList := by decide

def lib : FileName := .ofText "Lib" lib_plain

def modelName : FileName := .ofText "Model" (by decide)

/-- The path of the library of a language in a runtime folder. -/
def libraryPath (l : Language) : List FileName := [lib, l.libraryFile]

/-- The path of the folder with the models of a language. -/
def modelPath (l : Language) : List FileName := [modelName, l.modelFolderName]

end Language

/-! ### The listing -/

namespace Windows

section Listing

variable {κ : Type*} [DecidableEq κ] {fold : FileName → κ}

/-- `languageFound` -/
def languageFound (packs : DrivePacks fold) (l : Language) : Bool :=
  (runtimeRoots packs).any fun root => isFile root l.libraryPath && isDir root l.modelPath

/-- `modelFound`.  The names of a listing begin as they are spelled. -/
def modelFound (packs : DrivePacks fold) (l : Language) (g : Gender) : Bool :=
  (runtimeRoots packs).any fun root => isDir root l.modelPath &&
    (listdir root l.modelPath).any fun n => g.modelStart.toList.isPrefixOf n.name.toList

/-- A voice, as the list says it. -/
structure Voice where
  voiceId : String
  languageId : ℕ
  model : ℕ
  name : String
  locale : String
deriving DecidableEq, Repr

def voiceDefinition (l : Language) (g : Gender) : Voice where
  voiceId := l.localeKey ++ "_" ++ g.lower
  languageId := l.languageId
  model := g.model
  name := l.languageName ++ " " ++ g.name
  locale := l.locale

/-- `availableVoiceDefinitions`: the voices in the order in which they are put in. -/
def availableVoiceDefinitions (packs : DrivePacks fold) : List Voice :=
  LANGUAGES.flatMap fun l =>
    if languageFound packs l then
      [Gender.female, Gender.male].filterMap fun g =>
        if modelFound packs l g then some (voiceDefinition l g) else none
    else []

/-- A voice is listed when its language and its models are found, in whatever packs. -/
lemma mem_availableVoiceDefinitions {packs : DrivePacks fold} {v : Voice} :
    v ∈ availableVoiceDefinitions packs ↔ ∃ l ∈ LANGUAGES, ∃ g : Gender,
      v = voiceDefinition l g ∧ languageFound packs l = true ∧ modelFound packs l g = true := by
  rw [availableVoiceDefinitions, List.mem_flatMap]
  refine exists_congr fun l => and_congr_right fun _ => ?_
  by_cases hl : languageFound packs l = true
  · rw [if_pos hl, List.mem_filterMap]
    constructor
    · rintro ⟨g, -, hg⟩
      by_cases hm : modelFound packs l g = true
      · rw [if_pos hm] at hg
        exact ⟨g, (Option.some.inj hg).symm, hl, hm⟩
      · rw [if_neg hm] at hg
        cases hg
    · rintro ⟨g, rfl, -, hm⟩
      refine ⟨g, ?_, by rw [if_pos hm]⟩
      cases g <;> simp
  · rw [if_neg hl]
    simp [hl]

/-- No two voices share an identifier, the key of the dictionary. -/
lemma nodup_voiceIds : ((LANGUAGES.product [Gender.female, Gender.male]).map fun v =>
    (voiceDefinition v.1 v.2).voiceId).Nodup := by decide

lemma voiceDefinition_inj {l m : Language} (hl : l ∈ LANGUAGES) (hm : m ∈ LANGUAGES) {g k : Gender}
    (h : voiceDefinition l g = voiceDefinition m k) : l = m ∧ g = k := by
  have hgender (g : Gender) : g ∈ [Gender.female, Gender.male] := by cases g <;> simp
  have hpair := List.inj_on_of_nodup_map nodup_voiceIds
    (List.pair_mem_product.2 ⟨hl, hgender g⟩) (List.pair_mem_product.2 ⟨hm, hgender k⟩)
    (congrArg Voice.voiceId h)
  exact Prod.mk.inj hpair

/-! ### The archive -/

/-- The entries that `rebuildRuntime` writes: name, mode and data. -/
def archiveEntries (packs : DrivePacks fold) : Option (List (String × ℕ × Bytes)) :=
  (mergeRuntime packs).map fun merged =>
    merged.spelled.walk.map fun e => (archiveName e.1 e.2, entryMode e.2, entryData e.2)

/-- The calls of `_writeNewcEntry`, from `inode` on, and the one for the trailer. -/
def writeNewcEntries : ℕ → List (String × ℕ × Bytes) → Bytes
  | inode, [] => writeNewcEntry "TRAILER!!!" 0 [] inode
  | inode, (name, mode, data) :: rest =>
      writeNewcEntry name mode data inode ++ writeNewcEntries (inode + 1) rest

lemma writeEntries_eq_writeNewcEntries (nodes : List (List FileName × Node Bytes)) : ∀ inode : ℕ,
    writeEntries inode nodes = writeNewcEntries inode
      (nodes.map fun e => (archiveName e.1 e.2, entryMode e.2, entryData e.2)) := by
  induction nodes with
  | nil => intro inode; rfl
  | cons e nodes ih =>
      intro inode
      obtain ⟨p, x⟩ := e
      rw [writeEntries, ih]
      rfl

/-- What a guest needs for a voice, among the entries of an archive: the library of its language as
a regular file, and something in the folder of its models with the right beginning. -/
def HasVoice (entries : List (String × ℕ × Bytes)) (l : Language) (g : Gender) : Prop :=
  (∃ data, ("opt/smt/runtime/Lib/libSMT_lang_" ++ l.suffix ++ ".so", 0o100644, data) ∈ entries) ∧
    ∃ (n : FileName) (mode : ℕ) (data : Bytes), g.modelStart.toList <+: n.name.toList ∧
      ("opt/smt/runtime/Model/" ++ l.modelFolder ++ "/" ++ n.name, mode, data) ∈ entries

/-- The voice is in the archive that `rebuildRuntime` has left. -/
def VoiceInArchive (clean : Bytes) (packs : DrivePacks fold) (out : Option Bytes) (l : Language)
    (g : Gender) : Prop :=
  ∃ entries, archiveEntries packs = some entries ∧
    out = some (clean ++ writeNewcEntries 1000 entries) ∧ HasVoice entries l g

lemma guestName_libraryPath (l : Language) :
    guestName l.libraryPath = "opt/smt/runtime/Lib/libSMT_lang_" ++ l.suffix ++ ".so" := by
  refine String.toList_inj.1 ?_
  rw [guestName, String.toList_append, String.toList_join]
  simp [Language.libraryPath, Language.lib, Language.libraryFile, Language.libraryText,
    FileName.ofText]

lemma guestName_modelPath (l : Language) (n : FileName) :
    guestName (l.modelPath ++ [n]) =
      "opt/smt/runtime/Model/" ++ l.modelFolder ++ "/" ++ n.name := by
  refine String.toList_inj.1 ?_
  rw [guestName, String.toList_append, String.toList_join]
  simp [Language.modelPath, Language.modelName, Language.modelFolderName, FileName.ofText]

/-- What the entries of an archive say of a path. -/
lemma mem_archiveEntries {merged : Folder} {p : List FileName} {mode : ℕ} {data : Bytes} :
    (guestName p, mode, data) ∈
        (merged.walk.map fun e => (archiveName e.1 e.2, entryMode e.2, entryData e.2)) ↔
      ∃ x, merged.node p = some x ∧ mode = entryMode x ∧ data = entryData x := by
  have hroot {q : List FileName} {x : Node Bytes} (hx : merged.node q = some x) :
      q = [] → x = .dir := by
    rintro rfl
    rw [merged.root] at hx
    exact (Option.some.inj hx).symm
  rw [List.mem_map]
  constructor
  · rintro ⟨⟨q, x⟩, hmem, heq⟩
    have hx := FileTree.mem_walk.1 hmem
    obtain ⟨hname, hrest⟩ := Prod.mk.inj heq
    obtain ⟨hmode, hdata⟩ := Prod.mk.inj hrest
    obtain rfl : q = p := by
      refine guestName_injective ?_
      rw [← hname, archiveName_eq_guestName (hroot hx)]
    exact ⟨x, hx, hmode.symm, hdata.symm⟩
  · rintro ⟨x, hx, rfl, rfl⟩
    exact ⟨(p, x), FileTree.mem_walk.2 hx, by rw [archiveName_eq_guestName (hroot hx)]⟩

/-! ### The listing and the archive -/

lemma languageFound_iff {packs : DrivePacks fold} {l : Language} : languageFound packs l = true ↔
    ∃ root ∈ runtimeRoots packs, (∃ b, root.node l.libraryPath = some (.file b)) ∧
      root.node l.modelPath = some .dir := by
  rw [languageFound, List.any_eq_true]
  refine exists_congr fun root => and_congr_right fun _ => ?_
  rw [Bool.and_eq_true, isDir, decide_eq_true_eq, isFile]
  refine and_congr_left fun _ => ?_
  cases hx : root.node l.libraryPath with
  | none => simp
  | some x => cases x <;> simp

/-- A listing has the names as they are spelled. -/
lemma mem_listdir {t : DriveFolder fold} {p : List FileName} (hdir : t.node p = some .dir)
    {n : FileName} : n ∈ listdir t p ↔ t.name ((p ++ [n]).map fold) = some n := by
  have hfold : (t.spell (p.map fold)).map fold = p.map fold := by
    refine FoldedTree.map_fold_spell ?_
    rw [← FoldedTree.node, hdir]
    exact Option.some_ne_none _
  have hkey : (t.spell (p.map fold) ++ [n]).map fold = (p ++ [n]).map fold := by
    rw [List.map_append, hfold, List.map_append]
  rw [listdir, FileTree.mem_children, FoldedTree.node_spelled, FoldedTree.node, hkey, List.map_append,
    List.map_singleton, FoldedTree.spell_concat, ite_ne_right_iff]
  constructor
  · rintro ⟨hspell, hne⟩
    obtain ⟨m, hm, -⟩ := FoldedTree.exists_name hne
    rw [hm] at hspell ⊢
    exact congrArg some (List.singleton_inj.1 (List.append_cancel_left hspell))
  · intro hname
    rw [hname]
    refine ⟨rfl, fun hnone => ?_⟩
    have hnot := (t.name_eq_none _).2 (Or.inr hnone)
    rw [hname] at hnot
    cases hnot

lemma modelFound_iff {packs : DrivePacks fold} {l : Language} {g : Gender} :
    modelFound packs l g = true ↔ ∃ root ∈ runtimeRoots packs, root.node l.modelPath = some .dir ∧
      ∃ n : FileName, root.name ((l.modelPath ++ [n]).map fold) = some n ∧
        g.modelStart.toList <+: n.name.toList := by
  rw [modelFound, List.any_eq_true]
  refine exists_congr fun root => and_congr_right fun _ => ?_
  rw [Bool.and_eq_true, isDir, decide_eq_true_eq, List.any_eq_true]
  refine and_congr_right fun hdir => ?_
  simp only [mem_listdir hdir, List.isPrefixOf_iff_prefix]

/-! ### What holds of every listed voice -/

/-- Every pack that is installed in the first store is in the second as it is in the first. -/
def Extends (packs packs' : DrivePacks fold) : Prop :=
  ∀ id, isPackInstalled packs id = true → packs' id = packs id

/-- Every listed voice is in the archive, and stays listed when packs are added. -/
structure ListedRight (clean : Bytes) (packs : DrivePacks fold) (out : Option Bytes) : Prop where
  archived : ∀ l ∈ LANGUAGES, ∀ g, voiceDefinition l g ∈ availableVoiceDefinitions packs →
    VoiceInArchive clean packs out l g
  kept : ∀ packs', Extends packs packs' → ∀ v ∈ availableVoiceDefinitions packs,
    v ∈ availableVoiceDefinitions packs'

lemma Extends.mem_runtimeRoots {packs packs' : DrivePacks fold} (h : Extends packs packs')
    {root : DriveFolder fold} (hroot : root ∈ runtimeRoots packs) : root ∈ runtimeRoots packs' := by
  obtain ⟨id, hid, hroot⟩ := List.mem_filterMap.1 hroot
  obtain ⟨hmem, hinstalled⟩ := List.mem_filter.1 hid
  have heq := h id hinstalled
  refine List.mem_filterMap.2 ⟨id, List.mem_filter.2 ⟨hmem, ?_⟩, ?_⟩
  · rwa [isPackInstalled, heq]
  · rwa [runtimeRoot, heq]

/-- Both tests of the listing ask whether some pack passes, so more packs list more voices. -/
lemma Extends.mem_availableVoiceDefinitions {packs packs' : DrivePacks fold}
    (h : Extends packs packs') {v : Voice} (hv : v ∈ availableVoiceDefinitions packs) :
    v ∈ availableVoiceDefinitions packs' := by
  obtain ⟨l, hl, g, rfl, hlanguage, hmodel⟩ := Windows.mem_availableVoiceDefinitions.1 hv
  obtain ⟨root, hroot, hlibrary⟩ := languageFound_iff.1 hlanguage
  obtain ⟨models, hmodels, hname⟩ := modelFound_iff.1 hmodel
  exact Windows.mem_availableVoiceDefinitions.2 ⟨l, hl, g, rfl,
    languageFound_iff.2 ⟨root, h.mem_runtimeRoots hroot, hlibrary⟩,
    modelFound_iff.2 ⟨models, h.mem_runtimeRoots hmodels, hname⟩⟩

end Listing

/-! ### Capitals -/

section Capitals

variable {upcase : Char → Char} {clean : Bytes} {packs : DrivePacks (foldName upcase)}
  {out : Option Bytes} {l : Language} {g : Gender}

lemma length_eq_of_foldName_eq {m n : FileName} (h : foldName upcase m = foldName upcase n) :
    m.name.length = n.name.length := by
  have hlength := congrArg List.length h
  rwa [foldName, foldName, List.length_map, List.length_map, String.length_toList,
    String.length_toList] at hlength

/-- No name of the path has as many letters as the one before it.  A file that a copy puts into a
directory is not at such a path. -/
def Uneven (p : List FileName) : Prop := p.IsChain fun m n => m.name.length ≠ n.name.length

lemma Uneven.ne_concat {p q : List FileName} (h : Uneven p) (hq : q <+: p)
    (k : List (List Char)) (c : List Char) : q.map (foldName upcase) ≠ k ++ [c] ++ [c] := by
  intro heq
  obtain ⟨front, last, rfl, hfront, hlast⟩ := List.map_eq_append_iff.1 heq
  obtain ⟨start, before, rfl, -, hbefore⟩ := List.map_eq_append_iff.1 hfront
  obtain ⟨m, rfl, hm⟩ := List.map_eq_singleton_iff.1 hbefore
  obtain ⟨n, rfl, hn⟩ := List.map_eq_singleton_iff.1 hlast
  have hpair : [m] ++ [n] <:+: p := by
    rw [List.append_assoc] at hq
    exact (List.suffix_append start _).isInfix.trans hq.isInfix
  have hchain : Uneven ([m] ++ [n]) := by
    unfold Uneven at h ⊢
    exact h.infix hpair
  exact List.isChain_pair.1 hchain (length_eq_of_foldName_eq (hm.trans hn.symm))

lemma uneven_libraryPath (l : Language) : Uneven l.libraryPath := by
  refine List.isChain_pair.2 ?_
  have hlib : Language.lib.name.length = 3 := by decide
  have htext : "libSMT_lang_".length = 12 := by decide
  show Language.lib.name.length ≠ ("libSMT_lang_" ++ l.suffix ++ ".so").length
  rw [hlib, String.length_append, String.length_append, htext]
  omega

/-- The names of the folders with models are shorter than the beginning of a model's name. -/
lemma length_modelFolder_lt : ∀ l ∈ LANGUAGES, l.modelFolder.length < 5 := by decide

lemma uneven_modelPath (hl : l ∈ LANGUAGES) {n : FileName}
    (hn : g.modelStart.toList <+: n.name.toList) : Uneven (l.modelPath ++ [n]) := by
  have hfolder := length_modelFolder_lt l hl
  have hmodel : Language.modelName.name.length = 5 := by decide
  have hstart : g.modelStart.length = 5 := by cases g <;> decide
  have hlength := hn.length_le
  rw [String.length_toList, String.length_toList, hstart] at hlength
  refine List.isChain_cons_cons.2 ⟨?_, List.isChain_pair.2 ?_⟩
  · show Language.modelName.name.length ≠ l.modelFolder.length
    omega
  · show l.modelFolder.length ≠ n.name.length
    omega

/-- How the merged folder spells the names on a path. -/
lemma name_merged {roots : List (DriveFolder (foldName upcase))}
    {merged : DriveFolder (foldName upcase)}
    (hcopies : FoldedTree.copytrees roots FoldedTree.empty = some merged) {p q : List FileName}
    (hp : Uneven p) (hq : q <+: p) :
    merged.name (q.map (foldName upcase)) =
      FoldedTree.firstName roots (q.map (foldName upcase)) := by
  rw [FoldedTree.name_copytrees roots hcopies (hp.ne_concat hq)]
  rfl

/-- How the merged folder spells a path. -/
lemma spell_merged_iff {roots : List (DriveFolder (foldName upcase))}
    {merged : DriveFolder (foldName upcase)}
    (hcopies : FoldedTree.copytrees roots FoldedTree.empty = some merged) {p : List FileName}
    (hp : Uneven p) (hne : merged.node p ≠ none) :
    merged.spell (p.map (foldName upcase)) = p ↔ SpelledFirst roots p := by
  rw [FoldedTree.spell_map_eq_iff hne]
  exact forall₂_congr fun q hq => by rw [name_merged hcopies hp hq]

/-- What the installed packs have to hold for a listed voice to be in the archive: its library is
nowhere a directory, and the first pack that has its library, and a model of its gender, spells the
path as the guest does. -/
structure VoiceSpelled (packs : DrivePacks (foldName upcase)) (l : Language) (g : Gender) :
    Prop where
  file : ∀ root ∈ runtimeRoots packs, root.node l.libraryPath ≠ some .dir
  library : SpelledFirst (runtimeRoots packs) l.libraryPath
  model : ∃ n : FileName, g.modelStart.toList <+: n.name.toList ∧
    SpelledFirst (runtimeRoots packs) (l.modelPath ++ [n])

/-- What the merged folder has at a path, however it is spelled. -/
lemma copyAll_merged {roots : List (DriveFolder (foldName upcase))}
    {merged : DriveFolder (foldName upcase)}
    (hcopies : FoldedTree.copytrees roots FoldedTree.empty = some merged) :
    FileTree.copyAll (roots.map FoldedTree.entries) FileTree.empty = some merged.keyed := by
  have hkeyed := FoldedTree.keyed_copytrees roots FoldedTree.empty
  rw [hcopies] at hkeyed
  exact hkeyed.symm

lemma node_merged_dir {roots : List (DriveFolder (foldName upcase))}
    {merged : DriveFolder (foldName upcase)}
    (hcopies : FoldedTree.copytrees roots FoldedTree.empty = some merged) {p : List FileName}
    (hp : p ≠ []) : merged.node p = some .dir ↔ ∃ root ∈ roots, root.node p = some .dir := by
  have hdir := FileTree.copyAll_dir (FoldedTree.forall₂_lists_entries roots)
    (copyAll_merged hcopies) (p.map (foldName upcase))
  rw [FileTree.node_empty, if_neg (by simpa using hp)] at hdir
  rw [FoldedTree.node, hdir]
  simp [FoldedTree.node]

lemma node_merged_file {roots : List (DriveFolder (foldName upcase))}
    {merged : DriveFolder (foldName upcase)}
    (hcopies : FoldedTree.copytrees roots FoldedTree.empty = some merged) {p : List FileName}
    (hp : p ≠ []) (hroots : ∀ root ∈ roots, root.node p ≠ some .dir)
    (hfile : ∃ root ∈ roots, ∃ b, root.node p = some (.file b)) :
    ∃ b, merged.node p = some (.file b) := by
  refine FileTree.copyAll_self (FoldedTree.forall₂_lists_entries roots) (copyAll_merged hcopies)
    ?_ ?_ ?_
  · rw [FileTree.node_empty, if_neg (by simpa using hp)]
    exact nofun
  · intro t ht
    obtain ⟨root, hroot, rfl⟩ := List.mem_map.1 ht
    exact hroots root hroot
  · obtain ⟨root, hroot, hb⟩ := hfile
    exact ⟨root.keyed, List.mem_map_of_mem hroot, hb⟩

/-- A listed voice is in the archive exactly if the packs hold it as the guest spells it. -/
lemma voiceInArchive_iff (h : rebuildRuntime clean packs = some out) (hl : l ∈ LANGUAGES)
    (hlanguage : languageFound packs l = true) :
    VoiceInArchive clean packs out l g ↔ VoiceSpelled packs l g := by
  obtain ⟨source, hsource, hfile, -⟩ := languageFound_iff.1 hlanguage
  have hpacks : installedPackIds packs ≠ [] := by
    intro hnil
    rw [runtimeRoots, hnil] at hsource
    exact absurd hsource List.not_mem_nil
  obtain ⟨merged, hmerged, hout⟩ : ∃ merged, mergeRuntime packs = some merged ∧
      some (clean ++ appended merged.spelled) = out := by
    rw [rebuildRuntime, if_neg hpacks] at h
    simpa using h
  have hcopies := (mergeRuntime_eq_some hmerged).2
  have hpath : l.libraryPath ≠ [] := List.cons_ne_nil _ _
  have hentries : archiveEntries packs = some (merged.spelled.walk.map fun e =>
      (archiveName e.1 e.2, entryMode e.2, entryData e.2)) := by rw [archiveEntries, hmerged]; rfl
  have hspell : ∀ {p : List FileName}, Uneven p → merged.node p ≠ none →
      (merged.spell (p.map (foldName upcase)) = p ↔ SpelledFirst (runtimeRoots packs) p) :=
    fun hp hne => spell_merged_iff hcopies hp hne
  constructor
  · rintro ⟨entries, hentries', -, ⟨data, hlibrary⟩, n, mode, data', hstart, hmodel⟩
    obtain rfl := Option.some.inj (hentries.symm.trans hentries')
    rw [← guestName_libraryPath, mem_archiveEntries] at hlibrary
    rw [← guestName_modelPath, mem_archiveEntries] at hmodel
    obtain ⟨x, hx, hmode, -⟩ := hlibrary
    obtain ⟨y, hy, -, -⟩ := hmodel
    obtain ⟨hx, hnode⟩ := FoldedTree.node_spelled_eq_some.1 hx
    obtain ⟨hy, hnode'⟩ := FoldedTree.node_spelled_eq_some.1 hy
    refine ⟨fun root hroot hdir => ?_, ?_, n, hstart, ?_⟩
    · rw [(node_merged_dir hcopies hpath).2 ⟨root, hroot, hdir⟩] at hnode
      obtain rfl := Option.some.inj hnode
      simp [entryMode] at hmode
    · exact (hspell (uneven_libraryPath l) (by rw [hnode]; exact Option.some_ne_none _)).1 hx
    · exact (hspell (uneven_modelPath hl hstart) (by rw [hnode']; exact Option.some_ne_none _)).1 hy
  · rintro ⟨hroots, hlibrary, n, hstart, hmodel⟩
    refine ⟨_, hentries, by rw [← hout, appended, writeEntries_eq_writeNewcEntries], ?_, ?_⟩
    · -- the library
      obtain ⟨b, hb⟩ := node_merged_file hcopies hpath hroots ⟨source, hsource, hfile⟩
      refine ⟨b, ?_⟩
      rw [← guestName_libraryPath, mem_archiveEntries]
      have hself := (hspell (uneven_libraryPath l) (by rw [hb]; exact Option.some_ne_none _)).2
        hlibrary
      exact ⟨.file b, FoldedTree.node_spelled_eq_some.2 ⟨hself, hb⟩, rfl, rfl⟩
    · -- the models
      have huneven := uneven_modelPath hl hstart
      have hname := name_merged hcopies huneven List.prefix_rfl
      rw [hmodel _ List.prefix_rfl, List.getLast?_concat] at hname
      have hne : merged.node (l.modelPath ++ [n]) ≠ none := by
        intro hnone
        have hnot := (merged.name_eq_none _).2 (Or.inr hnone)
        rw [hname] at hnot
        cases hnot
      obtain ⟨x, hx⟩ := Option.ne_none_iff_exists'.1 hne
      refine ⟨n, entryMode x, entryData x, hstart, ?_⟩
      rw [← guestName_modelPath, mem_archiveEntries]
      exact ⟨x, FoldedTree.node_spelled_eq_some.2 ⟨(hspell huneven hne).2 hmodel, hx⟩, rfl, rfl⟩

/-- The voice is listed: a pack has the library of its language and the folder of its models, and a
pack has a model of its gender in that folder.  It is not in the archive: a pack has a directory in
place of the library, or the first pack that has a name on the way capitalises it differently. -/
def VoiceClash (packs : DrivePacks (foldName upcase)) (l : Language) (g : Gender) : Prop :=
  (∃ root ∈ runtimeRoots packs, (∃ b, root.node l.libraryPath = some (.file b)) ∧
    root.node l.modelPath = some .dir) ∧
  (∃ root ∈ runtimeRoots packs, root.node l.modelPath = some .dir ∧
    ∃ n : FileName, root.name ((l.modelPath ++ [n]).map (foldName upcase)) = some n ∧
      g.modelStart.toList <+: n.name.toList) ∧
  ¬ VoiceSpelled packs l g

/-- **Listed voices exist in the archive.**  Of the store in which the archive has been rebuilt,
whatever the trees of its packs are: the voices listed are in the archive exactly when no pack has a
directory in place of the library of a listed language, and the first packs to have its library and
a model spell them as the guest does; and no voice is lost by adding packs. -/
theorem listedRight_iff (h : rebuildRuntime clean packs = some out) :
    ListedRight clean packs out ↔ ∀ l ∈ LANGUAGES, ∀ g, ¬ VoiceClash packs l g := by
  constructor
  · rintro ⟨harchived, -⟩ l hl g ⟨hlibrary, hmodel, hnot⟩
    have hlanguage := languageFound_iff.2 hlibrary
    have hfound := modelFound_iff.2 hmodel
    have harchive := harchived l hl g
      (mem_availableVoiceDefinitions.2 ⟨l, hl, g, rfl, hlanguage, hfound⟩)
    exact hnot ((voiceInArchive_iff h hl hlanguage).1 harchive)
  · refine fun hclash => ⟨fun l hl g hlisted => ?_, fun packs' hext v hv =>
      hext.mem_availableVoiceDefinitions hv⟩
    obtain ⟨m, hm, k, heq, hlanguage, hmodel⟩ := mem_availableVoiceDefinitions.1 hlisted
    obtain ⟨rfl, rfl⟩ := voiceDefinition_inj hl hm heq
    refine (voiceInArchive_iff h hl hlanguage).2 (not_not.1 fun hnot => hclash l hl g ?_)
    exact ⟨languageFound_iff.1 hlanguage, modelFound_iff.1 hmodel, hnot⟩

/-! ### What the guest boots -/

/-- A reader finds every entry that was written. -/
lemma exists_entry_of_written {merged : Folder} {entries : List Newc.Entry}
    (hview : entries.map entryView = merged.walk.map guestEntry) {name : String} {mode : ℕ}
    {data : Bytes} (hwritten : (name, mode, data) ∈
      (merged.walk.map fun e => (archiveName e.1 e.2, entryMode e.2, entryData e.2))) :
    ∃ e ∈ entries, e.name = utf8 name ∧ e.header.mode = mode := by
  obtain ⟨⟨p, x⟩, hmem, hentry⟩ := List.mem_map.1 hwritten
  obtain ⟨rfl, hrest⟩ := Prod.mk.inj hentry
  obtain ⟨rfl, rfl⟩ := Prod.mk.inj hrest
  have hguest : guestEntry (p, x) ∈ entries.map entryView := by
    rw [hview]
    exact List.mem_map_of_mem hmem
  obtain ⟨e, he, heq⟩ := List.mem_map.1 hguest
  obtain ⟨hname, hrest⟩ := Prod.mk.inj heq
  refine ⟨e, he, ?_, (Prod.mk.inj hrest).1⟩
  rw [hname, archiveName_eq_guestName]
  rintro rfl
  have hx := FileTree.mem_walk.1 hmem
  rw [merged.root] at hx
  exact (Option.some.inj hx).symm

/-- **The guest has every listed voice.**  When the runtime folders can be merged and archived, and
no listed voice clashes, the reader of the archive finds the library of every listed voice, and a
model of its gender. -/
theorem exists_entry_of_listed (hclean : clean.length % 4 = 0)
    (h : Archivable packs (runtimeRoots packs)) (hnames : ShortNames (runtimeRoots packs))
    (hclash : ∀ l ∈ LANGUAGES, ∀ g, ¬ VoiceClash packs l g) :
    ∃ bytes entries, rebuildRuntime clean packs = some (some (clean ++ bytes)) ∧
      Newc.readArchive clean.length bytes = some (entries, []) ∧
      ∀ l ∈ LANGUAGES, ∀ g, voiceDefinition l g ∈ availableVoiceDefinitions packs →
        (∃ e ∈ entries, e.header.mode = 0o100644 ∧
          e.name = utf8 ("opt/smt/runtime/Lib/libSMT_lang_" ++ l.suffix ++ ".so")) ∧
        ∃ n : FileName, g.modelStart.toList <+: n.name.toList ∧ ∃ e ∈ entries, e.name =
          utf8 ("opt/smt/runtime/Model/" ++ l.modelFolder ++ "/" ++ n.name) := by
  obtain ⟨merged, hmerged, hnode, -⟩ := h.mergeRuntime_eq
  obtain ⟨entries, hread, hview⟩ := h.readArchive hclean hnames hnode
  have hrebuild : rebuildRuntime clean packs = some (some (clean ++ appended merged.spelled)) :=
    rebuildRuntime_eq_some hmerged h.installed
  refine ⟨_, entries, hrebuild, hread, fun l hl g hlisted => ?_⟩
  obtain ⟨m, hm, k, heq, hlanguage, hmodel⟩ := mem_availableVoiceDefinitions.1 hlisted
  obtain ⟨rfl, rfl⟩ := voiceDefinition_inj hl hm heq
  obtain ⟨written, hwritten, -, ⟨data, hlibrary⟩, n, mode, data', hstart, hfolder⟩ :=
    (voiceInArchive_iff hrebuild hl hlanguage).2 (not_not.1 fun hnot => hclash l hl g
      ⟨languageFound_iff.1 hlanguage, modelFound_iff.1 hmodel, hnot⟩)
  rw [archiveEntries, hmerged] at hwritten
  obtain rfl := Option.some.inj hwritten
  obtain ⟨e, he, hname, hmode⟩ := exists_entry_of_written hview hlibrary
  obtain ⟨e', he', hname', -⟩ := exists_entry_of_written hview hfolder
  exact ⟨⟨e, he, hmode, hname⟩, n, hstart, e', he', hname'⟩

/-! ### A library in the place of a directory, and one in small letters -/

/-- The US English row of `LANGUAGES`. -/
def usEnglish : Language := .mk "en_US" 1 "US English" "en_US" "usen" "EnUS"

def usEnglishModel : FileName := .ofText "smtf_model" (by decide)

/-- The runtime folder of US English, with a female model. -/
def usEnglishRuntime : List (List FileName × Node Bytes) :=
  [([Language.lib], .dir), (usEnglish.libraryPath, .file [0x7F]), ([Language.modelName], .dir),
    (usEnglish.modelPath, .dir),
    (usEnglish.modelPath ++ [usEnglishModel], .file [0x01])]

/-- The first pack has a directory where the second has the library of US English. -/
def clashingPacks : DrivePacks (foldName Char.toUpper)
  | .europe => packOf [([Language.lib], .dir), (usEnglish.libraryPath, .dir)]
  | .northAmerica => packOf usEnglishRuntime

/-- The second of these packs alone. -/
def usEnglishPacks : DrivePacks (foldName Char.toUpper)
  | .europe => none
  | .northAmerica => clashingPacks .northAmerica

lemma lowerCaseLib_plain : "lib" ≠ "" ∧ "lib" ≠ "." ∧ "lib" ≠ ".." ∧ '/' ∉ "lib".toList ∧
    '\\' ∉ "lib".toList ∧ '\x00' ∉ "lib".toList := by decide

/-- The first pack has a folder `lib`, with nothing in it. -/
def lowerCasePacks : DrivePacks (foldName Char.toUpper)
  | .europe => packOf [([.ofText "lib" lowerCaseLib_plain], .dir)]
  | .northAmerica => packOf usEnglishRuntime

lemma exists_rebuildRuntime (h : (mergeRuntime packs).isSome = true)
    (hpacks : installedPackIds packs ≠ []) :
    ∃ archive, rebuildRuntime [] packs = some (some archive) := by
  obtain ⟨merged, hmerged⟩ := Option.isSome_iff_exists.1 h
  exact ⟨_, rebuildRuntime_eq_some hmerged hpacks⟩

/-- With the one pack, the female voice of US English is listed and is in the archive. -/
theorem listedRight_usEnglishPacks : ∃ archive,
    rebuildRuntime [] usEnglishPacks = some (some archive) ∧
      voiceDefinition usEnglish .female ∈ availableVoiceDefinitions usEnglishPacks ∧
      ListedRight [] usEnglishPacks (some archive) := by
  obtain ⟨archive, harchive⟩ : ∃ archive, rebuildRuntime [] usEnglishPacks = some (some archive) :=
    exists_rebuildRuntime (by decide +kernel) (by decide +kernel)
  refine ⟨archive, harchive, by decide +kernel, (listedRight_iff harchive).2 ?_⟩
  have hall : ∀ l ∈ LANGUAGES, ∀ g ∈ [Gender.female, Gender.male],
      languageFound usEnglishPacks l = true → modelFound usEnglishPacks l g = true →
        (∀ root ∈ runtimeRoots usEnglishPacks, isDir root l.libraryPath = false) ∧
          SpelledFirst (runtimeRoots usEnglishPacks) l.libraryPath ∧
          g.modelStart.toList <+: usEnglishModel.name.toList ∧
          SpelledFirst (runtimeRoots usEnglishPacks) (l.modelPath ++ [usEnglishModel]) := by
    decide +kernel
  rintro l hl g ⟨hlibrary, hmodel, hnot⟩
  obtain ⟨hfile, hspelled, hstart, hmodels⟩ := hall l hl g (by cases g <;> simp)
    (languageFound_iff.2 hlibrary) (modelFound_iff.2 hmodel)
  refine hnot ⟨fun root hroot hdir => ?_, hspelled, usEnglishModel, hstart, hmodels⟩
  have hfalse := hfile root hroot
  simp [isDir, hdir] at hfalse

/-- Where the test of a listed voice fails, the archive is not right. -/
lemma not_listedRight {archive : Bytes} (h : rebuildRuntime [] packs = some (some archive))
    (hlisted : voiceDefinition usEnglish .female ∈ availableVoiceDefinitions packs)
    (hlanguage : languageFound packs usEnglish = true)
    (hnot : ¬ VoiceSpelled packs usEnglish .female) :
    ¬ VoiceInArchive [] packs (some archive) usEnglish .female ∧
      ¬ ListedRight [] packs (some archive) := by
  have husEnglish : usEnglish ∈ LANGUAGES := by simp [LANGUAGES, usEnglish]
  have hmissing : ¬ VoiceInArchive [] packs (some archive) usEnglish .female := fun harchive =>
    hnot ((voiceInArchive_iff h husEnglish hlanguage).1 harchive)
  exact ⟨hmissing, fun hright => hmissing (hright.archived usEnglish husEnglish _ hlisted)⟩

/-- With both packs the archive is rebuilt and the voice is listed, but its library is not there. -/
theorem not_listedRight_clashingPacks : ∃ archive,
    rebuildRuntime [] clashingPacks = some (some archive) ∧
      voiceDefinition usEnglish .female ∈ availableVoiceDefinitions clashingPacks ∧
      ¬ VoiceInArchive [] clashingPacks (some archive) usEnglish .female ∧
      ¬ ListedRight [] clashingPacks (some archive) := by
  obtain ⟨archive, harchive⟩ : ∃ archive, rebuildRuntime [] clashingPacks = some (some archive) :=
    exists_rebuildRuntime (by decide +kernel) (by decide +kernel)
  have hlisted : voiceDefinition usEnglish .female ∈ availableVoiceDefinitions clashingPacks := by
    decide +kernel
  have hdir : ∃ root ∈ runtimeRoots clashingPacks, root.node usEnglish.libraryPath = some .dir := by
    decide +kernel
  refine ⟨archive, harchive, hlisted, not_listedRight harchive hlisted (by decide +kernel) ?_⟩
  rintro ⟨hfile, -, -⟩
  obtain ⟨root, hroot, hroot'⟩ := hdir
  exact hfile root hroot hroot'

/-- A pack with a folder `lib` does the same: the library is archived in `lib`. -/
example : ∃ archive, rebuildRuntime [] lowerCasePacks = some (some archive) ∧
    voiceDefinition usEnglish .female ∈ availableVoiceDefinitions lowerCasePacks ∧
    ¬ ListedRight [] lowerCasePacks (some archive) := by
  obtain ⟨archive, harchive⟩ : ∃ archive, rebuildRuntime [] lowerCasePacks = some (some archive) :=
    exists_rebuildRuntime (by decide +kernel) (by decide +kernel)
  have hlisted : voiceDefinition usEnglish .female ∈ availableVoiceDefinitions lowerCasePacks := by
    decide +kernel
  refine ⟨archive, harchive, hlisted, (not_listedRight harchive hlisted (by decide +kernel) ?_).2⟩
  rintro ⟨-, hspelled, -⟩
  exact absurd hspelled (by decide +kernel)

end Capitals

end Windows

end SamsungTVVoices.Store
