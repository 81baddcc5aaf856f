/-
The data folder under calls that may be killed (`installPack`, `removePacks`,
`cleanupStaleInstallerFiles`).

The calls come one after the other.  A step is one operation of the file system on what is seen
from outside; what the installer does inside its work folder is not, apart from the modification
times that it leaves there.  `shutil.rmtree` deletes a file or an empty folder at a time, in any
order, and with `ignore_errors` it may end before everything is gone.  In every state the
operation may fail and the process may be killed.
-/
import SamsungTVVoices.Store.Install
import SamsungTVVoices.Lib.StepSystem
import Mathlib.Data.List.AList
import Mathlib.Data.Rat.Defs

open StepSystem

namespace SamsungTVVoices.Store.Interrupted

/-! ### What is in the data folder -/

/-- An entry of the data folder, with its modification time and those of what is in it. -/
inductive Entry where
  | file (mtime : ℚ)
  | dir (mtime : ℚ) (items : List ℚ)
deriving DecidableEq, Repr

/-- `os.path.getmtime` -/
def Entry.mtime : Entry → ℚ
  | file mtime => mtime
  | dir mtime _ => mtime

/-- The modification times of what is in an entry. -/
def Entry.items : Entry → List ℚ
  | file _ => []
  | dir _ items => items

/-- A runtime folder that `_normaliseRuntime` has made. -/
structure Candidate where
  runtime : Folder
  normalised : ∃ extracted, normaliseRuntime extracted = some runtime

/-- The folder of a pack, with what was made for it, whatever has been deleted since. -/
structure PackDir where
  tree : Folder
  made : Candidate
  below : ∀ p x, tree.node (runtimeName :: p) = some x → made.runtime.node p = some x

namespace PackDir

/-- The folder that the installer has prepared, with its `pack.json`. -/
def ofCandidate (id : PackId) (candidate : Candidate) : PackDir where
  tree := candidateFolder candidate.runtime (utf8 (packJsonText id))
  made := candidate
  below _ _ h := h

/-- Delete a file. -/
def unlink (d : PackDir) (p : List FileName) : Option PackDir :=
  match h : d.tree.unlink p with
  | none => none
  | some t => some { d with
      tree := t
      below := fun q x hx => d.below q x (FileTree.node_of_unlink h hx) }

/-- Delete an empty folder in it. -/
def rmdir (d : PackDir) (p : List FileName) : Option PackDir :=
  match h : d.tree.rmdir p with
  | none => none
  | some t => some { d with
      tree := t
      below := fun q x hx => d.below q x (FileTree.node_of_rmdir h hx) }

end PackDir

def settingsName : String := "settings.json"

/-- The name of `runtimePath()`. -/
def archiveFileName : String := "samsung-runtime-initramfs.cpio"

def temporaryName : String := archiveFileName ++ ".tmp"

/-- The name of `packsRoot()`. -/
def packsName : String := "packs"

/-- The names that `mkdtemp` makes for `_installPack`. -/
def workName (suffix : String) : String := "firmware-" ++ suffix

/-- The names that `mkdtemp` makes for `rebuildRuntime`. -/
def mergedName (suffix : String) : String := "runtime-" ++ suffix

/-- The name of the download of a pack. -/
def zipName (id : PackId) : String := id.pack.family ++ "-" ++ id.pack.version ++ ".zip"

def partialName (id : PackId) : String := zipName id ++ ".part"

abbrev Entries := AList fun _ : String => Entry

/-! ### The cleanup -/

/-- `_INSTALLER_RETENTION_SECONDS` -/
def retention : ℚ := 24 * 60 * 60

/-- `str.startswith` -/
def startsWith (name pre : String) : Bool := pre.toList.isPrefixOf name.toList

/-- `str.endswith` -/
def endsWith (name suf : String) : Bool := suf.toList.isSuffixOf name.toList

/-- The entries that the cleanup looks at. -/
def isCandidate (name : String) : Entry → Bool
  | .dir _ _ => startsWith name "firmware-"
  | .file _ => (PACKS.any fun id => startsWith name (id.pack.family ++ "-")) &&
      (endsWith name ".zip" || endsWith name ".zip.part")

/-- `candidates` -/
def candidates (entries : Entries) : List String :=
  (entries.entries.filter fun e => isCandidate e.1 e.2).map Sigma.fst

/-- The loop of `_cleanupStaleInstallerFiles` for one path, if nothing fails. -/
def cleanupOne (cutoff : ℚ) (entries : Entries) (name : String) : Entries :=
  match entries.lookup name with
  | none => entries
  | some e => if cutoff ≤ e.mtime then entries else entries.erase name

/-- `_cleanupStaleInstallerFiles`, if nothing fails. -/
def cleanupStaleInstallerFiles (now : ℚ) (entries : Entries) : Entries :=
  (candidates entries).foldl (cleanupOne (now - retention)) entries

/-! ### Where a call is -/

/-- What a `rebuildRuntime` belongs to. -/
inductive Caller where
  | install (id : PackId) (suffix : String)
  | rollback (suffix : String)
  | remove
deriving DecidableEq, Repr

/-- Where a `rebuildRuntime` is. -/
inductive RebuildPc where
  | start
  | merging (suffix : String)
  | writing (suffix : String)
  /-- In the `finally`; whether the archive has been replaced. -/
  | clearMerged (suffix : String) (ok : Bool)
deriving DecidableEq, Repr

/-- Where a call is.  `suffix` is that of its work folder. -/
inductive CallPc where
  /-- In the loop of the cleanup; the key is that of the installation that comes after it. -/
  | cleaning (cutoff : ℚ) (todo : List String) (key : Option String)
  /-- In the `rmtree` of the cleanup. -/
  | cleaningFolder (name : String) (cutoff : ℚ) (todo : List String) (key : Option String)
  | makeWork (id : PackId)
  /-- Before and after the test of the download that is there. -/
  | testDownload (id : PackId) (suffix : String)
  | download (id : PackId) (suffix : String)
  | verify (id : PackId) (suffix : String)
  /-- Up to the candidate and `makedirs(packsRoot())`. -/
  | prepare (id : PackId) (suffix : String)
  | clearOld (id : PackId) (suffix : String) (candidate : Candidate)
  | moveAside (id : PackId) (suffix : String) (candidate : Candidate)
  | moveCandidate (id : PackId) (suffix : String) (candidate : Candidate)
  | rebuild (pc : RebuildPc) (caller : Caller)
  /-- In the handler: `rmtree(target)`. -/
  | clearTarget (id : PackId) (suffix : String)
  | restoreOld (id : PackId) (suffix : String)
  | clearOldAfter (id : PackId) (suffix : String)
  /-- In the `finally`; the pack, if it has been installed. -/
  | clearWork (suffix : String) (installed : Option PackId)
  | removeDownload (id : PackId)
  /-- In the loop of `removePacks`. -/
  | removing (keys : List String)
  | removingPack (id : PackId) (keys : List String)

structure StoreRun where
  /-- What is in the data folder.  The content of `packs` is in the next two fields. -/
  entries : Entries
  /-- `packs/<id>` -/
  packs : PackId → Option PackDir
  /-- `packs/<id>.old` -/
  old : PackId → Option PackDir
  /-- The call that is being executed. -/
  call : Option CallPc

/-- `isPackInstalled` -/
def StoreRun.isPackInstalled (s : StoreRun) (id : PackId) : Bool :=
  Store.isPackInstalled (fun id => (s.packs id).map PackDir.tree) id

/-- `installedPackIds` -/
def StoreRun.installedPackIds (s : StoreRun) : List PackId := PACKS.filter s.isPackInstalled

/-! ### The steps -/

inductive StoreAction where
  /-- The calls, with what `time.time()` returns in them. -/
  | installPack (key : String) (now : ℚ)
  | removePacks (keys : List String)
  | cleanup (now : ℚ)
  /-- The next operation works; what it makes gets this time. -/
  | next (time : ℚ)
  /-- It raises. -/
  | fail
  /-- `mkdtemp` works. -/
  | makeTemp (suffix : String) (time : ℚ)
  /-- Something is written, in a folder or in the file that is open. -/
  | write (time : ℚ) (items : List ℚ)
  /-- There is no download with the right digest; whether what is there could be removed. -/
  | discard (removed : Bool)
  /-- The candidate has been made of what was extracted. -/
  | prepared (extracted : Folder) (time : ℚ)
  /-- The candidate is renamed; what it leaves of the work folder. -/
  | moveOut (time : ℚ) (items : List ℚ)
  /-- `rmtree` deletes something in an entry of the data folder, or the entry. -/
  | deleteItem (k : ℕ) (time : ℚ)
  | deleteEntry
  /-- `rmtree` deletes something in the folder of a pack, or the folder. -/
  | unlink (p : List FileName)
  | rmdir (p : List FileName)
  | deletePack
  /-- The process ends. -/
  | kill

namespace StoreRun

/-- The call goes on. -/
def goTo (s : StoreRun) (pc : CallPc) : StoreRun := { s with call := some pc }

/-- The call has returned or raised, or the process has been killed. -/
def done (s : StoreRun) : StoreRun := { s with call := none }

def put (s : StoreRun) (name : String) (e : Entry) : StoreRun :=
  { s with entries := s.entries.insert name e }

def erase (s : StoreRun) (name : String) : StoreRun := { s with entries := s.entries.erase name }

def setPack (s : StoreRun) (id : PackId) (d : Option PackDir) : StoreRun :=
  { s with packs := Function.update s.packs id d }

def setOld (s : StoreRun) (id : PackId) (d : Option PackDir) : StoreRun :=
  { s with old := Function.update s.old id d }

end StoreRun

/-- The beginning of a call. -/
def startStep (s : StoreRun) : StoreAction → Option StoreRun
  | .installPack key now =>
      some (s.goTo (.cleaning (now - retention) (candidates s.entries) (some key)))
  | .cleanup now => some (s.goTo (.cleaning (now - retention) (candidates s.entries) none))
  | .removePacks keys => some (s.goTo (.removing keys))
  | _ => none

/-- `rmtree` on the entry of a name, without the end of it. -/
def deleteStep (s : StoreRun) (name : String) : StoreAction → Option StoreRun
  | .deleteItem k time =>
      match s.entries.lookup name with
      | some (.dir _ items) =>
          if k < items.length then some (s.put name (.dir time (items.eraseIdx k))) else none
      | _ => none
  | .deleteEntry =>
      match s.entries.lookup name with
      | some (.dir _ []) => some (s.erase name)
      | _ => none
  | _ => none

/-- `rmtree` on the folder of a pack, without the end of it: what is left of the folder. -/
def deletePackStep : Option PackDir → StoreAction → Option (Option PackDir)
  | some d, .unlink p => (d.unlink p).map some
  | some d, .rmdir p => (d.rmdir p).map some
  | some d, .deletePack => if d.tree.paths = {[]} then some none else none
  | _, _ => none

/-- The loop of the cleanup. -/
def cleaningStep (s : StoreRun) (cutoff : ℚ) (todo : List String) (key : Option String) :
    StoreAction → Option StoreRun
  | .next _ =>
      match todo with
      | [] =>
          match key.map PackId.ofKey? with
          | some (some id) => some (s.goTo (.makeWork id))
          | _ => some s.done
      | name :: todo =>
          match s.entries.lookup name with
          | none => some (s.goTo (.cleaning cutoff todo key))
          | some e =>
              -- too young to be removed
              if cutoff ≤ e.mtime then some (s.goTo (.cleaning cutoff todo key))
              else match e with
                | .file _ => some ((s.erase name).goTo (.cleaning cutoff todo key))
                | .dir _ _ => some (s.goTo (.cleaningFolder name cutoff todo key))
  | .fail =>
      match todo with
      | [] => none
      | _ :: todo => some (s.goTo (.cleaning cutoff todo key))
  | _ => none

/-- The end of a `rebuildRuntime`, by returning or by raising. -/
def endRebuild (s : StoreRun) (caller : Caller) (ok : Bool) : StoreRun :=
  match caller with
  | .install id suffix =>
      if ok then s.goTo (.clearOldAfter id suffix) else s.goTo (.clearTarget id suffix)
  | .rollback suffix => s.goTo (.clearWork suffix none)
  | .remove => s.done

/-- `rebuildRuntime` -/
def rebuildStep (s : StoreRun) (pc : RebuildPc) (caller : Caller) (a : StoreAction) :
    Option StoreRun :=
  match pc with
  | .start =>
      match a with
      | .next _ =>
          -- no pack is installed: the archive is removed
          if s.installedPackIds = [] then some (endRebuild (s.erase archiveFileName) caller true)
          else none
      | .makeTemp suffix time =>
          if s.installedPackIds = [] ∨ s.entries.lookup (mergedName suffix) ≠ none then none
          else some ((s.put (mergedName suffix) (.dir time [])).goTo
            (.rebuild (.merging suffix) caller))
      | .fail => some (endRebuild s caller false)
      | _ => none
  | .merging suffix =>
      match a with
      | .write time items => some (s.put (mergedName suffix) (.dir time items))
      | .next time =>
          some ((s.put temporaryName (.file time)).goTo (.rebuild (.writing suffix) caller))
      | .fail => some (s.goTo (.rebuild (.clearMerged suffix false) caller))
      | _ => none
  | .writing suffix =>
      match a with
      | .write time _ => some (s.put temporaryName (.file time))
      | .next _ =>
          match s.entries.lookup temporaryName with
          | some (.file mtime) =>
              some (((s.erase temporaryName).put archiveFileName (.file mtime)).goTo
                (.rebuild (.clearMerged suffix true) caller))
          | _ => none
      | .fail => some (s.goTo (.rebuild (.clearMerged suffix false) caller))
      | _ => none
  | .clearMerged suffix ok =>
      match a with
      | .next _ => some (endRebuild s caller ok)
      | a => deleteStep s (mergedName suffix) a

/-- A call that is being executed. -/
def callStep (s : StoreRun) (pc : CallPc) (a : StoreAction) : Option StoreRun :=
  match pc with
  | .cleaning cutoff todo key => cleaningStep s cutoff todo key a
  | .cleaningFolder name cutoff todo key =>
      match a with
      | .next _ =>
          if s.entries.lookup name = none then some (s.goTo (.cleaning cutoff todo key)) else none
      -- `rmtree` raises, and the loop goes on
      | .fail => some (s.goTo (.cleaning cutoff todo key))
      | a => deleteStep s name a
  | .makeWork id =>
      match a with
      | .makeTemp suffix time =>
          if s.entries.lookup (workName suffix) ≠ none then none
          else some ((s.put (workName suffix) (.dir time [])).goTo (.testDownload id suffix))
      | .fail => some s.done
      | _ => none
  | .testDownload id suffix =>
      match a with
      | .next _ =>
          if s.entries.lookup (zipName id) = none then none
          else some (s.goTo (.prepare id suffix))
      | .discard removed =>
          some ((if removed then s.erase (zipName id) else s).goTo (.download id suffix))
      | .fail => some (s.goTo (.clearWork suffix none))
      | _ => none
  | .download id suffix =>
      match a with
      | .write time _ => some (s.put (partialName id) (.file time))
      | .next _ =>
          match s.entries.lookup (partialName id) with
          | some (.file mtime) =>
              some (((s.erase (partialName id)).put (zipName id) (.file mtime)).goTo
                (.verify id suffix))
          | _ => none
      | .fail => some (s.goTo (.clearWork suffix none))
      | _ => none
  | .verify id suffix =>
      match a with
      | .next _ => some (s.goTo (.prepare id suffix))
      | .discard removed =>
          some ((if removed then s.erase (zipName id) else s).goTo (.clearWork suffix none))
      | .fail => some (s.goTo (.clearWork suffix none))
      | _ => none
  | .prepare id suffix =>
      match a with
      | .write time items => some (s.put (workName suffix) (.dir time items))
      | .prepared extracted time =>
          match h : normaliseRuntime extracted with
          | none => none
          | some runtime =>
              some ((if s.entries.lookup packsName = none then s.put packsName (.dir time [])
                else s).goTo (.clearOld id suffix ⟨runtime, extracted, h⟩))
      | .fail => some (s.goTo (.clearWork suffix none))
      | _ => none
  | .clearOld id suffix candidate =>
      match a with
      | .next _ => some (s.goTo (.moveAside id suffix candidate))
      | a => (deletePackStep (s.old id) a).map (s.setOld id)
  | .moveAside id suffix candidate =>
      match a with
      | .next _ =>
          match s.packs id with
          | none => some (s.goTo (.moveCandidate id suffix candidate))
          | some d =>
              if (s.old id).isSome then none
              -- `os.replace`, which fails where a folder is left at `.old`
              else some (((s.setPack id none).setOld id (some d)).goTo
                (.moveCandidate id suffix candidate))
      | .fail => if (s.packs id).isSome then some (s.goTo (.clearWork suffix none)) else none
      | _ => none
  | .moveCandidate id suffix candidate =>
      match a with
      | .moveOut time items =>
          if (s.packs id).isSome then none
          else
            let s := s.setPack id (some (.ofCandidate id candidate))
            some ((s.put (workName suffix) (.dir time items)).goTo
              (.rebuild .start (.install id suffix)))
      | .fail => some (s.goTo (.clearWork suffix none))
      | _ => none
  | .rebuild pc caller => rebuildStep s pc caller a
  | .clearTarget id suffix =>
      match a with
      | .next _ => some (s.goTo (.restoreOld id suffix))
      | a => (deletePackStep (s.packs id) a).map (s.setPack id)
  | .restoreOld id suffix =>
      match a with
      | .next _ =>
          match s.old id with
          -- there was no installed version
          | none => some (s.goTo (.rebuild .start (.rollback suffix)))
          | some d =>
              if (s.packs id).isSome then none
              else some (((s.setOld id none).setPack id (some d)).goTo
                (.rebuild .start (.rollback suffix)))
      | .fail => if (s.old id).isSome then some (s.goTo (.clearWork suffix none)) else none
      | _ => none
  | .clearOldAfter id suffix =>
      match a with
      | .next _ => some (s.goTo (.clearWork suffix (some id)))
      | a => (deletePackStep (s.old id) a).map (s.setOld id)
  | .clearWork suffix installed =>
      match a with
      | .next _ =>
          match installed with
          | some id => some (s.goTo (.removeDownload id))
          | none => some s.done
      | a => deleteStep s (workName suffix) a
  | .removeDownload id =>
      match a with
      -- the pack is in place: the download is not needed any more
      | .next _ => some (s.erase (zipName id)).done
      | .fail => some s.done
      | _ => none
  | .removing keys =>
      match a with
      | .next _ =>
          match keys with
          | [] => some (s.goTo (.rebuild .start .remove))
          | key :: keys =>
              match PackId.ofKey? key with
              | none => some (s.goTo (.removing keys))
              | some id => some (s.goTo (.removingPack id keys))
      | _ => none
  | .removingPack id keys =>
      match a with
      | .next _ => some (s.goTo (.removing keys))
      | a => (deletePackStep (s.packs id) a).map (s.setPack id)

/-- A step of the store. -/
def storeStep (s : StoreRun) (a : StoreAction) : Option StoreRun :=
  match s.call with
  | none => startStep s a
  | some pc =>
      match a with
      -- nothing is undone
      | .kill => some s.done
      | a => callStep s pc a

/-- A data folder in which there is nothing but perhaps settings. -/
def newStore (settings : Option ℚ) : StoreRun where
  entries := match settings with
    | some time => (∅ : Entries).insert settingsName (.file time)
    | none => ∅
  packs _ := none
  old _ := none
  call := none

/-! ### What a step does -/

/-- The names that the calls use, and the settings. -/
inductive Known : String → Entry → Prop where
  | settings (mtime : ℚ) : Known settingsName (.file mtime)
  | archive (mtime : ℚ) : Known archiveFileName (.file mtime)
  | temporary (mtime : ℚ) : Known temporaryName (.file mtime)
  | packs (mtime : ℚ) (items : List ℚ) : Known packsName (.dir mtime items)
  | zip (id : PackId) (mtime : ℚ) : Known (zipName id) (.file mtime)
  | part (id : PackId) (mtime : ℚ) : Known (partialName id) (.file mtime)
  | work (suffix : String) (mtime : ℚ) (items : List ℚ) : Known (workName suffix) (.dir mtime items)
  | merged (suffix : String) (mtime : ℚ) (items : List ℚ) :
      Known (mergedName suffix) (.dir mtime items)

/-- What a step does to the data folder and to the call. -/
inductive Effect (s : StoreRun) (a : StoreAction) : StoreRun → Prop where
  | goTo (pc : CallPc) : Effect s a (s.goTo pc)
  | done : s.call ≠ none → Effect s a s.done
  | eraseDone (name : String) : s.call ≠ none →
      (name = archiveFileName ∨ ∃ id, name = zipName id) → Effect s a (s.erase name).done
  | erase (name : String) (call : Option CallPc) : call ≠ none →
      Effect s a { s.erase name with call := call }
  | put (name : String) (e : Entry) (call : Option CallPc) : Known name e → call ≠ none →
      Effect s a { s.put name e with call := call }
  | deleteItem (name : String) (mtime : ℚ) (items : List ℚ) (k : ℕ) (time : ℚ) : s.call ≠ none →
      s.entries.lookup name = some (.dir mtime items) →
      Effect s a (s.put name (.dir time (items.eraseIdx k)))
  | rename (name name' : String) (mtime : ℚ) (pc : CallPc) : Known name' (.file mtime) →
      Effect s a (((s.erase name).put name' (.file mtime)).goTo pc)
  | deletePack (id : PackId) (left : Option PackDir) :
      (∃ suffix, s.call = some (.clearTarget id suffix)) ∨
        (∃ keys, s.call = some (.removingPack id keys)) →
      deletePackStep (s.packs id) a = some left → Effect s a (s.setPack id left)
  | deleteOld (id : PackId) (left : Option PackDir) : s.call ≠ none →
      deletePackStep (s.old id) a = some left → Effect s a (s.setOld id left)
  | moveAside (id : PackId) (d : PackDir) (pc : CallPc) : s.packs id = some d →
      Effect s a (((s.setPack id none).setOld id (some d)).goTo pc)
  | moveCandidate (id : PackId) (candidate : Candidate) (suffix : String) (time : ℚ)
      (items : List ℚ) (pc : CallPc) :
      Effect s a (((s.setPack id (some (.ofCandidate id candidate))).put (workName suffix)
        (.dir time items)).goTo pc)
  | restore (id : PackId) (suffix : String) (time : ℚ) (d : PackDir) (pc : CallPc) :
      s.call = some (.restoreOld id suffix) → a = .next time → s.old id = some d →
      s.packs id = none → Effect s a (((s.setOld id none).setPack id (some d)).goTo pc)

variable {s t : StoreRun} {a : StoreAction}

lemma effect_deleteStep {name : String} (hcall : s.call ≠ none)
    (h : deleteStep s name a = some t) : Effect s a t := by
  unfold deleteStep at h
  split at h
  · split at h
    · next mtime items hdir =>
        split at h
        · exact Option.some.inj h ▸ .deleteItem name mtime items _ _ hcall hdir
        · cases h
    · cases h
  · split at h
    · exact Option.some.inj h ▸ .erase name s.call hcall
    · cases h
  · cases h

lemma effect_endRebuild (hcall : s.call ≠ none) (caller : Caller) (ok : Bool) :
    Effect s a (endRebuild s caller ok) := by
  unfold endRebuild
  cases caller with
  | install id suffix => cases ok <;> exact .goTo _
  | rollback suffix => exact .goTo _
  | remove => exact .done hcall

lemma effect_cleaningStep {cutoff : ℚ} {todo : List String} {key : Option String}
    (hcall : s.call ≠ none) (h : cleaningStep s cutoff todo key a = some t) : Effect s a t := by
  unfold cleaningStep at h
  split at h
  · split at h
    · split at h
      · exact Option.some.inj h ▸ .goTo _
      · exact Option.some.inj h ▸ .done hcall
    · split at h
      · exact Option.some.inj h ▸ .goTo _
      · split at h
        · exact Option.some.inj h ▸ .goTo _
        · split at h
          · exact Option.some.inj h ▸ .erase _ (some _) nofun
          · exact Option.some.inj h ▸ .goTo _
  · split at h
    · cases h
    · exact Option.some.inj h ▸ .goTo _
  · cases h

lemma effect_rebuildStep {pc : RebuildPc} {caller : Caller} (hcall : s.call ≠ none)
    (h : rebuildStep s pc caller a = some t) : Effect s a t := by
  unfold rebuildStep at h
  cases pc with
  | start =>
      simp only at h
      split at h
      · split at h
        · obtain rfl := Option.some.inj h
          cases caller with
          | install id suffix => exact .erase archiveFileName (some _) nofun
          | rollback suffix => exact .erase archiveFileName (some _) nofun
          | remove => exact .eraseDone archiveFileName hcall (Or.inl rfl)
        · cases h
      · split at h
        · cases h
        · exact Option.some.inj h ▸ .put _ _ (some _) (.merged _ _ _) nofun
      · exact Option.some.inj h ▸ effect_endRebuild hcall caller false
      · cases h
  | merging suffix =>
      simp only at h
      split at h
      · exact Option.some.inj h ▸ .put _ _ s.call (.merged _ _ _) hcall
      · exact Option.some.inj h ▸ .put _ _ (some _) (.temporary _) nofun
      · exact Option.some.inj h ▸ .goTo _
      · cases h
  | writing suffix =>
      simp only at h
      split at h
      · exact Option.some.inj h ▸ .put _ _ s.call (.temporary _) hcall
      · split at h
        · exact Option.some.inj h ▸ .rename _ _ _ _ (.archive _)
        · cases h
      · exact Option.some.inj h ▸ .goTo _
      · cases h
  | clearMerged suffix ok =>
      simp only at h
      split at h
      · exact Option.some.inj h ▸ effect_endRebuild hcall caller ok
      · exact effect_deleteStep hcall h

/-- A call does one of these things. -/
lemma effect_callStep {pc : CallPc} (hpc : s.call = some pc) (h : callStep s pc a = some t) :
    Effect s a t := by
  have hcall : s.call ≠ none := by rw [hpc]; exact nofun
  unfold callStep at h
  cases pc with
  | cleaning cutoff todo key => exact effect_cleaningStep hcall h
  | rebuild pc caller => exact effect_rebuildStep hcall h
  | cleaningFolder name cutoff todo key =>
      simp only at h
      split at h
      · split at h
        · exact Option.some.inj h ▸ .goTo _
        · cases h
      · exact Option.some.inj h ▸ .goTo _
      · exact effect_deleteStep hcall h
  | makeWork id =>
      simp only at h
      split at h
      · split at h
        · cases h
        · exact Option.some.inj h ▸ .put _ _ (some _) (.work _ _ _) nofun
      · exact Option.some.inj h ▸ .done hcall
      · cases h
  | testDownload id suffix =>
      simp only at h
      split at h
      · split at h
        · cases h
        · exact Option.some.inj h ▸ .goTo _
      · next removed =>
          cases removed with
          | true => exact Option.some.inj h ▸ .erase _ (some _) nofun
          | false => exact Option.some.inj h ▸ .goTo _
      · exact Option.some.inj h ▸ .goTo _
      · cases h
  | download id suffix =>
      simp only at h
      split at h
      · exact Option.some.inj h ▸ .put _ _ s.call (.part id _) hcall
      · split at h
        · exact Option.some.inj h ▸ .rename _ _ _ _ (.zip id _)
        · cases h
      · exact Option.some.inj h ▸ .goTo _
      · cases h
  | verify id suffix =>
      simp only at h
      split at h
      · exact Option.some.inj h ▸ .goTo _
      · next removed =>
          cases removed with
          | true => exact Option.some.inj h ▸ .erase _ (some _) nofun
          | false => exact Option.some.inj h ▸ .goTo _
      · exact Option.some.inj h ▸ .goTo _
      · cases h
  | prepare id suffix =>
      simp only at h
      split at h
      · exact Option.some.inj h ▸ .put _ _ s.call (.work _ _ _) hcall
      · split at h
        · cases h
        · obtain rfl := Option.some.inj h
          by_cases hpacks : s.entries.lookup packsName = none
          · rw [if_pos hpacks]
            exact .put _ _ (some _) (.packs _ _) nofun
          · rw [if_neg hpacks]
            exact .goTo _
      · exact Option.some.inj h ▸ .goTo _
      · cases h
  | clearOld id suffix candidate =>
      simp only at h
      split at h
      · exact Option.some.inj h ▸ .goTo _
      · obtain ⟨left, hleft, rfl⟩ := Option.map_eq_some_iff.1 h
        exact .deleteOld id left hcall hleft
  | moveAside id suffix candidate =>
      simp only at h
      split at h
      · split at h
        · exact Option.some.inj h ▸ .goTo _
        · next d hd =>
            split at h
            · cases h
            · exact Option.some.inj h ▸ .moveAside id d _ hd
      · split at h
        · exact Option.some.inj h ▸ .goTo _
        · cases h
      · cases h
  | moveCandidate id suffix candidate =>
      simp only at h
      split at h
      · split at h
        · cases h
        · exact Option.some.inj h ▸ .moveCandidate id candidate _ _ _ _
      · exact Option.some.inj h ▸ .goTo _
      · cases h
  | clearTarget id suffix =>
      simp only at h
      split at h
      · exact Option.some.inj h ▸ .goTo _
      · obtain ⟨left, hleft, rfl⟩ := Option.map_eq_some_iff.1 h
        exact .deletePack id left (Or.inl ⟨suffix, hpc⟩) hleft
  | restoreOld id suffix =>
      simp only at h
      split at h
      · next time =>
          split at h
          · exact Option.some.inj h ▸ .goTo _
          · next d hold =>
              split at h
              · cases h
              · next hnone =>
                  exact Option.some.inj h ▸ .restore id suffix time d _ hpc rfl hold
                    (Option.not_isSome_iff_eq_none.1 hnone)
      · split at h
        · exact Option.some.inj h ▸ .goTo _
        · cases h
      · cases h
  | clearOldAfter id suffix =>
      simp only at h
      split at h
      · exact Option.some.inj h ▸ .goTo _
      · obtain ⟨left, hleft, rfl⟩ := Option.map_eq_some_iff.1 h
        exact .deleteOld id left hcall hleft
  | clearWork suffix installed =>
      simp only at h
      split at h
      · cases installed with
        | none => exact Option.some.inj h ▸ .done hcall
        | some id => exact Option.some.inj h ▸ .goTo _
      · exact effect_deleteStep hcall h
  | removeDownload id =>
      simp only at h
      split at h
      · exact Option.some.inj h ▸ .eraseDone _ hcall (Or.inr ⟨id, rfl⟩)
      · exact Option.some.inj h ▸ .done hcall
      · cases h
  | removing keys =>
      simp only at h
      split at h
      · split at h
        · exact Option.some.inj h ▸ .goTo _
        · split at h <;> exact Option.some.inj h ▸ .goTo _
      · cases h
  | removingPack id keys =>
      simp only at h
      split at h
      · exact Option.some.inj h ▸ .goTo _
      · obtain ⟨left, hleft, rfl⟩ := Option.map_eq_some_iff.1 h
        exact .deletePack id left (Or.inr ⟨keys, hpc⟩) hleft

/-- **What a step can do.** Every step of the store does one of these things. -/
theorem effect_storeStep (h : storeStep s a = some t) : Effect s a t := by
  unfold storeStep at h
  split at h
  · unfold startStep at h
    split at h
    case h_4 => cases h
    all_goals exact Option.some.inj h ▸ .goTo _
  · next pc hcall =>
      split at h
      · exact Option.some.inj h ▸ .done (by rw [hcall]; exact nofun)
      · exact effect_callStep hcall h

end SamsungTVVoices.Store.Interrupted
