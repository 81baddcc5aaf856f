/-
Installing a pack (`_normaliseRuntime`, `_installPack`).

An installation prepares the new folder of the pack in a work directory, moves the old one
aside, moves the new one into place and rebuilds the runtime archive; when the rebuild fails
it rolls back.  Every step that can raise may fail, and does nothing then.

`installAtomic_iff` says exactly when an installation that raises leaves the store as it
was: the rollback covers the rebuild, but not the two renames around it.
-/
import SamsungTVVoices.Store.Runtime

namespace SamsungTVVoices.Store

/-! ### The new folder of a pack -/

def dataName : FileName := .ofText "Data" (by decide)

def libName : FileName := .ofText "Lib" (by decide)

def symbolIni : FileName := .ofText "symbol.ini" (by decide)

def engineName : FileName := .ofText "libSMT_engine_sh.so" (by decide)

/-- `usr/share/voice/tts/smt_vd`. -/
def voiceRoot : List FileName :=
  [.ofText "usr" (by decide), .ofText "share" (by decide), .ofText "voice" (by decide),
    .ofText "tts" (by decide), .ofText "smt_vd" (by decide)]

/-- `engineCandidates`. -/
def engineCandidates : List (List FileName) :=
  [[.ofText "usr" (by decide), .ofText "lib" (by decide), engineName],
    [.ofText "lib" (by decide), engineName]]

/-- The content of the file at a path, if a file is there. -/
def readFile (t : Folder) (p : List FileName) : Option Bytes :=
  match t.node p with
  | some (.file b) => some b
  | _ => none

/-- `_normaliseRuntime`, from the extracted folder to the runtime folder; `none` if it
raises. -/
def normaliseRuntime (extracted : Folder) : Option Folder := do
  let voices ← extracted.subtree voiceRoot
  let runtime ← voices.copytree FileTree.empty
  let engine ← engineCandidates.findSome? (readFile extracted)
  let runtime ← runtime.makeDir [libName]
  let runtime ← runtime.copyFile [libName, engineName] engine
  if isFile runtime [dataName, symbolIni] then some runtime else none

/-- What is written to `pack.json`. -/
def packJsonText (id : PackId) : String :=
  "\x7b\n  \"family\": \"" ++ id.pack.family ++ "\",\n  \"firmwareSha256\": \"" ++ id.pack.sha256 ++
    "\",\n  \"id\": \"" ++ id.key ++ "\",\n  \"version\": \"" ++ id.pack.version ++ "\"\n\x7d\n"

/-- The folder of a pack with this runtime folder and this `pack.json`. -/
def candidateFolder (runtime : Folder) (json : Bytes) : Folder where
  node
    | [] => some .dir
    | n :: p =>
        if n = runtimeName then runtime.node p
        else if n = packJson ∧ p = [] then some (.file json) else none
  paths := insert [] (insert [packJson] (runtime.paths.image (runtimeName :: ·)))
  mem_paths := by
    have hne : packJson ≠ runtimeName := by decide
    rintro (_ | ⟨n, p⟩)
    · simp
    · by_cases hn : n = runtimeName
      · subst hn
        simp [runtime.mem_paths, hne.symm]
      · by_cases hp : n = packJson ∧ p = []
        · simp [hp, hne]
        · simp only [hn, hp, if_false, Finset.mem_insert, Finset.mem_image]
          constructor
          · rintro (h | h | ⟨q, -, h⟩)
            · simp at h
            · exact absurd (by simpa using h) hp
            · exact absurd (List.cons.inj h).1.symm hn
          · exact fun h => absurd rfl h
  root := rfl
  parent := by
    rintro (_ | ⟨m, p⟩) n h
    · rfl
    · simp only [List.cons_append] at h ⊢
      by_cases hm : m = runtimeName
      · rw [if_pos hm] at h ⊢
        exact runtime.parent p n h
      · rw [if_neg hm, if_neg (by simp)] at h
        exact absurd rfl h

/-! ### The steps of an installation -/

/-- The steps of `rebuildRuntime` that can raise. -/
inductive RebuildStep where
  | makeDataRoot | removeArchive | makeMerged | copyRoots | writeTemporary | replaceArchive
deriving DecidableEq, Repr

/-- The steps of `_installPack` that can raise. -/
inductive InstallStep where
  | makeDataRoot | checkDiskUsage | makeWork | obtainFirmware | findUpgradeMsd | makeDecrypted
  | decrypt | findPlatformImage | extractSpeechTar | makeExtracted | extractTar | makeRuntime
  | normaliseRuntime | writePackJson | makePacksRoot
  | moveAside | moveCandidate | rebuild (step : RebuildStep)
  | restoreOld | rebuildAgain (step : RebuildStep)
deriving DecidableEq, Repr

/-- The calls of `rmtree` with `ignore_errors` on packs: they do nothing when they fail. -/
inductive RemoveStep where
  | oldBefore | target | oldAfter
deriving DecidableEq, Repr

/-- The steps before the first rename; they only touch the work directory and the download. -/
def prepareSteps : List InstallStep :=
  [.makeDataRoot, .checkDiskUsage, .makeWork, .obtainFirmware, .findUpgradeMsd, .makeDecrypted,
    .decrypt, .findPlatformImage, .extractSpeechTar, .makeExtracted, .extractTar, .makeRuntime,
    .normaliseRuntime, .writePackJson, .makePacksRoot]

/-- The files that the installer and the removal work on: `packs/<id>`, `packs/<id>.old` and
the file at `runtimePath()`. -/
structure StoreState where
  packs : Packs
  old : Packs
  runtime : Option Bytes

namespace StoreState

def setPack (s : StoreState) (id : PackId) (t : Option Folder) : StoreState :=
  { s with packs := Function.update s.packs id t }

def setOld (s : StoreState) (id : PackId) (t : Option Folder) : StoreState :=
  { s with old := Function.update s.old id t }

variable (s : StoreState) (id : PackId) (t : Option Folder)

@[simp] lemma packs_setPack : (s.setPack id t).packs = Function.update s.packs id t := rfl
@[simp] lemma old_setPack : (s.setPack id t).old = s.old := rfl
@[simp] lemma runtime_setPack : (s.setPack id t).runtime = s.runtime := rfl
@[simp] lemma packs_setOld : (s.setOld id t).packs = s.packs := rfl
@[simp] lemma old_setOld : (s.setOld id t).old = Function.update s.old id t := rfl
@[simp] lemma runtime_setOld : (s.setOld id t).runtime = s.runtime := rfl

end StoreState

/-- How a call ends. -/
inductive Exit where
  | returned | raised
deriving DecidableEq, Repr

/-- The steps that `rebuildRuntime` takes. -/
def rebuildSteps (packs : Packs) : List RebuildStep :=
  if installedPackIds packs = [] then [.makeDataRoot, .removeArchive]
  else [.makeDataRoot, .makeMerged, .copyRoots, .writeTemporary, .replaceArchive]

/-- What `rebuildRuntime` leaves at `runtimePath()` when steps of it may fail; `none` if it
raises, and then it has changed nothing there. -/
def rebuildWith (clean : Bytes) (fault : RebuildStep → Bool) (packs : Packs) :
    Option (Option Bytes) :=
  if (rebuildSteps packs).any fault then none else rebuildRuntime clean packs

/-- `rebuildRuntime` as a step of the store; `none` if it raises. -/
def rebuild (clean : Bytes) (fault : RebuildStep → Bool) (s : StoreState) : Option StoreState :=
  (rebuildWith clean fault s.packs).map fun archive => { s with runtime := archive }

/-- `shutil.rmtree(path, ignore_errors=True)` on the folder of a pack. -/
def removePack (fault : Bool) (id : PackId) (s : StoreState) : StoreState :=
  if fault then s else s.setPack id none

/-- `shutil.rmtree(path, ignore_errors=True)` on the folder that was moved aside. -/
def removeOld (fault : Bool) (id : PackId) (s : StoreState) : StoreState :=
  if fault then s else s.setOld id none

/-- `if os.path.isdir(target): os.replace(target, old)`; a folder is not renamed onto another. -/
def moveAside (fault : Bool) (id : PackId) (s : StoreState) : Option StoreState :=
  match s.packs id with
  | none => some s
  | some t =>
      if fault ∨ (s.old id).isSome then none else some ((s.setPack id none).setOld id (some t))

/-- `os.replace(candidate, target)`. -/
def moveCandidate (fault : Bool) (id : PackId) (candidate : Folder) (s : StoreState) :
    Option StoreState :=
  if fault ∨ (s.packs id).isSome then none else some (s.setPack id (some candidate))

/-- `if os.path.isdir(old): os.replace(old, target)`. -/
def restoreOld (fault : Bool) (id : PackId) (s : StoreState) : Option StoreState :=
  match s.old id with
  | none => some s
  | some t =>
      if fault ∨ (s.packs id).isSome then none else some ((s.setPack id (some t)).setOld id none)

/-- Which steps fail. -/
structure Faults where
  raises : InstallStep → Bool
  ignored : RemoveStep → Bool

variable (clean : Bytes) (f : Faults) (id : PackId)

/-- The handler of a failed rebuild; it always ends by raising. -/
def rollback (s : StoreState) : StoreState :=
  let s := removePack (f.ignored .target) id s
  match restoreOld (f.raises .restoreOld) id s with
  | none => s
  | some s => (rebuild clean (fun r => f.raises (.rebuildAgain r)) s).getD s

/-- From the first `rmtree` to the end. -/
def swap (candidate : Folder) (s : StoreState) : Exit × StoreState :=
  let s := removeOld (f.ignored .oldBefore) id s
  match moveAside (f.raises .moveAside) id s with
  | none => (.raised, s)
  | some s =>
      match moveCandidate (f.raises .moveCandidate) id candidate s with
      | none => (.raised, s)
      | some s =>
          match rebuild clean (fun r => f.raises (.rebuild r)) s with
          | none => (.raised, rollback clean f id s)
          | some s => (.returned, removeOld (f.ignored .oldAfter) id s)

/-- The folder that is prepared for a pack, from the folder that was extracted from its
firmware; `none` if a step raises. -/
def prepare (extracted : Folder) : Option Folder :=
  if prepareSteps.any f.raises then none
  else (normaliseRuntime extracted).map fun runtime =>
    candidateFolder runtime (utf8 (packJsonText id))

/-- `_installPack`. -/
def installPack (key : String) (extracted : Folder) (s : StoreState) : Exit × StoreState :=
  match PackId.ofKey? key with
  | none => (.raised, s)
  | some id =>
      match prepare f id extracted with
      | none => (.raised, s)
      | some candidate => swap clean f id candidate s

/-! ### When an installation is atomic -/

/-- When the call ends by raising, the installed packs, the folder of the pack that it is about
and the archive are as they were. -/
def KeptOnRaise (named : Option PackId) (s : StoreState) (r : Exit × StoreState) : Prop :=
  r.1 = .raised → installedPackIds r.2.packs = installedPackIds s.packs ∧
    (∀ id ∈ named, r.2.packs id = s.packs id) ∧ r.2.runtime = s.runtime

/-- An installation that raises leaves the store as it was.  The steps in `raises` fail; what
ignores errors does its work. -/
def InstallAtomic (raises : InstallStep → Bool) (key : String) (extracted : Folder)
    (s : StoreState) : Prop :=
  KeptOnRaise (PackId.ofKey? key) s
    (installPack clean ⟨raises, fun _ => false⟩ key extracted s)

/-- Once nothing is at `packs/<id>`, the move of the candidate fails only if nothing was there
before; and when the rebuild fails, then the old folder can be moved back, and the second
rebuild does not write another archive than before. -/
def RollbackCovers (raises : InstallStep → Bool) (id : PackId) (candidate : Folder)
    (s : StoreState) : Prop :=
  if raises .moveCandidate then s.packs id = none
  else
    rebuildWith clean (fun r => raises (.rebuild r))
        (Function.update s.packs id (some candidate)) = none →
      (s.packs id = none ∨ raises .restoreOld = false) ∧
        ∀ archive, rebuildWith clean (fun r => raises (.rebuildAgain r)) s.packs =
          some archive → archive = s.runtime

/-- The installation gets as far as moving the candidate into place. -/
def ReachesMove (raises : InstallStep → Bool) (key : String) (extracted : Folder)
    (s : StoreState) (id : PackId) (candidate : Folder) : Prop :=
  PackId.ofKey? key = some id ∧
    prepare ⟨raises, fun _ => false⟩ id extracted = some candidate ∧
    (s.packs id = none ∨ raises .moveAside = false)

variable {clean f id}

lemma rebuild_of_some {fault : RebuildStep → Bool} {s : StoreState} {archive : Option Bytes}
    (h : rebuildWith clean fault s.packs = some archive) :
    rebuild clean fault s = some { s with runtime := archive } := by
  rw [rebuild, h, Option.map_some]

lemma rebuild_of_none {fault : RebuildStep → Bool} {s : StoreState}
    (h : rebuildWith clean fault s.packs = none) : rebuild clean fault s = none := by
  rw [rebuild, h, Option.map_none]

/-- The installation from the point where nothing is at `packs/<id>` any more. -/
lemma swap_of_moved {raises : InstallStep → Bool} {s : StoreState} {candidate : Folder}
    (hmoved : s.packs id = none ∨ raises .moveAside = false) :
    swap clean ⟨raises, fun _ => false⟩ id candidate s =
      if raises .moveCandidate then
        (.raised,
          ⟨Function.update s.packs id none, Function.update s.old id (s.packs id), s.runtime⟩)
      else match rebuildWith clean (fun r => raises (.rebuild r))
          (Function.update s.packs id (some candidate)) with
        | some archive =>
            (.returned, ⟨Function.update s.packs id (some candidate),
              Function.update s.old id none, archive⟩)
        | none =>
            if (s.packs id).isSome ∧ raises .restoreOld then
              (.raised, ⟨Function.update s.packs id none, Function.update s.old id (s.packs id),
                s.runtime⟩)
            else
              (.raised, ⟨s.packs, Function.update s.old id none,
                (rebuildWith clean (fun r => raises (.rebuildAgain r)) s.packs).getD
                  s.runtime⟩) := by
  have haside : moveAside (raises .moveAside) id (s.setOld id none) =
      some ⟨Function.update s.packs id none, Function.update s.old id (s.packs id), s.runtime⟩ := by
    cases hpack : s.packs id with
    | none =>
        have hself : Function.update s.packs id none = s.packs := by
          rw [← hpack, Function.update_eq_self]
        simp [moveAside, hpack, hself, StoreState.setOld]
    | some t =>
        have hfault : raises .moveAside = false := by simpa [hpack] using hmoved
        simp [moveAside, hpack, hfault, StoreState.setOld, StoreState.setPack]
  have hremove : removeOld false id s = s.setOld id none := rfl
  simp only [swap, hremove, haside, moveCandidate, Function.update_self, Option.isSome_none,
    Bool.false_eq_true, or_false]
  cases raises .moveCandidate with
  | true => simp
  | false =>
      cases hbuild : rebuildWith clean (fun r => raises (.rebuild r))
          (Function.update s.packs id (some candidate)) with
      | some archive => simp [rebuild, hbuild, StoreState.setPack, removeOld, StoreState.setOld]
      | none =>
          -- the handler: the new folder goes, and the old one comes back if there was one
          cases hpack : s.packs id with
          | none =>
              have hself : Function.update s.packs id none = s.packs := by
                rw [← hpack, Function.update_eq_self]
              cases hagain : rebuildWith clean (fun r => raises (.rebuildAgain r)) s.packs <;>
                simp [rebuild, hbuild, StoreState.setPack, rollback, removePack, restoreOld, hself,
                  hagain]
          | some t =>
              have hself : Function.update s.packs id (some t) = s.packs := by
                rw [← hpack, Function.update_eq_self]
              cases hrestore : raises .restoreOld with
              | true =>
                  simp [rebuild, hbuild, StoreState.setPack, rollback, removePack, restoreOld,
                    hrestore]
              | false =>
                  cases hagain : rebuildWith clean (fun r => raises (.rebuildAgain r)) s.packs <;>
                    simp [rebuild, hbuild, StoreState.setPack, StoreState.setOld, rollback,
                      removePack, restoreOld, hrestore, hself, hagain]

/-- The installation when the old folder cannot be moved aside. -/
lemma swap_of_not_moved {raises : InstallStep → Bool} {s : StoreState} {candidate : Folder}
    (hmoved : ¬ (s.packs id = none ∨ raises .moveAside = false)) :
    swap clean ⟨raises, fun _ => false⟩ id candidate s = (.raised, s.setOld id none) := by
  rw [not_or, Bool.not_eq_false] at hmoved
  obtain ⟨t, hpack⟩ := Option.ne_none_iff_exists'.1 hmoved.1
  simp [swap, removeOld, moveAside, hpack, hmoved.2]

lemma keptOnRaise_swap_iff {raises : InstallStep → Bool} {s : StoreState} {candidate : Folder}
    (hmoved : s.packs id = none ∨ raises .moveAside = false) :
    KeptOnRaise (some id) s (swap clean ⟨raises, fun _ => false⟩ id candidate s) ↔
      RollbackCovers clean raises id candidate s := by
  rw [swap_of_moved hmoved, RollbackCovers]
  cases raises .moveCandidate with
  | true =>
      simp only [if_true, KeptOnRaise, Option.mem_some, forall_eq', Function.update_self, and_true,
        true_implies]
      constructor
      · exact fun h => h.2.symm
      · intro hpack
        rw [← hpack, Function.update_eq_self]
        exact ⟨rfl, rfl⟩
  | false =>
      simp only [Bool.false_eq_true, if_false]
      cases rebuildWith clean (fun r => raises (.rebuild r))
          (Function.update s.packs id (some candidate)) with
      | some archive => simp [KeptOnRaise]
      | none =>
          by_cases hlost : (s.packs id).isSome ∧ raises .restoreOld
          · -- the old folder stays aside, and the pack is gone
            obtain ⟨t, hpack⟩ := Option.isSome_iff_exists.1 hlost.1
            simp [KeptOnRaise, hpack, hlost.2]
          · have hback : s.packs id = none ∨ raises .restoreOld = false := by
              cases hpack : s.packs id with
              | none => exact Or.inl rfl
              | some t => exact Or.inr (by simpa [hpack] using hlost)
            simp only [if_neg hlost, KeptOnRaise, Option.mem_some, forall_eq', true_implies,
              true_and, hback]
            cases rebuildWith clean (fun r => raises (.rebuildAgain r)) s.packs <;> simp

/-- **Atomic installation.**  An installation that raises leaves the store as it was exactly
when the rollback covers what can fail once it gets to moving the candidate. -/
theorem installAtomic_iff (clean : Bytes) (raises : InstallStep → Bool) (key : String)
    (extracted : Folder) (s : StoreState) :
    InstallAtomic clean raises key extracted s ↔
      ∀ id candidate, ReachesMove raises key extracted s id candidate →
        RollbackCovers clean raises id candidate s := by
  have hunchanged : ∀ named, KeptOnRaise named s (.raised, s) :=
    fun _ _ => ⟨rfl, fun _ _ => rfl, rfl⟩
  rw [InstallAtomic, installPack]
  cases hkey : PackId.ofKey? key with
  | none =>
      refine iff_of_true (hunchanged _) ?_
      rintro id candidate ⟨hid, -⟩
      exact absurd (hkey.symm.trans hid) (by simp)
  | some id =>
      cases hprepare : prepare ⟨raises, fun _ => false⟩ id extracted with
      | none =>
          simp only [hprepare]
          refine iff_of_true (hunchanged _) ?_
          rintro id' candidate ⟨hid, hcandidate, -⟩
          obtain rfl : id = id' := Option.some.inj (hkey.symm.trans hid)
          exact absurd (hprepare.symm.trans hcandidate) (by simp)
      | some candidate =>
          simp only [hprepare]
          by_cases hmoved : s.packs id = none ∨ raises .moveAside = false
          · rw [keptOnRaise_swap_iff hmoved]
            constructor
            · rintro h id' candidate' ⟨hid, hcandidate, -⟩
              obtain rfl : id = id' := Option.some.inj (hkey.symm.trans hid)
              obtain rfl := Option.some.inj (hprepare.symm.trans hcandidate)
              exact h
            · exact fun h => h id candidate ⟨hkey, hprepare, hmoved⟩
          · rw [swap_of_not_moved hmoved]
            refine iff_of_true (fun _ => ⟨rfl, fun _ _ => rfl, rfl⟩) ?_
            rintro id' candidate' ⟨hid, -, hmoved'⟩
            obtain rfl : id = id' := Option.some.inj (hkey.symm.trans hid)
            exact absurd hmoved' hmoved

/-! ### An installation that loses the old version -/

/-- A runtime can be made of an extracted folder that has the voices, their symbol table and
the engine, if the voices have nothing in the place of the engine. -/
lemma exists_normaliseRuntime {extracted : Folder} (hvoices : extracted.node voiceRoot = some .dir)
    (engine : Bytes) (hengine : engineCandidates.findSome? (readFile extracted) = some engine)
    (hlib : extracted.node (voiceRoot ++ [libName]) = none)
    (hsymbol : isFile extracted (voiceRoot ++ [dataName, symbolIni])) :
    ∃ runtime, normaliseRuntime extracted = some runtime := by
  obtain ⟨voices, hsub⟩ := FileTree.exists_subtree hvoices
  obtain ⟨-, hnode⟩ := FileTree.subtree_eq_some hsub
  have hcompat := FileTree.compatible_empty voices
  set copied := FileTree.overlay voices FileTree.empty hcompat with hcopied
  have hcopy (p : List FileName) (hp : p ≠ []) :
      copied.node p = extracted.node (voiceRoot ++ p) := by
    rw [hcopied, FileTree.node_overlay, hnode, FileTree.node_empty, if_neg hp, Option.or_none]
  obtain ⟨withLib, hmake, hmakeNode⟩ := FileTree.makeDir_append (p := []) copied.root
    ((hcopy [libName] (by simp)).trans hlib)
  have hfree : withLib.node [libName, engineName] ≠ some .dir := by
    intro hdir
    rw [hmakeNode, if_neg (by simp), hcopy _ (by simp)] at hdir
    have hparent := extracted.parent (voiceRoot ++ [libName]) engineName (by simp [hdir])
    rw [hlib] at hparent
    exact absurd hparent (by simp)
  obtain ⟨runtime, hwrite, hwriteNode⟩ := FileTree.writeFile_append (p := [libName]) engine
    (by simp [hmakeNode]) hfree
  have hfile : isFile runtime [dataName, symbolIni] = true := by
    have h₁ : [dataName, symbolIni] ≠ [libName] ++ [engineName] := by decide
    have h₂ : [dataName, symbolIni] ≠ [] ++ [libName] := by decide
    rw [isFile, hwriteNode, if_neg h₁, hmakeNode, if_neg h₂, hcopy _ (by simp)]
    exact hsymbol
  refine ⟨runtime, ?_⟩
  have hcopyFile : withLib.copyFile [libName, engineName] engine = some runtime := by
    rw [FileTree.copyFile, if_neg hfree]
    exact hwrite
  rw [normaliseRuntime, hsub]
  simp only [Option.bind_eq_bind, Option.bind_some, FileTree.copytree_eq_overlay hcompat, hengine]
  rw [← hcopied, show ([libName] : List FileName) = [] ++ [libName] from rfl, hmake]
  simp [hcopyFile, hfile]

/-- The least firmware that a runtime can be made of. -/
def leastExtracted : Folder :=
  FileTree.overlay (.ofFile (voiceRoot ++ [dataName, symbolIni]) [] (by simp))
    (.ofFile [.ofText "lib" (by decide), engineName] [] (by simp))
    (FileTree.compatible_ofFile _ _ _ _ (by decide) (by decide))

lemma exists_normaliseRuntime_leastExtracted :
    ∃ runtime, normaliseRuntime leastExtracted = some runtime :=
  exists_normaliseRuntime (by decide) [] (by decide) (by decide) (by decide)

/-- A store in which one pack is installed. -/
def europeInstalled : StoreState where
  packs
    | .europe => some (candidateFolder FileTree.empty [])
    | .northAmerica => none
  old _ := none
  runtime := none

/-- The old version is moved aside, the move of the new one fails, and the pack is gone. -/
theorem not_installAtomic_moveCandidate :
    ¬ InstallAtomic [] (fun step => step = .moveCandidate) "europe" leastExtracted
      europeInstalled := by
  intro h
  obtain ⟨runtime, hruntime⟩ := exists_normaliseRuntime_leastExtracted
  have hprepare : prepare ⟨fun step => step = .moveCandidate, fun _ => false⟩ .europe
      leastExtracted = some (candidateFolder runtime (utf8 (packJsonText .europe))) := by
    rw [prepare, if_neg (by decide), hruntime, Option.map_some]
  have hkey : PackId.ofKey? "europe" = some .europe := by decide
  rw [InstallAtomic, installPack, hkey] at h
  simp only [hprepare] at h
  rw [keptOnRaise_swap_iff (Or.inr (by decide)), RollbackCovers] at h
  exact absurd (show europeInstalled.packs .europe = none by simpa using h) (by decide)

end SamsungTVVoices.Store
