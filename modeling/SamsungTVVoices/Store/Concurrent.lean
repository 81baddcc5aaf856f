/-
One installation and any number of removals at the same time (`installPack`, `removePacks`).

The calls share the packs, the temporary file and the archive, and take file-system operations
in turn: one test of `pack.json`, one listing, one copied or deleted file, one write, one
rename.  Only the installation holds `_installLock`.  A call that would raise has no step, so
a run in which all calls return is one in which none has failed.

A write goes to the file that its handle is open on.  So the files are kept apart from their
names, and a rename moves the name only.

The main result is `consistent_of_lastRebuildAlone`: the archive is right in the end if the
last rebuild was left alone.  It is an invariant of the rebuild (`RebuildInv`) relative to the
packs as they are, which each step of the rebuild preserves, and which the other calls can
only break by changing the packs or by using the temporary file.
-/
import SamsungTVVoices.Store.Consistency

namespace SamsungTVVoices.Store

/-! ### The parties and what they share -/

/-- What is on the disk. -/
structure Disk where
  packs : Packs
  old : Packs
  /-- The bytes of the files that the archive has been written to. -/
  content : ℕ → Bytes
  /-- A file that has not been used yet. -/
  fresh : ℕ
  /-- The file at `runtimePath() + ".tmp"`. -/
  temporary : Option ℕ
  /-- The file at `runtimePath()`. -/
  target : Option ℕ

/-- The bytes at `runtimePath()`. -/
def Disk.runtime (d : Disk) : Option Bytes := d.target.map d.content

/-- What a recursive copy still has to do, with paths from the folder that it copies. -/
inductive CopyTask where
  | dir (p : List FileName)
  | file (p : List FileName)

/-- What a recursive removal still has to do, with paths from the folder of the pack. -/
inductive RemoveTask where
  | list (p : List FileName)
  | unlink (p : List FileName)
  | rmdir (p : List FileName)

/-- Where a call is in `rebuildRuntime`. -/
inductive RebuildPc where
  /-- In the first `installedPackIds()`: the packs found, and those still to be tested. -/
  | checkPacks (found rest : List PackId)
  | removeArchive
  /-- In `_runtimeRoots()`. -/
  | findRoots (found rest : List PackId)
  /-- Before the copies of the runtime folders of `rest`. -/
  | nextRoot (merged : Folder) (rest : List PackId)
  /-- In the copy of the runtime folder of `id`. -/
  | copy (id : PackId) (todo : List CopyTask) (merged : Folder) (rest : List PackId)
  | openTemporary (merged : Folder)
  /-- The temporary file is open on `file`, and `offset` bytes have been written. -/
  | write (file offset : ℕ) (todo : Bytes)
  | replaceArchive

/-- Where a call is. -/
inductive Pc where
  /-- `shutil.rmtree(old)` of an installation with a prepared candidate. -/
  | clearOld (id : PackId) (candidate : Folder)
  /-- `os.path.isdir(target)`. -/
  | testTarget (id : PackId) (candidate : Folder)
  | moveAside (id : PackId) (candidate : Folder)
  | moveCandidate (id : PackId) (candidate : Folder)
  /-- Before the next key of a removal. -/
  | nextKey (keys : List String)
  /-- In `shutil.rmtree(packPath(id))`. -/
  | removing (id : PackId) (todo : List RemoveTask) (keys : List String)
  /-- In `rebuildRuntime`, in the installation of the pack or in a removal. -/
  | rebuilding (pc : RebuildPc) (installs : Option PackId)
  /-- `shutil.rmtree(old)` after the rebuild. -/
  | clearOldAfter (id : PackId)
  | returned

/-- The start of `rebuildRuntime`. -/
def Pc.enterRebuild (installs : Option PackId) : Pc := .rebuilding (.checkPacks [] PACKS) installs

/-! ### The operations of a rebuild -/

/-- Write at an offset of a file, as far behind its end as that may be. -/
def writeAt (old : Bytes) (offset : ℕ) (bytes : Bytes) : Bytes :=
  (old ++ List.replicate (offset - old.length) 0).take offset ++ bytes ++
    old.drop (offset + bytes.length)

/-- The tasks for what a listing of the folder at `p` shows. -/
def listing (root : Folder) (p : List FileName) : List CopyTask :=
  (root.files p).map (fun f => .file (p ++ [f.1])) ++
    (root.directories p).map fun n => .dir (p ++ [n])

/-- One task of a copy: the disk is read now, the merged folder belongs to the call. -/
def copyTask (d : Disk) (id : PackId) (merged : Folder) : CopyTask →
    Option (Folder × List CopyTask)
  | .dir p => do
      let root ← runtimeRoot d.packs id
      if root.node p = some .dir then
        let merged ← merged.makeDir p
        some (merged, listing root p)
      else none
  | .file p => do
      let root ← runtimeRoot d.packs id
      match root.node p with
      | some (.file b) => (merged.copyFile p b).map (·, [])
      | _ => none

/-- One operation of `rebuildRuntime`; `none` is its end.  A write takes `k` bytes. -/
def rebuildOp (clean : Bytes) (d : Disk) (k : ℕ) : RebuildPc → Option (Disk × Option RebuildPc)
  | .checkPacks found (id :: rest) =>
      some (d, some (.checkPacks
        (if isPackInstalled d.packs id then found ++ [id] else found) rest))
  | .checkPacks found [] =>
      some (d, some (if found = [] then .removeArchive else .findRoots [] PACKS))
  | .removeArchive => some ({ d with target := none }, none)
  | .findRoots found (id :: rest) =>
      some (d, some (.findRoots (if isPackInstalled d.packs id then found ++ [id] else found) rest))
  | .findRoots found [] => some (d, some (.nextRoot FileTree.empty found))
  | .nextRoot merged (id :: rest) => some (d, some (.copy id [.dir []] merged rest))
  | .nextRoot merged [] => some (d, some (.openTemporary merged))
  | .copy id (task :: todo) merged rest =>
      (copyTask d id merged task).map fun r => (d, some (.copy id (r.2 ++ todo) r.1 rest))
  | .copy _ [] merged rest => some (d, some (.nextRoot merged rest))
  | .openTemporary merged =>
      -- `open(…, "wb")` truncates the file that is there, which another call may still write
      let file := d.temporary.getD d.fresh
      some ({ d with
              content := Function.update d.content file []
              temporary := some file
              fresh := max d.fresh (file + 1) },
        some (.write file 0 (clean ++ appended merged)))
  | .write _ _ [] => some (d, some .replaceArchive)
  | .write file offset (b :: todo) =>
      if k = 0 then none
      else
        let bytes := (b :: todo).take k
        -- the file position is that of this call alone
        let written := writeAt (d.content file) offset bytes
        some ({ d with content := Function.update d.content file written },
          some (.write file (offset + bytes.length) ((b :: todo).drop k)))
  | .replaceArchive =>
      d.temporary.map fun file => ({ d with target := some file, temporary := none }, none)

/-! ### The operations of the calls -/

/-- The folder of a pack after a deletion; what cannot be deleted is ignored. -/
def deleteIn (d : Disk) (id : PackId) (delete : Folder → Option Folder) : Disk :=
  let left := (d.packs id).map fun t => (delete t).getD t
  { d with packs := Function.update d.packs id left }

/-- One task of `shutil.rmtree(packPath(id), ignore_errors=True)`. -/
def removeTask (d : Disk) (id : PackId) : RemoveTask → Disk × List RemoveTask
  | .list p =>
      match d.packs id with
      | some t =>
          (d, ((t.children p).map fun n =>
            if t.node (p ++ [n]) = some .dir then .list (p ++ [n]) else .unlink (p ++ [n])) ++
              [.rmdir p])
      | none => (d, [.rmdir p])
  | .unlink p => (deleteIn d id fun t => t.unlink p, [])
  | .rmdir [] =>
      match d.packs id with
      | some t =>
          -- `rmdir` fails on a folder into which another call has put something
          if t.children [] = [] then ({ d with packs := Function.update d.packs id none }, [])
          else (d, [])
      | none => (d, [])
  | .rmdir (n :: p) => (deleteIn d id fun t => t.rmdir (n :: p), [])

/-- Where a call goes when its rebuild has ended. -/
def afterRebuild : Option PackId → Pc
  | some id => .clearOldAfter id
  | none => .returned

/-- One operation of a call. -/
def callOp (clean : Bytes) (d : Disk) (k : ℕ) : Pc → Option (Disk × Pc)
  | .clearOld id candidate =>
      some ({ d with old := Function.update d.old id none }, .testTarget id candidate)
  | .testTarget id candidate =>
      some (d, if (d.packs id).isSome then .moveAside id candidate else .moveCandidate id candidate)
  | .moveAside id candidate =>
      match d.packs id, d.old id with
      | some t, none =>
          some ({ d with
                  packs := Function.update d.packs id none
                  old := Function.update d.old id (some t) }, .moveCandidate id candidate)
      | _, _ => none
  | .moveCandidate id candidate =>
      match d.packs id with
      | none =>
          some ({ d with packs := Function.update d.packs id (some candidate) },
            .enterRebuild (some id))
      | some _ => none
  | .nextKey [] => some (d, .enterRebuild none)
  | .nextKey (key :: keys) =>
      match PackId.ofKey? key with
      | some id => some (d, .removing id [.list []] keys)
      | none => some (d, .nextKey keys)
  | .removing _ [] keys => some (d, .nextKey keys)
  | .removing id (task :: todo) keys =>
      let r := removeTask d id task
      some (r.1, .removing id (r.2 ++ todo) keys)
  | .rebuilding pc installs =>
      (rebuildOp clean d k pc).map fun r =>
        (r.1, r.2.elim (afterRebuild installs) fun pc => .rebuilding pc installs)
  | .clearOldAfter id => some ({ d with old := Function.update d.old id none }, .returned)
  | .returned => none

variable {ι : Type*} [DecidableEq ι]

/-- The disk and where every call is. -/
structure Calls (ι : Type*) where
  disk : Disk
  pc : ι → Pc

/-- One operation of the call `i`; a write takes `k` bytes. -/
def opStep (clean : Bytes) (s : Calls ι) (a : ι × ℕ) : Option (Calls ι) :=
  (callOp clean s.disk a.2 (s.pc a.1)).map fun r =>
    { disk := r.1, pc := Function.update s.pc a.1 r.2 }

/-- The calls at their start: one installation with its prepared candidate, and removals. -/
def startCalls (d : Disk) (id : PackId) (candidate : Folder) (keys : ι → List String) :
    Calls (Option ι) where
  disk := d
  pc
    | none => .clearOld id candidate
    | some i => .nextKey (keys i)

/-! ### The invariant of a rebuild -/

/-- The entries that a task will copy, if the folder stays as it is. -/
def pending (root : Folder) : CopyTask → List (List FileName × Node Bytes)
  | .dir p => root.walkFrom (root.depth + 1 - p.length) p
  | .file p => (root.node p).toList.map (p, ·)

/-- What the copies of the runtime folders of these packs make of the merged folder. -/
def mergeFrom (packs : Packs) (merged : Folder) (rest : List PackId) : Option Folder :=
  rest.foldlM (fun merged id => do (← runtimeRoot packs id).copytree merged) merged

/-- What a copy that has these tasks left, and the copies after it, make of the merged folder. -/
def copiesLeft (packs : Packs) (id : PackId) (todo : List CopyTask) (merged : Folder)
    (rest : List PackId) : Option Folder := do
  let root ← runtimeRoot packs id
  let merged ← (todo.flatMap (pending root)).foldlM FileTree.copyEntry merged
  mergeFrom packs merged rest

/-- The rebuild is on its way to the archive of the packs as they are now. -/
def RebuildInv (clean : Bytes) (d : Disk) : RebuildPc → Prop
  | .checkPacks found rest =>
      found ++ rest.filter (isPackInstalled d.packs) = installedPackIds d.packs
  | .removeArchive => installedPackIds d.packs = []
  | .findRoots found rest =>
      installedPackIds d.packs ≠ [] ∧
        found ++ rest.filter (isPackInstalled d.packs) = installedPackIds d.packs
  | .nextRoot merged rest =>
      installedPackIds d.packs ≠ [] ∧ mergeFrom d.packs merged rest = mergeRuntime d.packs
  | .copy id todo merged rest =>
      installedPackIds d.packs ≠ [] ∧
        copiesLeft d.packs id todo merged rest = mergeRuntime d.packs ∧
        (todo = [] → runtimeRoot d.packs id ≠ none)
  | .openTemporary merged =>
      installedPackIds d.packs ≠ [] ∧ mergeRuntime d.packs = some merged
  | .write file offset todo =>
      rebuildRuntime clean d.packs = some (some (d.content file ++ todo)) ∧
        d.temporary = some file ∧ offset = (d.content file).length
  | .replaceArchive =>
      ∃ file, rebuildRuntime clean d.packs = some (some (d.content file)) ∧
        d.temporary = some file

variable {clean : Bytes} {d d' : Disk} {k : ℕ}

lemma check_step {packs : Packs} {found rest : List PackId} {id : PackId} {l : List PackId}
    (h : found ++ (id :: rest).filter (isPackInstalled packs) = l) :
    (if isPackInstalled packs id then found ++ [id] else found) ++
      rest.filter (isPackInstalled packs) = l := by
  cases hid : isPackInstalled packs id with
  | true => simpa [List.filter_cons, hid] using h
  | false => simpa [List.filter_cons, hid] using h

/-- The entries of a folder that is being listed. -/
lemma pending_dir {root : Folder} {p : List FileName} (h : root.node p = some .dir) :
    pending root (.dir p) = (p, .dir) :: (listing root p).flatMap (pending root) := by
  have hdepth : p.length ≤ root.depth := FileTree.length_le_depth (by simp [h])
  obtain ⟨k, hk⟩ : ∃ k, root.depth + 1 - p.length = k + 1 := ⟨root.depth - p.length, by omega⟩
  have hfile : ∀ f ∈ root.files p,
      pending root (.file (p ++ [f.1])) = [(p ++ [f.1], .file f.2)] := by
    intro f hf
    rw [pending, FileTree.mem_files.1 hf]
    rfl
  have hdir : ∀ n, pending root (.dir (p ++ [n])) = root.walkFrom k (p ++ [n]) := by
    intro n
    rw [pending, List.length_append, List.length_singleton,
      show root.depth + 1 - (p.length + 1) = k by omega]
  rw [pending, hk, FileTree.walkFrom, listing, List.flatMap_append, List.flatMap_map,
    List.flatMap_map, List.cons_append]
  congr 2
  · rw [← List.flatMap_pure_eq_map]
    exact List.flatMap_congr fun f hf => (hfile f hf).symm
  · exact List.flatMap_congr fun n _ => (hdir n).symm

/-- One task of a copy from a folder that stays as it is. -/
lemma copyTask_spec {id : PackId} {merged merged' : Folder} {task : CopyTask}
    {new : List CopyTask} (h : copyTask d id merged task = some (merged', new)) :
    ∃ root, runtimeRoot d.packs id = some root ∧
      ∀ todo, ((task :: todo).flatMap (pending root)).foldlM FileTree.copyEntry merged =
        ((new ++ todo).flatMap (pending root)).foldlM FileTree.copyEntry merged' := by
  cases task with
  | dir p =>
      obtain ⟨root, hroot, h⟩ := Option.bind_eq_some_iff.1 h
      refine ⟨root, hroot, fun todo => ?_⟩
      split at h
      · next hp =>
          obtain ⟨made, hmade, h⟩ := Option.bind_eq_some_iff.1 h
          obtain ⟨rfl, rfl⟩ := Prod.mk.inj (Option.some.inj h)
          rw [List.flatMap_cons, pending_dir hp, List.cons_append, List.foldlM_cons,
            List.flatMap_append]
          show (merged.makeDir p).bind _ = _
          rw [hmade]
          rfl
      · exact absurd h (by simp)
  | file p =>
      obtain ⟨root, hroot, h⟩ := Option.bind_eq_some_iff.1 h
      refine ⟨root, hroot, fun todo => ?_⟩
      split at h
      · next b hp =>
          obtain ⟨copied, hcopied, h⟩ := Option.map_eq_some_iff.1 h
          obtain ⟨rfl, rfl⟩ := Prod.mk.inj h
          rw [List.flatMap_cons, pending, hp]
          show (merged.copyFile p b).bind _ = _
          rw [hcopied]
          rfl
      · exact absurd h (by simp)

lemma writeAt_end (old bytes : Bytes) : writeAt old old.length bytes = old ++ bytes := by
  rw [writeAt, Nat.sub_self, List.replicate_zero, List.append_nil, List.take_length,
    List.drop_eq_nil_of_le (Nat.le_add_right _ _), List.append_nil]

/-- A rebuild does not change the packs. -/
lemma rebuildOp_packs {pc : RebuildPc} {next : Option RebuildPc}
    (h : rebuildOp clean d k pc = some (d', next)) : d'.packs = d.packs := by
  unfold rebuildOp at h
  split at h
  case h_8 => obtain ⟨r, -, h⟩ := Option.map_eq_some_iff.1 h; cases h; rfl
  case h_12 =>
    split at h
    · exact absurd h (by simp)
    · cases h; rfl
  case h_13 => obtain ⟨r, -, h⟩ := Option.map_eq_some_iff.1 h; cases h; rfl
  all_goals cases h; rfl

/-- One operation of a rebuild keeps the invariant. -/
lemma rebuildInv_step {pc pc' : RebuildPc} (h : rebuildOp clean d k pc = some (d', some pc'))
    (hinv : RebuildInv clean d pc) : RebuildInv clean d' pc' := by
  cases pc with
  | checkPacks found rest =>
      cases rest with
      | cons id rest =>
          cases h
          exact check_step hinv
      | nil =>
          cases h
          rw [RebuildInv, List.filter_nil, List.append_nil] at hinv
          split
          · next hfound => exact hinv.symm.trans hfound
          · next hfound => exact ⟨fun hnil => hfound (hinv.trans hnil), rfl⟩
  | removeArchive => cases h
  | findRoots found rest =>
      cases rest with
      | cons id rest =>
          cases h
          exact ⟨hinv.1, check_step hinv.2⟩
      | nil =>
          cases h
          refine ⟨hinv.1, ?_⟩
          have hfound := hinv.2
          rw [List.filter_nil, List.append_nil] at hfound
          rw [hfound]
          rfl
  | nextRoot merged rest =>
      cases rest with
      | nil =>
          cases h
          exact ⟨hinv.1, hinv.2.symm⟩
      | cons id rest =>
          cases h
          refine ⟨hinv.1, ?_, fun hnil => absurd hnil (by simp)⟩
          rw [← hinv.2, copiesLeft, mergeFrom, List.foldlM_cons]
          cases runtimeRoot d.packs id with
          | none => rfl
          | some root => simp [pending, FileTree.copytree, FileTree.walk, mergeFrom]
  | copy id todo merged rest =>
      obtain ⟨hne, hleft, hroot⟩ := hinv
      cases todo with
      | nil =>
          cases h
          obtain ⟨root, hsome⟩ := Option.ne_none_iff_exists'.1 (hroot rfl)
          refine ⟨hne, ?_⟩
          rw [← hleft, copiesLeft, hsome]
          rfl
      | cons task todo =>
          obtain ⟨⟨merged', new⟩, htask, h⟩ := Option.map_eq_some_iff.1 h
          cases h
          obtain ⟨root, hsome, hspec⟩ := copyTask_spec htask
          refine ⟨hne, ?_, fun _ => by simp [hsome]⟩
          rw [← hleft, copiesLeft, copiesLeft, hsome]
          simp only [Option.bind_eq_bind, Option.bind_some, hspec]
  | openTemporary merged =>
      cases h
      refine ⟨?_, rfl, ?_⟩
      · rw [rebuildRuntime, if_neg hinv.1, hinv.2]
        simp
      · simp
  | write file offset todo =>
      obtain ⟨harchive, htemporary, hoffset⟩ := hinv
      cases todo with
      | nil =>
          cases h
          exact ⟨file, by simpa using harchive, htemporary⟩
      | cons b todo =>
          rw [rebuildOp] at h
          split at h
          · exact absurd h (by simp)
          · cases h
            refine ⟨?_, htemporary, ?_⟩
            · simpa [hoffset, writeAt_end] using harchive
            · simp [hoffset, writeAt_end]
  | replaceArchive =>
      obtain ⟨file, -, h⟩ := Option.map_eq_some_iff.1 h
      exact absurd (congrArg Prod.snd h) (by simp)

/-- The end of a rebuild leaves the archive of the packs. -/
lemma rebuildInv_end {pc : RebuildPc} (h : rebuildOp clean d k pc = some (d', none))
    (hinv : RebuildInv clean d pc) : rebuildRuntime clean d'.packs = some d'.runtime := by
  cases pc with
  | removeArchive =>
      cases h
      have hnone : installedPackIds d.packs = [] := hinv
      simp [rebuildRuntime, hnone, Disk.runtime]
  | replaceArchive =>
      obtain ⟨file, harchive, htemporary⟩ := hinv
      rw [rebuildOp, htemporary] at h
      cases h
      exact harchive
  | copy id todo merged rest =>
      cases todo with
      | nil => cases h
      | cons task todo =>
          obtain ⟨r, -, h⟩ := Option.map_eq_some_iff.1 h
          exact absurd (congrArg Prod.snd h) (by simp)
  | write file offset todo =>
      cases todo with
      | nil => cases h
      | cons b todo =>
          rw [rebuildOp] at h
          split at h
          · exact absurd h (by simp)
          · cases h
  | checkPacks found rest => cases rest <;> cases h
  | findRoots found rest => cases rest <;> cases h
  | nextRoot merged rest => cases rest <;> cases h
  | openTemporary merged => cases h

/-! ### What the other calls can do to it -/

/-- The operation changes the packs. -/
def Pc.ChangesPacks : Pc → Prop
  | .moveAside .. => True
  | .moveCandidate .. => True
  | .removing _ (.unlink _ :: _) _ => True
  | .removing _ (.rmdir _ :: _) _ => True
  | _ => False

/-- The operation changes the temporary file or the archive. -/
def Pc.WritesArchive : Pc → Prop
  | .rebuilding .removeArchive _ => True
  | .rebuilding (.openTemporary _) _ => True
  | .rebuilding (.write ..) _ => True
  | .rebuilding .replaceArchive _ => True
  | _ => False

/-- The call has opened the temporary file, or its rebuild has ended. -/
def Pc.HasArchive : Pc → Prop
  | .rebuilding (.write ..) _ => True
  | .rebuilding .replaceArchive _ => True
  | .clearOldAfter _ => True
  | .returned => True
  | _ => False

lemma callOp_packs {pc pc' : Pc} (h : callOp clean d k pc = some (d', pc'))
    (hpc : ¬ pc.ChangesPacks) : d'.packs = d.packs := by
  cases pc with
  | clearOld id candidate => cases h; rfl
  | testTarget id candidate => cases h; rfl
  | moveAside id candidate => exact absurd trivial hpc
  | moveCandidate id candidate => exact absurd trivial hpc
  | nextKey keys =>
      cases keys with
      | nil => cases h; rfl
      | cons key keys =>
          rw [callOp] at h
          split at h <;> cases h <;> rfl
  | removing id todo keys =>
      cases todo with
      | nil => cases h; rfl
      | cons task todo =>
          cases task with
          | list p =>
              cases h
              rw [removeTask]
              split <;> rfl
          | unlink p => exact absurd trivial hpc
          | rmdir p => exact absurd trivial hpc
  | rebuilding pc installs =>
      obtain ⟨r, hr, h⟩ := Option.map_eq_some_iff.1 h
      cases h
      exact rebuildOp_packs hr
  | clearOldAfter id => cases h; rfl
  | returned => cases h

lemma removeTask_archive (d : Disk) (id : PackId) (task : RemoveTask) :
    (removeTask d id task).1.content = d.content ∧
      (removeTask d id task).1.temporary = d.temporary ∧
      (removeTask d id task).1.target = d.target := by
  cases task with
  | list p =>
      rw [removeTask]
      split <;> exact ⟨rfl, rfl, rfl⟩
  | unlink p => exact ⟨rfl, rfl, rfl⟩
  | rmdir p =>
      cases p with
      | cons n p => exact ⟨rfl, rfl, rfl⟩
      | nil =>
          rw [removeTask]
          split
          · split <;> exact ⟨rfl, rfl, rfl⟩
          · exact ⟨rfl, rfl, rfl⟩

lemma callOp_archive {pc pc' : Pc} (h : callOp clean d k pc = some (d', pc'))
    (hpc : ¬ pc.WritesArchive) :
    d'.content = d.content ∧ d'.temporary = d.temporary ∧ d'.target = d.target := by
  cases pc with
  | clearOld id candidate => cases h; exact ⟨rfl, rfl, rfl⟩
  | testTarget id candidate => cases h; exact ⟨rfl, rfl, rfl⟩
  | moveAside id candidate =>
      rw [callOp] at h
      split at h
      · cases h; exact ⟨rfl, rfl, rfl⟩
      · exact absurd h (by simp)
  | moveCandidate id candidate =>
      rw [callOp] at h
      split at h
      · cases h; exact ⟨rfl, rfl, rfl⟩
      · exact absurd h (by simp)
  | nextKey keys =>
      cases keys with
      | nil => cases h; exact ⟨rfl, rfl, rfl⟩
      | cons key keys =>
          rw [callOp] at h
          split at h <;> cases h <;> exact ⟨rfl, rfl, rfl⟩
  | removing id todo keys =>
      cases todo with
      | nil => cases h; exact ⟨rfl, rfl, rfl⟩
      | cons task todo =>
          cases h
          exact removeTask_archive d id task
  | rebuilding pc installs =>
      obtain ⟨r, hr, h⟩ := Option.map_eq_some_iff.1 h
      cases h
      cases pc with
      | checkPacks found rest => cases rest <;> cases hr <;> exact ⟨rfl, rfl, rfl⟩
      | findRoots found rest => cases rest <;> cases hr <;> exact ⟨rfl, rfl, rfl⟩
      | nextRoot merged rest => cases rest <;> cases hr <;> exact ⟨rfl, rfl, rfl⟩
      | copy id todo merged rest =>
          cases todo with
          | nil => cases hr; exact ⟨rfl, rfl, rfl⟩
          | cons task todo =>
              obtain ⟨r', -, hr⟩ := Option.map_eq_some_iff.1 hr
              cases hr
              exact ⟨rfl, rfl, rfl⟩
      | removeArchive => exact absurd trivial hpc
      | openTemporary merged => exact absurd trivial hpc
      | write file offset todo => exact absurd trivial hpc
      | replaceArchive => exact absurd trivial hpc
  | clearOldAfter id => cases h; exact ⟨rfl, rfl, rfl⟩
  | returned => cases h

/-- A call that has entered its rebuild: the rebuild is on its way, or it has ended and the
archive is the one of the packs. -/
def OnItsWay (clean : Bytes) (d : Disk) : Pc → Prop
  | .rebuilding pc _ => RebuildInv clean d pc
  | .clearOldAfter _ => rebuildRuntime clean d.packs = some d.runtime
  | .returned => rebuildRuntime clean d.packs = some d.runtime
  | _ => False

/-- The invariant only sees the packs, and later also the archive. -/
lemma OnItsWay.congr {pc : Pc} (h : OnItsWay clean d pc) (hpacks : d'.packs = d.packs)
    (harchive : pc.HasArchive →
      d'.content = d.content ∧ d'.temporary = d.temporary ∧ d'.target = d.target) :
    OnItsWay clean d' pc := by
  cases pc with
  | rebuilding pc installs =>
      cases pc with
      | write file offset todo =>
          obtain ⟨hcontent, htemporary, -⟩ := harchive trivial
          simpa only [OnItsWay, RebuildInv, hpacks, hcontent, htemporary] using h
      | replaceArchive =>
          obtain ⟨hcontent, htemporary, -⟩ := harchive trivial
          simpa only [OnItsWay, RebuildInv, hpacks, hcontent, htemporary] using h
      | checkPacks found rest => simpa only [OnItsWay, RebuildInv, hpacks] using h
      | removeArchive => simpa only [OnItsWay, RebuildInv, hpacks] using h
      | findRoots found rest => simpa only [OnItsWay, RebuildInv, hpacks] using h
      | nextRoot merged rest => simpa only [OnItsWay, RebuildInv, hpacks] using h
      | copy id todo merged rest => simpa only [OnItsWay, RebuildInv, hpacks] using h
      | openTemporary merged => simpa only [OnItsWay, RebuildInv, hpacks] using h
  | clearOldAfter id =>
      obtain ⟨hcontent, -, htarget⟩ := harchive trivial
      simpa only [OnItsWay, Disk.runtime, hpacks, hcontent, htarget] using h
  | returned =>
      obtain ⟨hcontent, -, htarget⟩ := harchive trivial
      simpa only [OnItsWay, Disk.runtime, hpacks, hcontent, htarget] using h
  | clearOld id candidate => exact h
  | testTarget id candidate => exact h
  | moveAside id candidate => exact h
  | moveCandidate id candidate => exact h
  | nextKey keys => exact h
  | removing id todo keys => exact h

/-- One operation of a call that is on its way. -/
lemma OnItsWay.step {pc pc' : Pc} (h : OnItsWay clean d pc)
    (hop : callOp clean d k pc = some (d', pc')) : OnItsWay clean d' pc' := by
  cases pc with
  | rebuilding pc installs =>
      obtain ⟨⟨e, next⟩, hr, hop⟩ := Option.map_eq_some_iff.1 hop
      cases hop
      cases next with
      | some pc' => exact rebuildInv_step hr h
      | none => cases installs <;> exact rebuildInv_end hr h
  | clearOldAfter id => cases hop; exact h
  | returned => cases hop
  | clearOld id candidate => exact h.elim
  | testTarget id candidate => exact h.elim
  | moveAside id candidate => exact h.elim
  | moveCandidate id candidate => exact h.elim
  | nextKey keys => exact h.elim
  | removing id todo keys => exact h.elim

/-! ### The last rebuild -/

/-- The operation of another call than `i` changes no pack, and once `i` has opened the
temporary file or ended its rebuild, it does not write the archive either. -/
def LeavesAlone (i : ι) (s : Calls ι) (a : ι × ℕ) : Prop :=
  a.1 ≠ i → ¬ (s.pc a.1).ChangesPacks ∧ ((s.pc i).HasArchive → ¬ (s.pc a.1).WritesArchive)

/-- From the moment some call enters its rebuild it is left alone. -/
def LastRebuildAlone (clean : Bytes) (s : Calls ι) (as : List (ι × ℕ)) : Prop :=
  ∃ i before after mid installs, as = before ++ after ∧
    StepSystem.run (opStep clean) s before = some mid ∧ mid.pc i = Pc.enterRebuild installs ∧
    StepSystem.Along (opStep clean) (LeavesAlone i) mid after

lemma onItsWay_step {i : ι} {s t : Calls ι} {a : ι × ℕ} (h : OnItsWay clean s.disk (s.pc i))
    (halone : LeavesAlone i s a) (hstep : opStep clean s a = some t) :
    OnItsWay clean t.disk (t.pc i) := by
  obtain ⟨⟨e, pc⟩, hop, hstep⟩ := Option.map_eq_some_iff.1 hstep
  subst hstep
  by_cases hi : a.1 = i
  · subst hi
    simpa using h.step hop
  · obtain ⟨hpacks, harchive⟩ := halone hi
    show OnItsWay clean e (Function.update s.pc a.1 pc i)
    rw [Function.update_of_ne (Ne.symm hi)]
    exact h.congr (callOp_packs hop hpacks) fun hhas => callOp_archive hop (harchive hhas)

/-- **Concurrent calls.**  When all calls have returned, and the last rebuild was left alone,
the archive is the one of the packs that are installed. -/
theorem consistent_of_lastRebuildAlone (clean : Bytes) (s t : Calls ι) (as : List (ι × ℕ))
    (halone : LastRebuildAlone clean s as) (hrun : StepSystem.run (opStep clean) s as = some t)
    (hreturned : ∀ i, t.pc i = .returned) :
    rebuildRuntime clean t.disk.packs = some t.disk.runtime := by
  obtain ⟨i, before, after, mid, installs, rfl, hbefore, henter, hafter⟩ := halone
  obtain ⟨mid', hmid, hrun⟩ := StepSystem.run_append.1 hrun
  obtain rfl : mid = mid' := Option.some.inj (hbefore.symm.trans hmid)
  have hstart : OnItsWay clean mid.disk (mid.pc i) := by
    rw [henter]
    rfl
  have hend := StepSystem.run_invariant_along
    (I := fun u : Calls ι => OnItsWay clean u.disk (u.pc i))
    (fun u a v hu ha huv => onItsWay_step hu ha huv) hstart hafter hrun
  rw [hreturned] at hend
  exact hend

/-! ### A removal that comes between the copy and the write -/

/-- A store with nothing in it. -/
def emptyDisk : Disk where
  packs _ := none
  old _ := none
  content _ := []
  fresh := 0
  temporary := none
  target := none

/-- What is installed from the least firmware. -/
def leastCandidate : Folder :=
  candidateFolder ((normaliseRuntime leastExtracted).getD FileTree.empty)
    (utf8 (packJsonText .europe))

/-- The installation of a pack, and one call that removes the same pack. -/
def installAndRemove : Calls (Option Unit) :=
  startCalls emptyDisk .europe leastCandidate fun _ => ["europe"]

/-- The next `n` operations of the installation; a write takes everything. -/
def installOps (n : ℕ) : List (Option Unit × ℕ) := List.replicate n (none, 10000)

/-- The next `n` operations of the removal. -/
def removeOps (n : ℕ) : List (Option Unit × ℕ) := List.replicate n (some (), 10000)

def Pc.isReturned : Pc → Bool
  | .returned => true
  | _ => false

/-- Both calls have returned, and what then is installed and at `runtimePath()`. -/
def outcome (s : Calls (Option Unit)) : Bool × Bool × Bool × Bool :=
  ((s.pc none).isReturned && (s.pc (some ())).isReturned,
    isPackInstalled s.disk.packs .europe, isPackInstalled s.disk.packs .northAmerica,
    s.disk.target.isSome)

lemma all_returned {s : Calls (Option Unit)}
    (h : ((s.pc none).isReturned && (s.pc (some ())).isReturned) = true) :
    ∀ i, s.pc i = .returned := by
  have hpc : ∀ pc : Pc, pc.isReturned = true → pc = .returned := by
    intro pc hpc
    cases pc <;> first | rfl | exact absurd hpc (by simp [Pc.isReturned])
  obtain ⟨hinstall, hremove⟩ := Bool.and_eq_true_iff.1 h
  rintro (_ | ⟨⟩)
  · exact hpc _ hinstall
  · exact hpc _ hremove

lemma along_leavesAlone_removeOps (n : ℕ) : ∀ s : Calls (Option Unit),
    StepSystem.Along (opStep []) (LeavesAlone (some ())) s (removeOps n) := by
  induction n with
  | zero => intro s; trivial
  | succ n ih => exact fun s => ⟨fun h => absurd rfl h, fun t _ => ih t⟩

/-- The removal has come to its rebuild, and has not looked at a pack yet. -/
def entersRebuild : Pc → Bool
  | .rebuilding (.checkPacks [] [.europe, .northAmerica]) none => true
  | _ => false

/-- The removal after the installation is left alone. -/
theorem consistent_install_then_remove :
    ∃ t, StepSystem.run (opStep []) installAndRemove (installOps 22 ++ removeOps 18) = some t ∧
      rebuildRuntime [] t.disk.packs = some t.disk.runtime := by
  have hend : (StepSystem.run (opStep []) installAndRemove (installOps 22 ++ removeOps 18)).map
      outcome = some (true, false, false, false) := by decide +kernel
  obtain ⟨t, ht, hout⟩ := Option.map_eq_some_iff.1 hend
  have henter : (StepSystem.run (opStep []) installAndRemove (installOps 22 ++ removeOps 14)).map
      (fun s => entersRebuild (s.pc (some ()))) = some true := by decide +kernel
  obtain ⟨mid, hmid, hpc⟩ := Option.map_eq_some_iff.1 henter
  refine ⟨t, ht, consistent_of_lastRebuildAlone [] installAndRemove t _ ?_ ht ?_⟩
  · refine ⟨some (), installOps 22 ++ removeOps 14, removeOps 4, mid, none, rfl, hmid, ?_,
      along_leavesAlone_removeOps 4 mid⟩
    unfold entersRebuild at hpc
    split at hpc
    · assumption
    · exact absurd hpc (by simp)
  · exact all_returned (congrArg Prod.fst hout)

/-- The installation has copied the pack, the removal deletes it and the archive, and then the
installation writes its archive: no pack is installed, and the archive is there. -/
theorem not_consistent_remove_during_rebuild :
    ∃ as t, StepSystem.run (opStep []) installAndRemove as = some t ∧
      (∀ i, t.pc i = .returned) ∧ rebuildRuntime [] t.disk.packs ≠ some t.disk.runtime := by
  have hend : (StepSystem.run (opStep []) installAndRemove
      (installOps 17 ++ removeOps 18 ++ installOps 5)).map outcome =
        some (true, false, false, true) := by decide +kernel
  obtain ⟨t, ht, hout⟩ := Option.map_eq_some_iff.1 hend
  obtain ⟨hreturned, heurope, hnorthAmerica, htarget⟩ := by simpa [outcome] using hout
  refine ⟨_, t, ht, all_returned (by simpa using hreturned), fun h => ?_⟩
  have hnone : installedPackIds t.disk.packs = [] := by
    simp [installedPackIds, PACKS, heurope, hnorthAmerica]
  rw [rebuildRuntime, if_pos hnone, Disk.runtime] at h
  obtain ⟨file, hfile⟩ := Option.isSome_iff_exists.1 htarget
  exact absurd (Option.some.inj h) (by simp [hfile])

end SamsungTVVoices.Store
