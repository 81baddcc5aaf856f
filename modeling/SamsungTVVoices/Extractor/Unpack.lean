/-
Unpacking an image (`unpack_files` and `unpack_hlinks` of `unpack.c`).

`unpackFiles` goes over the catalog three times: for the list of folders, to create the folders, and
to create what `samsung_tts_path_is_wanted` accepts.  Hard links are put off until the end.  Its
result is the code and the entries that have been created; it has none if an assertion fails or a
walk along the parents does not end.

Only a `FILE` record stops the run.  The code of a data link is overwritten by the next record and
that of a hard link by `unpack_xattr`, and reading on in the catalog ends the run with the code of
some record before; `failed` remembers that.  `unpackRecord_next` and `unpackHlinks_cons` say what
one record and one hard link do, `steps_of_unpackLoop_next` and `steps_of_unpackLoop_exit` take the
first over the loop, and `unpackFiles_eq_zero` puts them together for a run that returns 0.
-/
import SamsungTVVoices.Extractor.Folders
import SamsungTVVoices.Extractor.Links
import Mathlib.Logic.Function.Basic

namespace SamsungTVVoices.Extractor

/-- A file system, by the paths of the entries. -/
abbrev Files := Bytes → Option Entry

/-- `struct hlink_list_item`, with how the operations for it go. -/
structure HlinkItem where
  inoN : ℕ
  newInoN : ℕ
  name : Bytes
  calls : Outcomes

/-- `VDFS4_FULL_PATH_LEN`. -/
def fullPathLen : ℕ := 1023

/-- Nothing can be created under the empty name. -/
def Outcomes.nameless (o : Outcomes) : Outcomes :=
  { o with creat := false, openDst := false, symlink := false, openOut := false, link := false }

/-- `hl_list_item_init`: a path that is too long is left out. -/
def hlListItemInit (inoN : ℕ) (name : Bytes) (newInoN : ℕ) (calls : Outcomes) : HlinkItem :=
  if name.length ≤ fullPathLen then ⟨inoN, newInoN, name, calls⟩
  else ⟨inoN, newInoN, [], calls.nameless⟩

/-- `hl_list_insert`, behind the head, which is no link. -/
def hlListInsert (new : HlinkItem) (list : List HlinkItem) : List HlinkItem :=
  list.orderedInsert (fun a b => a.newInoN < b.newInoN) new

/-- What `unpack_files` works on.  `failed` is no variable of the source: it says that an operation
has failed without the run being stopped with an error. -/
structure State where
  out : Files
  dl : DlinkInfo
  hlinks : List HlinkItem
  failed : Bool

namespace State

/-- The state with an entry that has been created, if one has. -/
def create (st : State) (name : Bytes) (entry : Option Entry) : State :=
  { st with out := match entry with
      | none => st.out
      | some e => Function.update st.out name (some e) }

@[simp] lemma create_dl (st : State) (name : Bytes) (entry : Option Entry) :
    (st.create name entry).dl = st.dl := rfl

@[simp] lemma create_hlinks (st : State) (name : Bytes) (entry : Option Entry) :
    (st.create name entry).hlinks = st.hlinks := rfl

@[simp] lemma create_failed (st : State) (name : Bytes) (entry : Option Entry) :
    (st.create name entry).failed = st.failed := rfl

@[simp] lemma create_out_self (st : State) (name : Bytes) (e : Entry) :
    (st.create name (some e)).out name = some e := Function.update_self ..

lemma create_out_of_ne (st : State) {name p : Bytes} (entry : Option Entry) (h : p ≠ name) :
    (st.create name entry).out p = st.out p := by
  cases entry with
  | none => rfl
  | some e => exact Function.update_of_ne h ..

end State

/-- The loop goes on, or the function ends, with a code. -/
inductive Flow
  | next (ret : ℤ) (st : State)
  | exit (ret : ℤ) (st : State)

/-- The record may have a place of its own in the output. -/
def Record.isEntry (r : Record) : Bool :=
  (r.recordType = .file || r.recordType = .dlink || r.recordType = .hlink) &&
    r.parentId ≠ r.objectId

/-- `set_attributes` and `unpack_xattr`, if the code is 0. -/
def finish (v : Visit) (ret : ℤ) : ℤ :=
  if ret ≠ 0 then ret
  else if v.calls.attributes = 0 && !v.record.isLink then v.calls.xattr
  else v.calls.attributes

variable (img : Image) (dirs : List DirItem)

/-- One record in the loop of `unpack_files`, from the code of the one before. -/
def unpackRecord (v : Visit) (ret : ℤ) (st : State) : Option Flow :=
  let r := v.record
  if r.recordType = .folder ∨ r.recordType = .ilink ∨ r.parentId = r.objectId then
    some (.next ret st)
  else (makePathFromDirList dirs r.parentId r.name).bind fun
    | .error code => some (.exit code st)
    | .ok path =>
      let name := cString path
      if !samsungTtsPathIsWanted name then some (.next 0 st)
      else match r.recordType with
        | .hlink =>
          let item := hlListItemInit r.objectId name r.objectId v.calls
          some (.next 1 { st with hlinks := hlListInsert item st.hlinks })
        | .file => (unpackFile img v.calls r.objectId r).map fun (ret, entry) =>
          if ret ≠ 0 then .exit ret (st.create name entry)
          else .next (finish v ret) (st.create name entry)
        | .dlink => (processDlinkUnpack img v.calls r st.dl).map fun (ret, entry, dl) =>
          .next (finish v ret)
            { st.create name entry with dl := dl, failed := st.failed || ret ≠ 0 }
        | _ => some (.next (finish v 0) st)

/-- The loop of `unpack_files`: nothing is read after the last record. -/
def unpackLoop : List Visit → ℤ → State → Option Flow
  | [], ret, st => some (.next ret st)
  | v :: vs, ret, st => (unpackRecord img dirs v ret st).bind fun
    | .exit ret st => some (.exit ret st)
    | .next ret st =>
      if vs.isEmpty || v.calls.next then unpackLoop vs ret st
      else some (.exit ret { st with failed := true })

/-- `unpack_hlinks`, from the inode and the path of the link that was created last.  The code of
`create_hlink` is overwritten, and an inode that is none of a file ends it with the code 0. -/
def unpackHlinks : List HlinkItem → ℕ → Bytes → State → Option (ℤ × State)
  | [], _, _, st => some (0, st)
  | it :: list, objId, name, st =>
    if it.inoN < firstFileIno then some (0, { st with failed := true })
    else if it.inoN ≠ objId then
      (createHlink img it.calls it.inoN st.dl).bind fun (ret, entry, dl) =>
        let st := { st.create it.name entry with
          dl := dl, failed := st.failed || ret ≠ 0 || entry.isNone }
        if it.calls.xattr ≠ 0 then some (it.calls.xattr, st)
        else unpackHlinks list it.inoN it.name st
    else if it.calls.link then
      unpackHlinks list objId name (st.create it.name (st.out name))
    else some (-1, st)

/-- How everything goes that is not an operation for a record, and the operations for each. -/
structure Faults where
  firstChild : Bool := true
  clear : Bool := true
  secondChild : Bool := true
  thirdChild : Bool := true
  calls : ℕ → Outcomes := fun _ => {}

/-- The records in the order in which they are visited. -/
def Image.visits (faults : Faults) : List Visit :=
  (img.children rootIno).zipIdx.map fun (r, n) => ⟨r, faults.calls n⟩

/-- The state before the loop. -/
def State.init : State where
  out := fun _ => none
  dl := {}
  hlinks := []
  failed := false

/-- `unpack_files`: the code and the state at the end, where there is one.  Only the first of the
three searches for the first record is tested. -/
def unpackFiles (rootPath : Bytes) (faults : Faults) : Option (ℤ × State) :=
  let vs := img.visits faults
  if !faults.firstChild || vs.isEmpty then some (-enoent, .init)
  else if !faults.clear then some (-1, .init)
  else match makeFolderList vs [rootItem (cString rootPath)] with
    | .error ret => some (ret, .init)
    | .ok dirs =>
      if !faults.secondChild then none
      else (createAllFolders dirs vs 0).bind fun ret =>
        if ret ≠ 0 then some (ret, .init)
        else if !faults.thirdChild then none
        else (unpackLoop img dirs vs 0 .init).bind fun
          | .exit ret st => some (ret, st)
          | .next _ st => unpackHlinks img st.hlinks 0 [] st

/-- The path under which a record is unpacked, if it is wanted. -/
def wantedPath (r : Record) : Option Bytes :=
  if r.isEntry then
    match makePathFromDirList dirs r.parentId r.name with
    | some (.ok path) => if samsungTtsPathIsWanted (cString path) then some (cString path) else none
    | _ => none
  else none

/-! ### What a record does -/

/-- What is done for a record that is wanted at the path `p`, where the loop goes on after it. -/
inductive Unpacked (v : Visit) (p : Bytes) (st : State) : State → Prop
  | file (entry : Option Entry) (htype : v.record.recordType = .file)
      (h : unpackFile img v.calls v.record.objectId v.record = some (0, entry)) :
      Unpacked v p st (st.create p entry)
  | dlink (ret : ℤ) (entry : Option Entry) (dl : DlinkInfo) (htype : v.record.recordType = .dlink)
      (h : processDlinkUnpack img v.calls v.record st.dl = some (ret, entry, dl)) :
      Unpacked v p st { st.create p entry with dl := dl, failed := st.failed || ret ≠ 0 }
  | hlink (htype : v.record.recordType = .hlink) :
      Unpacked v p st { st with
        hlinks := hlListInsert
          (hlListItemInit v.record.objectId p v.record.objectId v.calls) st.hlinks }

/-- The records are visited one after the other, and nothing stops that. -/
inductive Steps : List Visit → State → State → Prop
  | nil (st : State) : Steps [] st st
  | skip {v : Visit} {vs : List Visit} {st st' : State} (hv : wantedPath dirs v.record = none)
      (h : Steps vs st st') : Steps (v :: vs) st st'
  | made {v : Visit} {vs : List Visit} {p : Bytes} {st st₁ st' : State}
      (hv : wantedPath dirs v.record = some p) (hmade : Unpacked img v p st st₁)
      (h : Steps vs st₁ st') : Steps (v :: vs) st st'

variable {img dirs} {v : Visit} {vs : List Visit} {ret ret' : ℤ} {st st' : State} {p : Bytes}

/-- The only error of the walk is that a folder is missing. -/
lemma makePath_error {fuel objId : ℕ} {path : Bytes} {code : ℤ}
    (h : makePath dirs fuel objId path = some (.error code)) : code = -enoent := by
  induction fuel generalizing objId path with
  | zero => cases h
  | succ fuel ih =>
    rw [makePath] at h
    split_ifs at h
    · simp only [Option.some.injEq, reduceCtorEq] at h
    · cases hget : listGet dirs objId with
      | none =>
        simp only [hget, Option.some.injEq, Except.error.injEq] at h
        exact h.symm
      | some item =>
        simp only [hget] at h
        exact ih h

lemma wantedPath_of_not_isEntry (h : v.record.isEntry = false) :
    wantedPath dirs v.record = none := by
  rw [wantedPath, h, if_neg Bool.false_ne_true]

/-- A record that is not skipped is one with a place of its own, or of no type that has one. -/
lemma isEntry_of_not_skipped {r : Record} (hskip : ¬ (r.recordType = .folder ∨
      r.recordType = .ilink ∨ r.parentId = r.objectId)) :
    r.isEntry = true ∨ r.recordType = .dummy := by
  push Not at hskip
  obtain ⟨hfolder, hilink, hbody⟩ := hskip
  cases htype : r.recordType with
  | dummy => exact Or.inr rfl
  | folder => exact absurd htype hfolder
  | ilink => exact absurd htype hilink
  | _ => exact Or.inl (by simp [Record.isEntry, htype, hbody])

/-- **What one record does.**  A record that is not wanted is passed over. -/
lemma unpackRecord_next (h : unpackRecord img dirs v ret st = some (.next ret' st')) :
    (wantedPath dirs v.record = none ∧ st' = st) ∨
      ∃ p, wantedPath dirs v.record = some p ∧ Unpacked img v p st st' := by
  simp only [unpackRecord] at h
  split_ifs at h with hskip
  · -- a folder, a reverse link or the body of a hard link
    simp only [Option.some.injEq, Flow.next.injEq] at h
    refine Or.inl ⟨wantedPath_of_not_isEntry ?_, h.2.symm⟩
    rcases hskip with hskip | hskip | hskip <;> simp [Record.isEntry, hskip]
  obtain ⟨result, hpath, h⟩ := Option.bind_eq_some_iff.1 h
  cases result with
  | error code => simp only [Option.some.injEq, reduceCtorEq] at h
  | ok path =>
    simp only at h
    by_cases hwanted : samsungTtsPathIsWanted (cString path) = true
    · simp only [hwanted, Bool.not_true, Bool.false_eq_true, if_false] at h
      rcases isEntry_of_not_skipped hskip with hentry | hdummy
      · have hp : wantedPath dirs v.record = some (cString path) := by
          simp only [wantedPath, hentry, if_true, hpath, hwanted]
        refine Or.inr ⟨cString path, hp, ?_⟩
        cases htype : v.record.recordType with
        | file =>
          simp only [htype] at h
          obtain ⟨⟨code, entry⟩, hunpack, h⟩ := Option.map_eq_some_iff.1 h
          simp only at h
          by_cases hcode : code = 0
          · subst hcode
            simp only [ne_eq, not_true_eq_false, if_false, Flow.next.injEq] at h
            obtain ⟨-, rfl⟩ := h
            exact .file entry htype hunpack
          · simp only [ne_eq, hcode, not_false_eq_true, if_true, reduceCtorEq] at h
        | dlink =>
          simp only [htype] at h
          obtain ⟨⟨code, entry, dl⟩, hunpack, h⟩ := Option.map_eq_some_iff.1 h
          simp only [Flow.next.injEq] at h
          obtain ⟨-, rfl⟩ := h
          exact .dlink code entry dl htype hunpack
        | hlink =>
          simp only [htype, Option.some.injEq, Flow.next.injEq] at h
          obtain ⟨-, rfl⟩ := h
          exact .hlink htype
        | _ => simp [Record.isEntry, htype] at hentry
      · simp only [hdummy, Option.some.injEq, Flow.next.injEq] at h
        exact Or.inl ⟨wantedPath_of_not_isEntry (by simp [Record.isEntry, hdummy]), h.2.symm⟩
    · simp only [hwanted, Bool.not_false, if_true, Option.some.injEq, Flow.next.injEq] at h
      refine Or.inl ⟨?_, h.2.symm⟩
      simp only [wantedPath, hpath, hwanted]
      simp

/-- A record that ends the run does it with an error. -/
lemma unpackRecord_exit (h : unpackRecord img dirs v ret st = some (.exit ret' st')) :
    ret' ≠ 0 := by
  simp only [unpackRecord] at h
  split_ifs at h with hskip
  · simp only [Option.some.injEq, reduceCtorEq] at h
  obtain ⟨result, hpath, h⟩ := Option.bind_eq_some_iff.1 h
  cases result with
  | error code =>
    simp only [Option.some.injEq, Flow.exit.injEq] at h
    rw [← h.1, makePath_error hpath]
    decide
  | ok path =>
    simp only at h
    split_ifs at h
    · simp only [Option.some.injEq, reduceCtorEq] at h
    · cases htype : v.record.recordType with
      | file =>
        simp only [htype] at h
        obtain ⟨⟨code, entry⟩, -, h⟩ := Option.map_eq_some_iff.1 h
        simp only at h
        split_ifs at h with hcode
        · simp only [Flow.exit.injEq] at h
          rw [← h.1]
          exact hcode
      | dlink =>
        simp only [htype] at h
        obtain ⟨⟨code, entry, dl⟩, -, h⟩ := Option.map_eq_some_iff.1 h
        simp only [reduceCtorEq] at h
      | _ => simp only [htype, Option.some.injEq, reduceCtorEq] at h

/-- **The loop** visits the records one after the other, if it can read on behind all but the
last. -/
lemma steps_of_unpackLoop_next (h : unpackLoop img dirs vs ret st = some (.next ret' st')) :
    Steps img dirs vs st st' ∧ ∀ u ∈ vs.dropLast, u.calls.next = true := by
  induction vs generalizing ret st with
  | nil =>
    simp only [unpackLoop, Option.some.injEq, Flow.next.injEq] at h
    obtain ⟨-, rfl⟩ := h
    exact ⟨.nil st, by simp⟩
  | cons v vs ih =>
    obtain ⟨flow, hrecord, hrest⟩ := Option.bind_eq_some_iff.1 h
    cases flow with
    | exit ret₁ st₁ => simp only [Option.some.injEq, reduceCtorEq] at hrest
    | next ret₁ st₁ =>
      simp only at hrest
      split_ifs at hrest with hread
      · obtain ⟨hsteps, hnext⟩ := ih hrest
        refine ⟨?_, fun u hu => ?_⟩
        · rcases unpackRecord_next hrecord with ⟨hv, rfl⟩ | ⟨p, hv, hmade⟩
          · exact .skip hv hsteps
          · exact .made hv hmade hsteps
        · cases vs with
          | nil => exact absurd hu List.not_mem_nil
          | cons w ws =>
            rcases List.mem_cons.1 hu with rfl | hu
            · simpa using hread
            · exact hnext u hu
      · simp only [Option.some.injEq, reduceCtorEq] at hrest

/-- **Where the loop ends the run with 0**, the catalog could not be read on. -/
lemma steps_of_unpackLoop_exit (h : unpackLoop img dirs vs ret st = some (.exit 0 st')) :
    ∃ pre v post st₁, vs = pre ++ v :: post ∧ post ≠ [] ∧ v.calls.next = false ∧
      (∀ u ∈ pre, u.calls.next = true) ∧ Steps img dirs (pre ++ [v]) st st₁ ∧
      st' = { st₁ with failed := true } := by
  induction vs generalizing ret st with
  | nil => simp only [unpackLoop, Option.some.injEq, reduceCtorEq] at h
  | cons v vs ih =>
    obtain ⟨flow, hrecord, hrest⟩ := Option.bind_eq_some_iff.1 h
    cases flow with
    | exit ret₁ st₁ =>
      simp only [Option.some.injEq, Flow.exit.injEq] at hrest
      exact absurd hrest.1 (unpackRecord_exit hrecord)
    | next ret₁ st₁ =>
      simp only at hrest
      split_ifs at hrest with hread
      · obtain ⟨pre, v', post, st₂, rfl, hpost, hnext, hpre, hsteps, rfl⟩ := ih hrest
        refine ⟨v :: pre, v', post, st₂, rfl, hpost, hnext, fun u hu => ?_, ?_, rfl⟩
        · rcases List.mem_cons.1 hu with rfl | hu
          · simpa using hread
          · exact hpre u hu
        · rcases unpackRecord_next hrecord with ⟨hv, rfl⟩ | ⟨p, hv, hmade⟩
          · exact .skip hv hsteps
          · exact .made hv hmade hsteps
      · simp only [Option.some.injEq, Flow.exit.injEq] at hrest
        simp only [Bool.or_eq_true, List.isEmpty_iff, not_or, Bool.not_eq_true] at hread
        refine ⟨[], v, vs, st₁, rfl, hread.1, hread.2, by simp, ?_, hrest.2.symm⟩
        rcases unpackRecord_next hrecord with ⟨hv, rfl⟩ | ⟨p, hv, hmade⟩
        · exact .skip hv (.nil _)
        · exact .made hv hmade (.nil _)

/-- The state after a hard link has been created. -/
def State.linked (st : State) (it : HlinkItem) (result : ℤ × Option Entry × DlinkInfo) : State :=
  { st.create it.name result.2.1 with
    dl := result.2.2, failed := st.failed || result.1 ≠ 0 || result.2.1.isNone }

/-- **What one hard link does** in a run that returns 0: it ends it without being created, is
created from its body, or is linked to the one before. -/
lemma unpackHlinks_cons {it : HlinkItem} {list : List HlinkItem} {objId : ℕ} {name : Bytes}
    (h : unpackHlinks img (it :: list) objId name st = some (0, st')) :
    (it.inoN < firstFileIno ∧ st' = { st with failed := true }) ∨
    (firstFileIno ≤ it.inoN ∧ it.inoN ≠ objId ∧
      ∃ result, createHlink img it.calls it.inoN st.dl = some result ∧
        unpackHlinks img list it.inoN it.name (st.linked it result) = some (0, st')) ∨
    (firstFileIno ≤ it.inoN ∧ it.inoN = objId ∧ it.calls.link = true ∧
      unpackHlinks img list objId name (st.create it.name (st.out name)) = some (0, st')) := by
  rw [unpackHlinks] at h
  by_cases hino : it.inoN < firstFileIno
  · rw [if_pos hino] at h
    exact Or.inl ⟨hino, (Prod.mk.inj (Option.some.inj h)).2.symm⟩
  rw [if_neg hino] at h
  by_cases hobj : it.inoN = objId
  · rw [if_neg (not_not.2 hobj)] at h
    by_cases hlink : it.calls.link = true
    · rw [if_pos hlink] at h
      exact Or.inr (Or.inr ⟨Nat.not_lt.1 hino, hobj, hlink, h⟩)
    · rw [if_neg hlink] at h
      exact absurd (Prod.mk.inj (Option.some.inj h)).1 (by decide)
  · rw [if_pos hobj] at h
    obtain ⟨⟨ret, entry, dl⟩, hcreate, h⟩ := Option.bind_eq_some_iff.1 h
    simp only at h
    by_cases hxattr : it.calls.xattr = 0
    · rw [if_neg (not_not.2 hxattr)] at h
      exact Or.inr (Or.inl ⟨Nat.not_lt.1 hino, hobj, _, hcreate, h⟩)
    · rw [if_pos hxattr] at h
      exact absurd (Prod.mk.inj (Option.some.inj h)).1 hxattr

/-! ### The whole run -/

/-- The folders of an image, in the list with the output folder at its head. -/
def Image.folders (img : Image) (rootPath : Bytes) : List DirItem :=
  Extractor.folders (cString rootPath) (img.children rootIno)

lemma record_visits (img : Image) (faults : Faults) :
    (img.visits faults).map Visit.record = img.children rootIno := by
  rw [Image.visits, List.map_map]
  exact List.zipIdx_map_fst ..

/-- **A run that returns 0** has visited the records, and has either come to their end and then to
the end of the list of hard links, or stopped where the catalog could not be read on. -/
lemma unpackFiles_eq_zero {img : Image} {rootPath : Bytes} {faults : Faults} {st : State}
    (h : unpackFiles img rootPath faults = some (0, st)) :
    (∃ st₁, (∀ u ∈ (img.visits faults).dropLast, u.calls.next = true) ∧
      Steps img (img.folders rootPath) (img.visits faults) .init st₁ ∧
      unpackHlinks img st₁.hlinks 0 [] st₁ = some (0, st)) ∨
    (∃ pre v post st₁, img.visits faults = pre ++ v :: post ∧ post ≠ [] ∧ v.calls.next = false ∧
      (∀ u ∈ pre, u.calls.next = true) ∧ Steps img (img.folders rootPath) (pre ++ [v]) .init st₁ ∧
      st = { st₁ with failed := true }) := by
  simp only [unpackFiles] at h
  by_cases hfirst : (!faults.firstChild || (img.visits faults).isEmpty) = true
  · rw [if_pos hfirst] at h
    exact absurd (Prod.mk.inj (Option.some.inj h)).1 (by decide)
  rw [if_neg hfirst] at h
  by_cases hclear : (!faults.clear) = true
  · rw [if_pos hclear] at h
    exact absurd (Prod.mk.inj (Option.some.inj h)).1 (by decide)
  rw [if_neg hclear] at h
  cases hfolders : makeFolderList (img.visits faults) [rootItem (cString rootPath)] with
  | error code =>
    simp only [hfolders, Option.some.injEq, Prod.mk.injEq] at h
    obtain ⟨rfl, -⟩ := h
    exact absurd hfolders makeFolderList_ne_error_zero
  | ok dirs =>
    have hdirs : dirs = img.folders rootPath := by
      rw [makeFolderList_eq hfolders, record_visits]
      rfl
    subst hdirs
    simp only [hfolders] at h
    by_cases hsecond : (!faults.secondChild) = true
    · rw [if_pos hsecond] at h
      cases h
    rw [if_neg hsecond] at h
    obtain ⟨code, -, h⟩ := Option.bind_eq_some_iff.1 h
    by_cases hcode : code = 0
    · rw [if_neg (not_not.2 hcode)] at h
      by_cases hthird : (!faults.thirdChild) = true
      · rw [if_pos hthird] at h
        cases h
      rw [if_neg hthird] at h
      obtain ⟨flow, hloop, h⟩ := Option.bind_eq_some_iff.1 h
      cases flow with
      | exit ret st₁ =>
        simp only [Option.some.injEq, Prod.mk.injEq] at h
        obtain ⟨rfl, rfl⟩ := h
        exact Or.inr (steps_of_unpackLoop_exit hloop)
      | next ret st₁ =>
        obtain ⟨hsteps, hnext⟩ := steps_of_unpackLoop_next hloop
        exact Or.inl ⟨st₁, hnext, hsteps, h⟩
    · rw [if_pos hcode] at h
      exact absurd (Prod.mk.inj (Option.some.inj h)).1 hcode

end SamsungTVVoices.Extractor
