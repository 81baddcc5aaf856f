/-
Whether an installed pack is whole (`isPackInstalled`, `_installPack`, `removePacks`).

A pack appears by one rename, but it is deleted piece by piece where it is seen.
`packsWhole_iff` says exactly when every state of a run is right: no file of a runtime may be
deleted while `pack.json` is there, and no folder in which that has happened may be moved back.
-/
import SamsungTVVoices.Store.Interrupted

open StepSystem

namespace SamsungTVVoices.Store

/-! ### What a runtime folder has -/

/-- The engine is where `copy2` has put it, if there is no folder. -/
lemma engine_of_copyFile {t u : Folder} {p : List FileName} {b : Bytes}
    (h : t.copyFile p b = some u) : u.node p = some .dir ∨ u.node p = some (.file b) := by
  unfold FileTree.copyFile at h
  split at h
  · next hdir =>
      left
      rw [(FileTree.writeFile_eq_some h).2]
      split
      · next heq =>
          -- the copy goes to a longer path
          have hlength := congrArg List.length heq
          rcases List.eq_nil_or_concat p with rfl | ⟨p, n, rfl⟩
          · cases h
          · simp at hlength
      · exact hdir
  · right
    rw [(FileTree.writeFile_eq_some h).2, if_pos rfl]

lemma engine_of_normaliseRuntime {extracted runtime : Folder}
    (h : normaliseRuntime extracted = some runtime) :
    runtime.node [libName, engineName] = some .dir ∨
      ∃ b, runtime.node [libName, engineName] = some (.file b) := by
  simp only [normaliseRuntime, Option.bind_eq_bind, Option.bind_eq_some_iff] at h
  obtain ⟨_, _, _, _, engine, _, _, _, copied, hcopied, hlast⟩ := h
  split at hlast
  · obtain rfl := Option.some.inj hlast
    exact (engine_of_copyFile hcopied).imp_right fun hfile => ⟨engine, hfile⟩
  · cases hlast

lemma symbol_of_normaliseRuntime {extracted runtime : Folder}
    (h : normaliseRuntime extracted = some runtime) :
    isFile runtime [dataName, symbolIni] = true := by
  simp only [normaliseRuntime, Option.bind_eq_bind, Option.bind_eq_some_iff] at h
  obtain ⟨_, _, _, _, _, _, _, _, _, _, hlast⟩ := h
  split at hlast
  · next hfile =>
      obtain rfl := Option.some.inj hlast
      exact hfile
  · cases hlast

lemma isFile_iff {t : Folder} {p : List FileName} :
    isFile t p = true ↔ ∃ b, t.node p = some (.file b) := by
  unfold isFile
  split
  · next b h => exact iff_of_true rfl ⟨b, h⟩
  · next h => exact iff_of_false Bool.false_ne_true fun ⟨b, hb⟩ => h b hb

namespace Interrupted

/-! ### The property -/

/-- The runtime folder has every file that was made for it, and among them the engine (unless the
voices have a folder in its place) and the symbols. -/
structure PackDir.Whole (d : PackDir) : Prop where
  files : ∀ p b, d.made.runtime.node p = some (.file b) →
    d.tree.node (runtimeName :: p) = some (.file b)
  engine : d.made.runtime.node [libName, engineName] ≠ some .dir →
    isFile d.tree [runtimeName, libName, engineName] = true
  symbol : isFile d.tree [runtimeName, dataName, symbolIni] = true

/-- What is installed is whole. -/
def PacksWhole (s : StoreRun) : Prop :=
  ∀ id, s.isPackInstalled id = true → ∃ d, s.packs id = some d ∧ d.Whole

/-- A deletion of this file of a pack takes a part of its runtime from a pack that is installed. -/
def PackDir.Breaks (p : List FileName) (d : PackDir) : Prop :=
  p.head? = some runtimeName ∧ isFile d.tree p = true ∧ isFile d.tree [packJson] = true

/-- The pack that is being deleted where it is seen. -/
def CallPc.deletes : CallPc → Option PackId
  | clearTarget id _ | removingPack id _ => some id
  | _ => none

/-- The pack whose old folder is about to be moved back. -/
def CallPc.restores : CallPc → Option PackId
  | restoreOld id _ => some id
  | _ => none

def StoreAction.works : StoreAction → Bool
  | next _ => true
  | _ => false

/-- The file that `rmtree` deletes. -/
def StoreAction.unlinks : StoreAction → Option (List FileName)
  | unlink p => some p
  | _ => none

/-- No file of a runtime is deleted from a pack that is installed, and no folder in which
`pack.json` has been left but something else of it has been deleted is moved back. -/
def KeepsWhole (s : StoreRun) (a : StoreAction) : Prop :=
  ∀ pc ∈ s.call,
    (∀ id ∈ pc.deletes, ∀ p ∈ a.unlinks, ∀ d ∈ s.packs id, ¬ d.Breaks p) ∧
    ∀ id ∈ pc.restores, a.works = true → s.packs id = none → ∀ d ∈ s.old id,
      isFile d.tree [packJson] = true → d.Whole

/-! ### The folder of a pack -/

variable {s t : StoreRun} {a : StoreAction} {id : PackId} {d d' : PackDir} {p : List FileName}

lemma PackDir.whole_of_files (h : ∀ p b, d.made.runtime.node p = some (.file b) →
    d.tree.node (runtimeName :: p) = some (.file b)) : d.Whole := by
  obtain ⟨extracted, hmade⟩ := d.made.normalised
  refine ⟨h, fun hdir => ?_, ?_⟩
  · obtain ⟨b, hb⟩ := (engine_of_normaliseRuntime hmade).resolve_left hdir
    exact isFile_iff.2 ⟨b, h _ b hb⟩
  · obtain ⟨b, hb⟩ := isFile_iff.1 (symbol_of_normaliseRuntime hmade)
    exact isFile_iff.2 ⟨b, h _ b hb⟩

lemma PackDir.whole_ofCandidate (id : PackId) (candidate : Candidate) :
    (PackDir.ofCandidate id candidate).Whole :=
  PackDir.whole_of_files fun _ _ h => h

lemma PackDir.unlink_eq_some (h : d.unlink p = some d') :
    d'.made = d.made ∧ d.tree.unlink p = some d'.tree := by
  unfold PackDir.unlink at h
  split at h
  · cases h
  · next t ht =>
      obtain rfl := Option.some.inj h
      exact ⟨rfl, ht⟩

lemma PackDir.rmdir_eq_some (h : d.rmdir p = some d') :
    d'.made = d.made ∧ d.tree.rmdir p = some d'.tree := by
  unfold PackDir.rmdir at h
  split at h
  · cases h
  · next t ht =>
      obtain rfl := Option.some.inj h
      exact ⟨rfl, ht⟩

/-- After the deletion of a file the pack is whole exactly if it was no file of the runtime. -/
lemma PackDir.whole_unlink_iff (h : d.unlink p = some d') (hwhole : d.Whole) :
    d'.Whole ↔ p.head? ≠ some runtimeName := by
  obtain ⟨hmade, htree⟩ := PackDir.unlink_eq_some h
  obtain ⟨⟨b, hb⟩, hnode⟩ := FileTree.unlink_eq_some htree
  constructor
  · intro hwhole' hhead
    obtain ⟨q, rfl⟩ : ∃ q, p = runtimeName :: q := by
      rcases p with _ | ⟨n, q⟩
      · cases hhead
      · exact ⟨q, by rw [Option.some.inj hhead]⟩
    have hgone := hwhole'.files q b (hmade ▸ d.below q _ hb)
    rw [hnode, if_pos rfl] at hgone
    cases hgone
  · intro hhead
    refine PackDir.whole_of_files fun q c hc => ?_
    rw [hnode, if_neg]
    · exact hwhole.files q c (hmade ▸ hc)
    · rintro rfl
      exact hhead rfl

lemma PackDir.whole_rmdir (h : d.rmdir p = some d') (hwhole : d.Whole) : d'.Whole := by
  obtain ⟨hmade, htree⟩ := PackDir.rmdir_eq_some h
  obtain ⟨hdir, hnode⟩ := FileTree.rmdir_eq_some htree
  refine PackDir.whole_of_files fun q c hc => ?_
  have hfile := hwhole.files q c (hmade ▸ hc)
  rw [hnode, if_neg]
  · exact hfile
  · rintro rfl
    rw [hfile] at hdir
    cases hdir

/-! ### A step -/

lemma packsWhole_iff_forall :
    PacksWhole s ↔ ∀ id d, s.packs id = some d → isFile d.tree [packJson] = true → d.Whole := by
  have hinstalled (id : PackId) (d : PackDir) (hd : s.packs id = some d) :
      s.isPackInstalled id = isFile d.tree [packJson] := by
    simp [StoreRun.isPackInstalled, Store.isPackInstalled, hd]
  constructor
  · intro h id d hd hfile
    obtain ⟨d', hd', hwhole⟩ := h id ((hinstalled id d hd).trans hfile)
    obtain rfl := Option.some.inj (hd.symm.trans hd')
    exact hwhole
  · intro h id hid
    cases hd : s.packs id with
    | none => simp [StoreRun.isPackInstalled, Store.isPackInstalled, hd] at hid
    | some d => exact ⟨d, rfl, h id d hd ((hinstalled id d hd).symm.trans hid)⟩

/-- One pack has changed, and the others have not. -/
lemma PacksWhole.update (h : PacksWhole s) {id : PackId} {left : Option PackDir}
    (hpacks : t.packs = Function.update s.packs id left)
    (hleft : ∀ d, left = some d → isFile d.tree [packJson] = true → d.Whole) : PacksWhole t := by
  rw [packsWhole_iff_forall] at h ⊢
  intro id' d hd
  rw [hpacks] at hd
  by_cases hid : id' = id
  · subst hid
    rw [Function.update_self] at hd
    exact hleft d hd
  · rw [Function.update_of_ne hid] at hd
    exact h id' d hd

/-- `pack.json` is no part of the runtime. -/
lemma PackDir.isFile_unlink (h : d.unlink p = some d') (hp : p.head? = some runtimeName) :
    isFile d'.tree [packJson] = isFile d.tree [packJson] := by
  obtain ⟨-, htree⟩ := PackDir.unlink_eq_some h
  have hne : [packJson] ≠ p := by
    rintro rfl
    exact absurd hp (by decide)
  rw [isFile, isFile, (FileTree.unlink_eq_some htree).2, if_neg hne]

/-- What a deletion leaves of a pack is whole if nothing is broken. -/
lemma whole_deletePackStep {left : Option PackDir}
    (hleft : deletePackStep (s.packs id) a = some left)
    (hwhole : ∀ d, s.packs id = some d → isFile d.tree [packJson] = true → d.Whole)
    (hkeeps : ∀ d p, s.packs id = some d → a = .unlink p → ¬ d.Breaks p) :
    ∀ d, left = some d → isFile d.tree [packJson] = true → d.Whole := by
  rintro d' rfl hfile
  unfold deletePackStep at hleft
  split at hleft
  · next d p hd =>
      obtain ⟨d'', hd'', heq⟩ := Option.map_eq_some_iff.1 hleft
      obtain rfl := Option.some.inj heq
      obtain ⟨-, htree⟩ := PackDir.unlink_eq_some hd''
      obtain ⟨⟨b, hb⟩, hnode⟩ := FileTree.unlink_eq_some htree
      have hfile' : isFile d.tree [packJson] = true := by
        obtain ⟨c, hc⟩ := isFile_iff.1 hfile
        exact isFile_iff.2 ⟨c, FileTree.node_of_unlink htree hc⟩
      refine (PackDir.whole_unlink_iff hd'' (hwhole d hd hfile')).2 fun hhead => ?_
      exact hkeeps d p hd rfl ⟨hhead, isFile_iff.2 ⟨b, hb⟩, hfile'⟩
  · next d p hd =>
      obtain ⟨d'', hd'', heq⟩ := Option.map_eq_some_iff.1 hleft
      obtain rfl := Option.some.inj heq
      obtain ⟨-, htree⟩ := PackDir.rmdir_eq_some hd''
      have hfile' : isFile d.tree [packJson] = true := by
        obtain ⟨c, hc⟩ := isFile_iff.1 hfile
        exact isFile_iff.2 ⟨c, FileTree.node_of_rmdir htree hc⟩
      exact PackDir.whole_rmdir hd'' (hwhole d hd hfile')
  · split at hleft
    · cases hleft
    · cases hleft
  · cases hleft

/-- A step keeps the packs whole if it does not break one. -/
lemma PacksWhole.storeStep (h : PacksWhole s) (ha : KeepsWhole s a)
    (ht : storeStep s a = some t) : PacksWhole t := by
  have hwhole := packsWhole_iff_forall.1 h
  cases effect_storeStep ht with
  | goTo pc => exact h
  | done _ => exact h
  | eraseDone name _ _ => exact h
  | erase name call _ => exact h
  | put name e call _ _ => exact h
  | deleteItem name mtime items k time _ _ => exact h
  | rename name name' mtime pc _ => exact h
  | deleteOld id left _ _ => exact h
  | deletePack id left hcall hleft =>
      refine h.update rfl (whole_deletePackStep hleft (hwhole id) ?_)
      rintro d p hd rfl
      rcases hcall with ⟨suffix, hcall⟩ | ⟨keys, hcall⟩
      · exact (ha _ hcall).1 id rfl p rfl d hd
      · exact (ha _ hcall).1 id rfl p rfl d hd
  | moveAside id d pc _ => exact h.update rfl nofun
  | moveCandidate id candidate suffix time items pc =>
      refine h.update rfl ?_
      rintro d ⟨⟩ _
      exact PackDir.whole_ofCandidate id candidate
  | restore id suffix time d pc hcall haction hold hnone =>
      refine h.update rfl ?_
      rintro d' ⟨⟩ hfile
      exact (ha _ hcall).2 id rfl (by rw [haction]; rfl) hnone d hold hfile

/-- A step that breaks a pack leaves it installed. -/
lemma keepsWhole_of_packsWhole (h : PacksWhole s) (ht : storeStep s a = some t)
    (hwhole : PacksWhole t) : KeepsWhole s a := by
  rw [packsWhole_iff_forall] at h hwhole
  have hbreaks {id : PackId} {p : List FileName} {u : StoreRun}
      (hdelete : (deletePackStep (s.packs id) (.unlink p)).map (s.setPack id) = some u)
      (hu : ∀ id d, u.packs id = some d → isFile d.tree [packJson] = true → d.Whole) :
      ∀ d, s.packs id = some d → ¬ d.Breaks p := by
    rintro d hd ⟨hhead, -, hjson⟩
    rw [hd] at hdelete
    simp only [deletePackStep, Option.map_map, Option.map_eq_some_iff] at hdelete
    obtain ⟨d', hd', rfl⟩ := hdelete
    have hwhole' : d'.Whole := by
      refine hu id d' (Function.update_self _ _ _) ?_
      rw [PackDir.isFile_unlink hd' hhead]
      exact hjson
    exact (PackDir.whole_unlink_iff hd' (h id d hd hjson)).1 hwhole' hhead
  intro pc hcall
  have hcall' : s.call = some pc := hcall
  refine ⟨?_, ?_⟩
  · intro id hid p hp
    cases a with
    | unlink q =>
        obtain rfl : q = p := Option.some.inj hp
        simp only [Interrupted.storeStep, hcall'] at ht
        cases pc with
        | clearTarget id' suffix =>
            obtain rfl : id' = id := Option.some.inj hid
            exact hbreaks ht hwhole
        | removingPack id' keys =>
            obtain rfl : id' = id := Option.some.inj hid
            exact hbreaks ht hwhole
        | _ => cases hid
    | _ => cases hp
  · intro id hid hworks hnone d hd hfile
    cases pc with
    | restoreOld id' suffix =>
        obtain rfl : id' = id := Option.some.inj hid
        cases a with
        | next time =>
            have hold : s.old id' = some d := hd
            simp only [Interrupted.storeStep, hcall', callStep, hold, hnone, Option.isSome_none,
              Bool.false_eq_true, if_false] at ht
            obtain rfl := Option.some.inj ht
            exact hwhole id' d (Function.update_self _ _ _) hfile
        | _ => cases hworks
    | _ => cases hid

/-- **Installed means whole.** The packs that are installed are whole in every state of a run
exactly when no step of it breaks one. -/
theorem packsWhole_iff (as : List StoreAction) (hs : PacksWhole s)
    (hrun : run storeStep s as = some t) :
    (∀ done u, done <+: as → run storeStep s done = some u → PacksWhole u) ↔
      Along storeStep KeepsWhole s as :=
  forall_prefix_iff_along (K := fun _ => True) (fun _ _ _ _ _ => trivial)
    (fun _ _ _ _ hs ht => ⟨keepsWhole_of_packsWhole hs ht, fun ha => hs.storeStep ha ht⟩)
    trivial hs hrun

/-! ### Runs -/

/-- Whether the file at a path of the runtime is as it was made. -/
def PackDir.keeps (d : PackDir) (p : List FileName) : Bool :=
  match d.made.runtime.node p with
  | some (.file b) => d.tree.node (runtimeName :: p) = some (.file b)
  | _ => true

lemma PackDir.whole_iff_keeps : d.Whole ↔ ∀ p ∈ d.made.runtime.paths, d.keeps p = true := by
  constructor
  · intro h p _
    unfold PackDir.keeps
    split
    · next b hb => exact decide_eq_true (h.files p b hb)
    · rfl
  · intro h
    refine PackDir.whole_of_files fun p b hb => ?_
    have hkeeps := h p ((d.made.runtime.mem_paths p).2 (by rw [hb]; exact nofun))
    rw [PackDir.keeps, hb] at hkeeps
    exact of_decide_eq_true hkeeps

instance (d : PackDir) : Decidable d.Whole := decidable_of_iff _ PackDir.whole_iff_keeps.symm

instance (d : PackDir) (p : List FileName) : Decidable (d.Breaks p) :=
  inferInstanceAs (Decidable (_ ∧ _ ∧ _))

instance (s : StoreRun) (a : StoreAction) : Decidable (KeepsWhole s a) :=
  inferInstanceAs (Decidable (∀ pc ∈ s.call, _ ∧ _))

instance (s : StoreRun) : Decidable (PacksWhole s) :=
  decidable_of_iff (∀ id ∈ PACKS, ∀ d ∈ s.packs id, isFile d.tree [packJson] = true → d.Whole)
    ⟨fun h => packsWhole_iff_forall.2 fun id d hd => h id (mem_PACKS id) d hd,
      fun h id _ d hd => packsWhole_iff_forall.1 h id d hd⟩

lemma packsWhole_newStore (settings : Option ℚ) : PacksWhole (newStore settings) :=
  packsWhole_iff_forall.2 nofun

/-- An installation in a new data folder. -/
def europeInstalledOnce : List StoreAction :=
  [.installPack "europe" 0, .next 0, .makeTemp "a" 0, .discard false, .write 0 [], .next 0, .next 0,
    .prepared leastExtracted 0, .next 0, .next 0, .moveOut 0 [], .makeTemp "b" 0, .next 0, .next 0,
    .deleteEntry, .next 0, .next 0, .deleteEntry, .next 0, .next 0]

/-- The pack is removed, `pack.json` first, and the process is killed. -/
def removedInOrder : List StoreAction :=
  europeInstalledOnce ++ [StoreAction.removePacks ["europe"], .next 0, .unlink [packJson],
    .unlink [runtimeName, dataName, symbolIni], .kill]

theorem packsWhole_removedInOrder :
    ∃ t, run storeStep (newStore none) removedInOrder = some t ∧
      ∀ done u, done <+: removedInOrder → run storeStep (newStore none) done = some u →
        PacksWhole u := by
  have hrun : (run storeStep (newStore none) removedInOrder).isSome = true := by decide +kernel
  obtain ⟨t, ht⟩ := Option.isSome_iff_exists.1 hrun
  have hkeeps : Along storeStep KeepsWhole (newStore none) removedInOrder := by decide +kernel
  exact ⟨t, ht, (packsWhole_iff removedInOrder (packsWhole_newStore none) ht).2 hkeeps⟩

/-- The symbols of the pack are removed, and the process is killed. -/
def removedHalf : List StoreAction :=
  europeInstalledOnce ++ [StoreAction.removePacks ["europe"], .next 0,
    .unlink [runtimeName, dataName, symbolIni], .kill]

theorem not_packsWhole_removedHalf :
    ¬ ∀ as t, run storeStep (newStore none) as = some t → PacksWhole t := by
  intro h
  have hrun : (run storeStep (newStore none) removedHalf).isSome = true := by decide +kernel
  have hnot : ∀ t ∈ run storeStep (newStore none) removedHalf, ¬ PacksWhole t := by decide +kernel
  obtain ⟨t, ht⟩ := Option.isSome_iff_exists.1 hrun
  exact hnot t ht (h removedHalf t ht)

end Interrupted

end SamsungTVVoices.Store
