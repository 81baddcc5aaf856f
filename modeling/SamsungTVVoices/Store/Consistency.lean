/-
The packs and the runtime archive over runs of calls (`installPack`, `removePacks`).

A state is consistent when the archive at `runtimePath()` is the one that `rebuildRuntime`
would write for the installed packs.  `consistent_call_iff` says of one call when it keeps a
state consistent, and `consistent_along_iff` of a run of calls: a removal that cannot rebuild
the archive leaves the old one there, and so does an installation that loses the old folder.
-/
import SamsungTVVoices.Store.Install
import SamsungTVVoices.Lib.StepSystem

namespace SamsungTVVoices.Store

/-! ### Removing packs -/

/-- The loop of `removePacks`: the folders of the named packs go, where `rmtree` can. -/
def removeAll (ignored : PackId → Bool) (keys : List String) (s : StoreState) : StoreState :=
  keys.foldl (fun s key =>
    match PackId.ofKey? key with
    | some id => removePack (ignored id) id s
    | none => s) s

/-- `removePacks`. -/
def removePacks (clean : Bytes) (raises : RebuildStep → Bool) (ignored : PackId → Bool)
    (keys : List String) (s : StoreState) : Exit × StoreState :=
  let s := removeAll ignored keys s
  match rebuild clean raises s with
  | none => (.raised, s)
  | some s => (.returned, s)

/-! ### Runs of calls -/

/-- A call of the store, with the steps of it that fail. -/
inductive StoreCall where
  | install (key : String) (extracted : Folder) (faults : Faults)
  | remove (keys : List String) (raises : RebuildStep → Bool) (ignored : PackId → Bool)

/-- A call as a step; it always ends, by returning or by raising. -/
def callStep (clean : Bytes) (s : StoreState) : StoreCall → Option StoreState
  | .install key extracted faults => some (installPack clean faults key extracted s).2
  | .remove keys raises ignored => some (removePacks clean raises ignored keys s).2

/-- The archive is the one of the installed packs, and it is there if there are any. -/
def Consistent (clean : Bytes) (s : StoreState) : Prop :=
  rebuildRuntime clean s.packs = some s.runtime

/-- The packs have the archive that other packs have. -/
def SameArchive (clean : Bytes) (packs other : Packs) : Prop :=
  rebuildRuntime clean packs = rebuildRuntime clean other

/-- After a failed removal or rollback these packs are left: the archive is rebuilt for them,
or it is already theirs because the packs `before` have the same one. -/
def RebuiltOrSame (clean : Bytes) (raises : RebuildStep → Bool) (packs before : Packs) : Prop :=
  rebuildWith clean raises packs ≠ none ∨ SameArchive clean packs before

/-- What has to go right in the handler of a failed rebuild: the new folder is removed and the
old one is moved back, or else the archive fits what is there instead. -/
def RollbackRestores (clean : Bytes) (f : Faults) (id : PackId) (candidate : Folder)
    (old : Option Folder) (packs : Packs) : Prop :=
  let left := Function.update packs id (if f.ignored .target then some candidate else none)
  match old with
  | none => RebuiltOrSame clean (fun r => f.raises (.rebuildAgain r)) left packs
  | some t =>
      if f.raises .restoreOld ∨ f.ignored .target then SameArchive clean left packs
      else RebuiltOrSame clean (fun r => f.raises (.rebuildAgain r))
        (Function.update packs id (some t)) packs

/-- The condition on an installation: once nothing is at `packs/<id>`, the candidate can be
moved there, and if the archive cannot be rebuilt then, the rollback works. -/
def InstallSafe (clean : Bytes) (f : Faults) (key : String) (extracted : Folder)
    (s : StoreState) : Prop :=
  ∀ id candidate, PackId.ofKey? key = some id → prepare f id extracted = some candidate →
    let stale := if f.ignored .oldBefore then s.old id else none
    (s.packs id = none ∨ (f.raises .moveAside = false ∧ stale = none)) →
      if f.raises .moveCandidate then
        SameArchive clean (Function.update s.packs id none) s.packs
      else
        rebuildWith clean (fun r => f.raises (.rebuild r))
            (Function.update s.packs id (some candidate)) = none →
          RollbackRestores clean f id candidate ((s.packs id).or stale) s.packs

/-- The condition on a call: the archive can be rebuilt for what a removal leaves, or nothing
of it was removed; and an installation is safe. -/
def CallSafe (clean : Bytes) (s : StoreState) : StoreCall → Prop
  | .install key extracted faults => InstallSafe clean faults key extracted s
  | .remove keys raises ignored =>
      RebuiltOrSame clean raises (removeAll ignored keys s).packs s.packs

variable {clean : Bytes}

lemma rebuildRuntime_of_rebuildWith {raises : RebuildStep → Bool} {packs : Packs}
    {archive : Option Bytes} (h : rebuildWith clean raises packs = some archive) :
    rebuildRuntime clean packs = some archive := by
  rw [rebuildWith] at h
  split at h
  · exact absurd h (by simp)
  · exact h

/-- Whether the archive is right after a rebuild that may have failed. -/
lemma consistent_rebuild_iff {raises : RebuildStep → Bool} {s before : StoreState}
    (hbefore : Consistent clean before) (hruntime : s.runtime = before.runtime) :
    Consistent clean ((rebuild clean raises s).getD s) ↔
      RebuiltOrSame clean raises s.packs before.packs := by
  rw [RebuiltOrSame, rebuild]
  cases h : rebuildWith clean raises s.packs with
  | some archive =>
      refine iff_of_true ?_ (Or.inl (by simp))
      exact rebuildRuntime_of_rebuildWith h
  | none =>
      rw [Option.map_none, Option.getD_none, Consistent, SameArchive, hbefore, hruntime]
      simp

lemma consistent_iff_sameArchive {s before : StoreState} (hbefore : Consistent clean before)
    (hruntime : s.runtime = before.runtime) :
    Consistent clean s ↔ SameArchive clean s.packs before.packs := by
  rw [Consistent, SameArchive, hbefore, hruntime]

@[simp] lemma runtime_removeAll (ignored : PackId → Bool) (keys : List String) :
    ∀ s : StoreState, (removeAll ignored keys s).runtime = s.runtime := by
  induction keys with
  | nil => intro s; rfl
  | cons key keys ih =>
      intro s
      rw [removeAll, List.foldl_cons]
      refine (ih _).trans ?_
      split
      · rw [removePack]
        split <;> rfl
      · rfl

/-! ### One call -/

variable {f : Faults} {id : PackId}

lemma consistent_rollback_iff {s before : StoreState} (hbefore : Consistent clean before)
    (hruntime : s.runtime = before.runtime) {candidate : Folder}
    (hpacks : s.packs = Function.update before.packs id (some candidate)) :
    Consistent clean (rollback clean f id s) ↔
      RollbackRestores clean f id candidate (s.old id) before.packs := by
  unfold rollback RollbackRestores
  cases htarget : f.ignored .target with
  | true =>
      -- the new folder is still there, so that nothing can be moved onto it
      have hsome : (s.packs id).isSome := by simp [hpacks]
      cases hold : s.old id with
      | none =>
          simp only [removePack, if_true, restoreOld, hold]
          rw [consistent_rebuild_iff hbefore hruntime, hpacks]
      | some t =>
          simp only [removePack, if_true, restoreOld, hold, hsome, or_true]
          rw [consistent_iff_sameArchive hbefore hruntime, hpacks]
  | false =>
      have hleft : (s.setPack id none).packs = Function.update before.packs id none := by
        rw [StoreState.packs_setPack, hpacks, Function.update_idem]
      cases hold : s.old id with
      | none =>
          simp only [removePack, Bool.false_eq_true, if_false, restoreOld,
            StoreState.old_setPack, hold]
          rw [consistent_rebuild_iff hbefore (by simpa using hruntime), hleft]
      | some t =>
          simp only [removePack, Bool.false_eq_true, if_false, restoreOld,
            StoreState.old_setPack, hold, hleft, Function.update_self, Option.isSome_none, or_false]
          cases hrestore : f.raises .restoreOld with
          | true =>
              simp only [if_true]
              rw [consistent_iff_sameArchive hbefore (by simpa using hruntime), hleft]
          | false =>
              simp only [Bool.false_eq_true, if_false]
              rw [consistent_rebuild_iff hbefore (by simpa using hruntime)]
              simp only [StoreState.packs_setOld, StoreState.packs_setPack, hpacks,
                Function.update_idem]

/-- The state once nothing is at `packs/<id>`, and when it is not reached. -/
lemma moveAside_removeOld (f : Faults) (id : PackId) (s : StoreState) :
    let stale := if f.ignored .oldBefore then s.old id else none
    (s.packs id = none ∨ (f.raises .moveAside = false ∧ stale = none) →
      ∃ t, moveAside (f.raises .moveAside) id (removeOld (f.ignored .oldBefore) id s) = some t ∧
        t.packs = Function.update s.packs id none ∧ t.old id = (s.packs id).or stale ∧
        t.runtime = s.runtime) ∧
    (¬ (s.packs id = none ∨ (f.raises .moveAside = false ∧ stale = none)) →
      moveAside (f.raises .moveAside) id (removeOld (f.ignored .oldBefore) id s) = none) := by
  intro stale
  have hpacks : (removeOld (f.ignored .oldBefore) id s).packs = s.packs := by
    rw [removeOld]
    split <;> rfl
  have hruntime : (removeOld (f.ignored .oldBefore) id s).runtime = s.runtime := by
    rw [removeOld]
    split <;> rfl
  have hold : (removeOld (f.ignored .oldBefore) id s).old id = stale := by
    rw [removeOld]
    split <;> simp_all [stale]
  rw [moveAside, hpacks]
  cases hpack : s.packs id with
  | none =>
      refine ⟨fun _ => ⟨_, rfl, ?_, by simpa using hold, hruntime⟩, by simp⟩
      rw [hpacks, ← hpack, Function.update_eq_self]
  | some t =>
      simp only [hold, reduceCtorEq, false_or]
      constructor
      · rintro ⟨hfault, hstale⟩
        simp [hfault, hstale, hpacks, hruntime]
      · intro h
        cases hfault : f.raises .moveAside with
        | true => simp
        | false =>
            have hstale : stale ≠ none := by simpa [hfault] using h
            simp [Option.isSome_iff_ne_none, hstale]

/-- A prepared installation that gets to moving the candidate. -/
lemma consistent_swap_iff {s : StoreState} (hs : Consistent clean s) (candidate : Folder) :
    let stale := if f.ignored .oldBefore then s.old id else none
    Consistent clean (swap clean f id candidate s).2 ↔
      (s.packs id = none ∨ (f.raises .moveAside = false ∧ stale = none) →
        if f.raises .moveCandidate then
          SameArchive clean (Function.update s.packs id none) s.packs
        else
          rebuildWith clean (fun r => f.raises (.rebuild r))
              (Function.update s.packs id (some candidate)) = none →
            RollbackRestores clean f id candidate ((s.packs id).or stale) s.packs) := by
  intro stale
  obtain ⟨hreached, hnot⟩ := moveAside_removeOld f id s
  rw [swap]
  by_cases hmoved : s.packs id = none ∨ (f.raises .moveAside = false ∧ stale = none)
  · obtain ⟨t, ht, hpacks, hold, hruntime⟩ := hreached hmoved
    simp only [ht, moveCandidate, hpacks, Function.update_self, Option.isSome_none,
      Bool.false_eq_true, or_false]
    rw [forall_prop_of_true hmoved]
    cases hmove : f.raises .moveCandidate with
    | true =>
        simp only [if_true]
        rw [consistent_iff_sameArchive hs hruntime, hpacks]
    | false =>
        simp only [Bool.false_eq_true, if_false]
        have hcandidate : (t.setPack id (some candidate)).packs =
            Function.update s.packs id (some candidate) := by
          rw [StoreState.packs_setPack, hpacks, Function.update_idem]
        cases hbuild : rebuildWith clean (fun r => f.raises (.rebuild r))
            (Function.update s.packs id (some candidate)) with
        | none =>
            have hraise : rebuild clean (fun r => f.raises (.rebuild r))
                (t.setPack id (some candidate)) = none :=
              rebuild_of_none (by rw [hcandidate]; exact hbuild)
            simp only [hraise, true_implies]
            rw [consistent_rollback_iff hs (by simpa using hruntime) hcandidate,
              StoreState.old_setPack, hold]
        | some archive =>
            have hreturn : rebuild clean (fun r => f.raises (.rebuild r))
                (t.setPack id (some candidate)) =
                some { t.setPack id (some candidate) with runtime := archive } :=
              rebuild_of_some (by rw [hcandidate]; exact hbuild)
            simp only [hreturn]
            refine iff_of_true ?_ (by simp)
            have harchive := rebuildRuntime_of_rebuildWith hbuild
            rw [← hcandidate] at harchive
            rw [removeOld]
            split <;> exact harchive
  · simp only [hnot hmoved]
    refine iff_of_true ?_ fun h => absurd h hmoved
    rw [consistent_iff_sameArchive hs, removeOld]
    · split <;> rfl
    · rw [removeOld]
      split <;> rfl

/-- One call keeps a consistent state consistent exactly under the condition. -/
theorem consistent_call_iff {s t : StoreState} (hs : Consistent clean s) {call : StoreCall}
    (hcall : callStep clean s call = some t) : Consistent clean t ↔ CallSafe clean s call := by
  cases call with
  | remove keys raises ignored =>
      obtain rfl := Option.some.inj hcall
      rw [CallSafe, ← consistent_rebuild_iff hs (runtime_removeAll ignored keys s), removePacks]
      cases rebuild clean raises (removeAll ignored keys s) <;> rfl
  | install key extracted faults =>
      obtain rfl := Option.some.inj hcall
      rw [CallSafe, InstallSafe, installPack]
      cases hkey : PackId.ofKey? key with
      | none => exact iff_of_true hs (by rintro id candidate ⟨⟩)
      | some id =>
          cases hprepare : prepare faults id extracted with
          | none =>
              simp only [hprepare]
              refine iff_of_true hs ?_
              rintro id' candidate hid hcandidate
              obtain rfl := Option.some.inj hid
              exact absurd (hprepare.symm.trans hcandidate) (by simp)
          | some candidate =>
              simp only [hprepare]
              refine (consistent_swap_iff hs candidate).trans ?_
              constructor
              · rintro h id' candidate' hid hcandidate
                obtain rfl := Option.some.inj hid
                obtain rfl := Option.some.inj (hprepare.symm.trans hcandidate)
                exact h
              · exact fun h => h id candidate rfl hprepare

/-! ### Runs -/

/-- A call always ends, by a return or an exception. -/
lemma exists_run_callStep (clean : Bytes) (calls : List StoreCall) :
    ∀ s : StoreState, ∃ t, StepSystem.run (callStep clean) s calls = some t := by
  induction calls with
  | nil => exact fun s => ⟨s, rfl⟩
  | cons call calls ih =>
      intro s
      obtain ⟨t, ht⟩ : ∃ t, callStep clean s call = some t := by
        cases call <;> exact ⟨_, rfl⟩
      obtain ⟨u, hu⟩ := ih t
      exact ⟨u, StepSystem.run_cons_eq_some.2 ⟨t, ht, hu⟩⟩

/-- **Packs and archive agree.**  From a consistent state, every state of a run is consistent
exactly when every call of the run meets the condition. -/
theorem consistent_along_iff (clean : Bytes) (calls : List StoreCall) :
    ∀ s : StoreState, Consistent clean s →
      ((∀ done t, done <+: calls → StepSystem.run (callStep clean) s done = some t →
          Consistent clean t) ↔
        StepSystem.Along (callStep clean) (CallSafe clean) s calls) := by
  intro s hs
  obtain ⟨t, ht⟩ := exists_run_callStep clean calls s
  exact StepSystem.forall_prefix_iff_along (K := fun _ => True) (fun _ _ _ _ _ => trivial)
    (fun _ _ _ _ hs hcall => consistent_call_iff hs hcall) trivial hs ht

/-! ### A removal that leaves the archive behind -/

/-- One pack with one runtime file, and its archive. -/
def oneFileStore : StoreState where
  packs := oneFilePacks packJson
  old _ := none
  runtime := some (appended (oneFile packJson))

lemma consistent_oneFileStore : Consistent [] oneFileStore :=
  rebuildRuntime_oneFilePacks [] packJson

lemma removeAll_oneFileStore :
    (removeAll (fun _ => false) ["europe"] oneFileStore).packs = fun _ => none := by
  funext id
  have hkey : PackId.ofKey? "europe" = some .europe := by decide
  simp only [removeAll, List.foldl_cons, List.foldl_nil, hkey, removePack, Bool.false_eq_true,
    if_false, StoreState.packs_setPack]
  cases id <;> rfl

lemma rebuildRuntime_of_no_packs (clean : Bytes) :
    rebuildRuntime clean (fun _ => none) = some none := by
  rw [rebuildRuntime, if_pos]
  rfl

/-- Removing the pack of that store works when nothing fails. -/
theorem consistent_along_oneFileStore :
    Consistent [] oneFileStore ∧
      ∀ done t, done <+: [StoreCall.remove ["europe"] (fun _ => false) fun _ => false] →
        StepSystem.run (callStep []) oneFileStore done = some t → Consistent [] t := by
  refine ⟨consistent_oneFileStore,
    (consistent_along_iff [] _ oneFileStore consistent_oneFileStore).2 ⟨Or.inl ?_, ?_⟩⟩
  · rw [removeAll_oneFileStore, rebuildWith, if_neg (by simp), rebuildRuntime_of_no_packs]
    simp
  · exact fun _ _ => trivial

/-- When the archive cannot be deleted, the removed pack stays in it. -/
theorem not_consistent_failed_removal :
    Consistent [] oneFileStore ∧
      ∀ t, callStep [] oneFileStore
          (.remove ["europe"] (fun step => step = .removeArchive) fun _ => false) = some t →
        ¬ Consistent [] t := by
  refine ⟨consistent_oneFileStore, fun t ht => ?_⟩
  rw [consistent_call_iff consistent_oneFileStore ht, CallSafe, RebuiltOrSame,
    removeAll_oneFileStore]
  rintro (hrebuilt | hsame)
  · exact hrebuilt (by rw [rebuildWith, if_pos (by decide)])
  · rw [SameArchive, rebuildRuntime_of_no_packs] at hsame
    exact absurd (hsame.trans consistent_oneFileStore) (by simp [oneFileStore])

end SamsungTVVoices.Store
