/-
What the cleanup finds (`_cleanupStaleInstallerFiles`).

The names that calls leave in the data folder come from several functions, and the cleanup knows
only some of them.  `cleanupRight_iff` compares its filter with what can be there after any run of
calls: it is right exactly as long as no call ends with a `runtime-` folder, the temporary archive
or an old folder of a pack, or with a work folder that is older than something in it.
-/
import SamsungTVVoices.Store.Interrupted

open StepSystem

namespace SamsungTVVoices.Store.Interrupted

/-! ### The property -/

/-- What is to stay in the data folder. -/
def Expected (name : String) : Entry → Prop
  | .file _ => name = settingsName ∨ name = archiveFileName
  | .dir _ _ => name = packsName

/-- A cleanup is right, at any time: when everything else is older than the retention it leaves
only what is to stay, it removes nothing that is not older, and it keeps what is to stay. -/
structure CleanupRight (s : StoreRun) : Prop where
  complete : ∀ now,
    (∀ name e, s.entries.lookup name = some e → ¬ Expected name e → e.mtime < now - retention) →
      (∀ name e, (cleanupStaleInstallerFiles now s.entries).lookup name = some e →
        Expected name e) ∧ ∀ id, s.old id = none
  fresh : ∀ now name e, s.entries.lookup name = some e →
    (cleanupStaleInstallerFiles now s.entries).lookup name = none →
      e.mtime < now - retention ∧ ∀ time ∈ e.items, time < now - retention
  kept : ∀ now name e, s.entries.lookup name = some e → Expected name e →
    (cleanupStaleInstallerFiles now s.entries).lookup name = some e

/-- Nothing is there that the cleanup does not find, and no work folder is older than something in
it. -/
structure NoStray (s : StoreRun) : Prop where
  merged : ∀ suffix, s.entries.lookup (mergedName suffix) = none
  temporary : s.entries.lookup temporaryName = none
  old : ∀ id, s.old id = none
  work : ∀ suffix e, s.entries.lookup (workName suffix) = some e → ∀ time ∈ e.items, time ≤ e.mtime

/-- The call returns, raises or is killed. -/
def EndsCall (s : StoreRun) (a : StoreAction) : Prop := ∃ t, storeStep s a = some t ∧ t.call = none

/-- A call ends only when nothing stray is there. -/
def EndsClean (s : StoreRun) (a : StoreAction) : Prop := EndsCall s a → NoStray s

/-! ### The names -/

/-- Every entry is known. -/
def AllKnown (entries : Entries) : Prop := ∀ name e, entries.lookup name = some e → Known name e

lemma head_workName (suffix : String) : (workName suffix).toList.head? = some 'f' := by
  rw [workName, String.toList_append]
  rfl

lemma head_mergedName (suffix : String) : (mergedName suffix).toList.head? = some 'r' := by
  rw [mergedName, String.toList_append]
  rfl

lemma ne_mergedName {name : String} (suffix : String) (h : name.toList.head? ≠ some 'r') :
    mergedName suffix ≠ name := by
  rintro rfl
  exact h (head_mergedName suffix)

lemma ne_workName {name : String} (suffix : String) (h : name.toList.head? ≠ some 'f') :
    workName suffix ≠ name := by
  rintro rfl
  exact h (head_workName suffix)

/-! ### What the cleanup finds -/

variable {s t : StoreRun} {a : StoreAction} {entries : Entries} {name : String} {e : Entry}

lemma isCandidate_workName (suffix : String) (mtime : ℚ) (items : List ℚ) :
    isCandidate (workName suffix) (.dir mtime items) = true := by
  rw [isCandidate, startsWith, workName, String.toList_append, List.isPrefixOf_iff_prefix]
  exact List.prefix_append _ _

lemma isCandidate_zipName (id : PackId) (mtime : ℚ) :
    isCandidate (zipName id) (.file mtime) = true := by
  cases id <;> rfl

lemma isCandidate_partialName (id : PackId) (mtime : ℚ) :
    isCandidate (partialName id) (.file mtime) = true := by
  cases id <;> rfl

lemma isCandidate_mergedName (suffix : String) (e : Entry) :
    isCandidate (mergedName suffix) e = false := by
  cases e with
  | file mtime =>
      simp only [isCandidate, startsWith, mergedName, String.toList_append]
      rfl
  | dir mtime items =>
      rw [isCandidate, startsWith, mergedName, String.toList_append]
      rfl

lemma isCandidate_temporaryName (e : Entry) : isCandidate temporaryName e = false := by
  cases e <;> rfl

lemma not_isCandidate_of_expected (h : Expected name e) : isCandidate name e = false := by
  cases e with
  | file mtime => rcases h with rfl | rfl <;> rfl
  | dir mtime items =>
      obtain rfl : name = packsName := h
      rfl

lemma mem_candidates :
    name ∈ candidates entries ↔ ∃ e, entries.lookup name = some e ∧ isCandidate name e = true := by
  simp only [candidates, List.mem_map, List.mem_filter, Sigma.exists]
  constructor
  · rintro ⟨name', e, ⟨hmem, hcandidate⟩, rfl⟩
    exact ⟨e, AList.mem_lookup_iff.2 hmem, hcandidate⟩
  · rintro ⟨e, he, hcandidate⟩
    exact ⟨name, e, ⟨AList.mem_lookup_iff.1 he, hcandidate⟩, rfl⟩

lemma lookup_cleanupOne (cutoff : ℚ) (entries : Entries) (name name' : String) :
    (cleanupOne cutoff entries name).lookup name' =
      if name' = name ∧ ∃ e, entries.lookup name = some e ∧ e.mtime < cutoff then none
      else entries.lookup name' := by
  unfold cleanupOne
  cases he : entries.lookup name with
  | none => simp
  | some e =>
      by_cases hcutoff : cutoff ≤ e.mtime
      · simp [hcutoff]
      · by_cases hname : name' = name
        · subst hname
          simp [hcutoff, lt_of_not_ge hcutoff]
        · simp [hcutoff, hname, AList.lookup_erase_ne hname]

/-- What is removed from a data folder: what was found and is older than the retention. -/
def Removes (now : ℚ) (entries : Entries) (name : String) : Prop :=
  ∃ e, entries.lookup name = some e ∧ isCandidate name e = true ∧ e.mtime < now - retention

lemma lookup_foldl_cleanupOne (cutoff : ℚ) (todo : List String) : ∀ entries : Entries,
    (todo.foldl (cleanupOne cutoff) entries).lookup name =
      if name ∈ todo ∧ ∃ e, entries.lookup name = some e ∧ e.mtime < cutoff then none
      else entries.lookup name := by
  induction todo with
  | nil => intro entries; simp
  | cons name' todo ih =>
      intro entries
      rw [List.foldl_cons, ih, lookup_cleanupOne]
      by_cases hname : name = name'
      · subst hname
        by_cases hold : ∃ e, entries.lookup name = some e ∧ e.mtime < cutoff
        · simp [hold]
        · simp [hold]
      · simp [hname]

/-- What a cleanup does. -/
lemma lookup_cleanup (now : ℚ) (entries : Entries) (name : String) :
    (Removes now entries name → (cleanupStaleInstallerFiles now entries).lookup name = none) ∧
      (¬ Removes now entries name →
        (cleanupStaleInstallerFiles now entries).lookup name = entries.lookup name) := by
  have hiff : (name ∈ candidates entries ∧
      ∃ e, entries.lookup name = some e ∧ e.mtime < now - retention) ↔
        Removes now entries name := by
    rw [mem_candidates]
    constructor
    · rintro ⟨⟨e, he, hcandidate⟩, e', he', htime⟩
      obtain rfl := Option.some.inj (he.symm.trans he')
      exact ⟨e, he, hcandidate, htime⟩
    · rintro ⟨e, he, hcandidate, htime⟩
      exact ⟨⟨e, he, hcandidate⟩, e, he, htime⟩
  rw [cleanupStaleInstallerFiles, lookup_foldl_cleanupOne]
  exact ⟨fun h => if_pos (hiff.2 h), fun h => if_neg (mt hiff.1 h)⟩

/-! ### When it is right -/

/-- There is a time at which everything is older than the retention. -/
lemma exists_time_all_old (entries : Entries) :
    ∃ now, ∀ name e, entries.lookup name = some e → e.mtime < now - retention := by
  have hbound : ∀ l : List (Sigma fun _ : String => Entry), ∃ now : ℚ, ∀ x ∈ l,
      x.2.mtime < now - retention := by
    intro l
    induction l with
    | nil => exact ⟨0, nofun⟩
    | cons x l ih =>
        obtain ⟨now, hnow⟩ := ih
        refine ⟨max now (x.2.mtime + retention + 1), fun y hy => ?_⟩
        rcases List.mem_cons.1 hy with rfl | hy
        · have := le_max_right now (y.2.mtime + retention + 1)
          linarith
        · have := le_max_left now (x.2.mtime + retention + 1)
          have := hnow y hy
          linarith
  obtain ⟨now, hnow⟩ := hbound entries.entries
  exact ⟨now, fun name e he => hnow ⟨name, e⟩ (AList.mem_lookup_iff.1 he)⟩

lemma NoStray.cleanupRight (h : NoStray s) (hknown : AllKnown s.entries) : CleanupRight s := by
  refine ⟨fun now hold => ⟨?_, h.old⟩, ?_, ?_⟩
  · intro name e he
    by_contra hnot
    have hremoves : ¬ Removes now s.entries name := fun hremoves => by
      rw [(lookup_cleanup now s.entries name).1 hremoves] at he
      cases he
    rw [(lookup_cleanup now s.entries name).2 hremoves] at he
    have htime := hold name e he hnot
    -- every leftover that can be there is found
    cases hknown name e he with
    | settings mtime => exact hnot (Or.inl rfl)
    | archive mtime => exact hnot (Or.inr rfl)
    | packs mtime items => exact hnot rfl
    | temporary mtime => rw [h.temporary] at he; cases he
    | merged suffix mtime items => rw [h.merged] at he; cases he
    | zip id mtime => exact hremoves ⟨_, he, isCandidate_zipName id mtime, htime⟩
    | part id mtime => exact hremoves ⟨_, he, isCandidate_partialName id mtime, htime⟩
    | work suffix mtime items =>
        exact hremoves ⟨_, he, isCandidate_workName suffix mtime items, htime⟩
  · intro now name e he hnone
    have hremoves : Removes now s.entries name := by
      by_contra hnot
      rw [(lookup_cleanup now s.entries name).2 hnot, he] at hnone
      cases hnone
    obtain ⟨e', he', hcandidate, htime⟩ := hremoves
    obtain rfl := Option.some.inj (he.symm.trans he')
    refine ⟨htime, fun time hmem => ?_⟩
    cases hknown name e he with
    | work suffix mtime items => exact (h.work suffix _ he time hmem).trans_lt htime
    | merged suffix mtime items => rw [h.merged] at he; cases he
    | packs mtime items => exact absurd hcandidate Bool.false_ne_true
    | _ => cases hmem
  · intro now name e he hexpected
    rw [(lookup_cleanup now s.entries name).2, he]
    rintro ⟨e', he', hcandidate, -⟩
    obtain rfl := Option.some.inj (he.symm.trans he')
    rw [not_isCandidate_of_expected hexpected] at hcandidate
    cases hcandidate

lemma CleanupRight.noStray (h : CleanupRight s) : NoStray s := by
  obtain ⟨now, hnow⟩ := exists_time_all_old s.entries
  obtain ⟨hleft, hold⟩ := h.complete now fun name e he _ => hnow name e he
  -- what is not found is left
  have hnone {name : String} (hcandidate : ∀ e, isCandidate name e = false)
      (hne : name ≠ settingsName ∧ name ≠ archiveFileName ∧ name ≠ packsName) :
      s.entries.lookup name = none := by
    cases he : s.entries.lookup name with
    | none => rfl
    | some e =>
        have hkeeps : (cleanupStaleInstallerFiles now s.entries).lookup name = some e := by
          rw [(lookup_cleanup now s.entries name).2, he]
          rintro ⟨e', _, hc, -⟩
          rw [hcandidate e'] at hc
          cases hc
        have hexpected := hleft name e hkeeps
        cases e with
        | file mtime => exact hexpected.elim (fun h => absurd h hne.1) fun h => absurd h hne.2.1
        | dir mtime items => exact absurd hexpected hne.2.2
  refine ⟨fun suffix => ?_, ?_, hold, ?_⟩
  · refine hnone (isCandidate_mergedName suffix) ⟨?_, ?_, ?_⟩
    all_goals exact ne_mergedName suffix (by decide)
  · exact hnone isCandidate_temporaryName (by decide)
  · intro suffix e he time hmem
    by_contra hlater
    -- a cleanup between the two times removes the folder
    cases e with
    | file mtime => cases hmem
    | dir mtime items =>
        have hremoves : Removes (time + retention) s.entries (workName suffix) := by
          refine ⟨_, he, isCandidate_workName suffix mtime items, ?_⟩
          rw [add_sub_cancel_right]
          exact lt_of_not_ge hlater
        have hfresh := (h.fresh (time + retention) _ _ he
          ((lookup_cleanup _ s.entries _).1 hremoves)).2 time hmem
        rw [add_sub_cancel_right] at hfresh
        exact lt_irrefl time hfresh

/-! ### What the calls leave -/

lemma known_dir {mtime time : ℚ} {items items' : List ℚ} (h : Known name (.dir mtime items)) :
    Known name (.dir time items') := by
  cases h with
  | packs => exact .packs time items'
  | work suffix => exact .work suffix time items'
  | merged suffix => exact .merged suffix time items'

lemma AllKnown.erase (h : AllKnown entries) (name : String) : AllKnown (entries.erase name) := by
  intro name' e he
  by_cases hname : name' = name
  · rw [hname, AList.lookup_erase] at he
    cases he
  · rw [AList.lookup_erase_ne hname] at he
    exact h name' e he

lemma AllKnown.insert (h : AllKnown entries) (he : Known name e) :
    AllKnown (entries.insert name e) := by
  intro name' e' he'
  by_cases hname : name' = name
  · rw [hname, AList.lookup_insert] at he'
    cases he'
    exact hname ▸ he
  · rw [AList.lookup_insert_ne hname] at he'
    exact h name' e' he'

/-- Every step keeps to the known names. -/
lemma AllKnown.storeStep (h : AllKnown s.entries) (ht : storeStep s a = some t) :
    AllKnown t.entries := by
  cases effect_storeStep ht with
  | goTo pc => exact h
  | done _ => exact h
  | eraseDone name _ _ => exact h.erase name
  | erase name call _ => exact h.erase name
  | put name e call hknown _ => exact h.insert hknown
  | deleteItem name mtime items k time _ hdir => exact h.insert (known_dir (h name _ hdir))
  | rename name name' mtime pc hknown => exact (h.erase name).insert hknown
  | deletePack id left _ _ => exact h
  | deleteOld id left _ _ => exact h
  | moveAside id d pc _ => exact h
  | moveCandidate id candidate suffix time items pc => exact h.insert (.work suffix time items)
  | restore id suffix time d pc _ _ _ _ => exact h

/-- What the last step of a call does is not seen by the cleanup. -/
lemma noStray_of_ends (ht : storeStep s a = some t) (hend : t.call = none) :
    s.call ≠ none ∧ (NoStray t ↔ NoStray s) := by
  cases effect_storeStep ht with
  | done hcall =>
      exact ⟨hcall, fun h => ⟨h.merged, h.temporary, h.old, h.work⟩,
        fun h => ⟨h.merged, h.temporary, h.old, h.work⟩⟩
  | eraseDone name hcall hname =>
      have hhead : name.toList.head? ≠ some 'r' ∧ name.toList.head? ≠ some 'f' ∧
          name ≠ temporaryName := by
        rcases hname with rfl | ⟨id, rfl⟩
        · decide
        · cases id <;> decide
      have hmerged (suffix : String) : (s.erase name).done.entries.lookup (mergedName suffix) =
          s.entries.lookup (mergedName suffix) :=
        AList.lookup_erase_ne (ne_mergedName suffix hhead.1)
      have hwork (suffix : String) : (s.erase name).done.entries.lookup (workName suffix) =
          s.entries.lookup (workName suffix) :=
        AList.lookup_erase_ne (ne_workName suffix hhead.2.1)
      have htemporary : (s.erase name).done.entries.lookup temporaryName =
          s.entries.lookup temporaryName :=
        AList.lookup_erase_ne hhead.2.2.symm
      refine ⟨hcall, fun h => ⟨?_, ?_, h.old, ?_⟩, fun h => ⟨?_, ?_, h.old, ?_⟩⟩
      · exact fun suffix => (hmerged suffix).symm.trans (h.merged suffix)
      · exact htemporary.symm.trans h.temporary
      · exact fun suffix e he => h.work suffix e ((hwork suffix).trans he)
      · exact fun suffix => (hmerged suffix).trans (h.merged suffix)
      · exact htemporary.trans h.temporary
      · exact fun suffix e he => h.work suffix e ((hwork suffix).symm.trans he)
  | erase name call hcall => exact absurd hend hcall
  | put name e call _ hcall => exact absurd hend hcall
  | deleteItem name mtime items k time hcall _ => exact absurd hend hcall
  | deletePack id left hcall _ =>
      rcases hcall with ⟨suffix, hcall⟩ | ⟨keys, hcall⟩
      · exact absurd (hcall.symm.trans hend) nofun
      · exact absurd (hcall.symm.trans hend) nofun
  | deleteOld id left hcall _ => exact absurd hend hcall
  | goTo pc => cases hend
  | rename name name' mtime pc _ => cases hend
  | moveAside id d pc _ => cases hend
  | moveCandidate id candidate suffix time items pc => cases hend
  | restore id suffix time d pc _ _ _ _ => cases hend

/-! ### Runs -/

lemma allKnown_empty : AllKnown ∅ := nofun

lemma allKnown_newStore (settings : Option ℚ) : AllKnown (newStore settings).entries := by
  cases settings with
  | none => exact allKnown_empty
  | some mtime => exact allKnown_empty.insert (.settings mtime)

lemma noStray_newStore (settings : Option ℚ) : NoStray (newStore settings) := by
  have hnone {name : String} (hname : name ≠ settingsName) :
      (newStore settings).entries.lookup name = none := by
    cases settings with
    | none => rfl
    | some mtime => exact AList.lookup_insert_ne hname
  refine ⟨fun suffix => hnone (ne_mergedName suffix (by decide)), hnone (by decide),
    fun id => rfl, fun suffix e he => ?_⟩
  rw [hnone (ne_workName suffix (by decide))] at he
  cases he

/-- **The cleanup is right.** Between the calls of a run the cleanup is right exactly when no call
ends with something stray. -/
theorem cleanupRight_iff (settings : Option ℚ) (as : List StoreAction)
    (hrun : run storeStep (newStore settings) as = some t) :
    (∀ done u, done <+: as → run storeStep (newStore settings) done = some u → u.call = none →
        CleanupRight u) ↔ Along storeStep EndsClean (newStore settings) as := by
  refine forall_prefix_iff_along (I := fun u => u.call = none → CleanupRight u)
    (K := fun u => AllKnown u.entries) (fun _ _ _ h ht => h.storeStep ht) ?_
    (allKnown_newStore settings)
    (fun _ => (noStray_newStore settings).cleanupRight (allKnown_newStore settings)) hrun
  intro s a u hknown hright hu
  constructor
  · rintro h ⟨u', hu', hend⟩
    obtain rfl := Option.some.inj (hu.symm.trans hu')
    exact (noStray_of_ends hu hend).2.1 (h hend).noStray
  · intro h hend
    exact ((noStray_of_ends hu hend).2.2 (h ⟨u, hu, hend⟩)).cleanupRight (hknown.storeStep hu)

/-! ### A cleanup step by step -/

/-- Where a cleanup is that has begun in `s₀`: `todo` has not been looked at, and `folder` is being
deleted.  Nothing has failed if `ok`. -/
structure CleaningInv (now : ℚ) (s₀ : StoreRun) (ok : Prop) (u : StoreRun) (todo : List String)
    (folder : Option String) : Prop where
  packs : u.packs = s₀.packs
  old : u.old = s₀.old
  nodup : (folder.toList ++ todo).Nodup
  waiting : ∀ name ∈ todo, u.entries.lookup name = s₀.entries.lookup name ∧
    ∃ e, s₀.entries.lookup name = some e ∧ isCandidate name e = true
  deleting : ∀ name ∈ folder, Removes now s₀.entries name
  kept : ∀ name, u.entries.lookup name = s₀.entries.lookup name ∨ Removes now s₀.entries name
  removed : ok → ∀ name, Removes now s₀.entries name →
    name ∈ todo ∨ folder = some name ∨ u.entries.lookup name = none

/-- A state of a cleanup that has begun in `s₀`. -/
inductive CleaningAt (now : ℚ) (s₀ : StoreRun) (ok : Prop) (u : StoreRun) : Prop where
  | loop (todo : List String) : u.call = some (.cleaning (now - retention) todo none) →
      CleaningInv now s₀ ok u todo none → CleaningAt now s₀ ok u
  | folder (name : String) (todo : List String) :
      u.call = some (.cleaningFolder name (now - retention) todo none) →
      CleaningInv now s₀ ok u todo (some name) → CleaningAt now s₀ ok u
  | done : u.call = none → CleaningInv now s₀ ok u [] none → CleaningAt now s₀ ok u

section Cleaning

variable {now : ℚ} {s₀ u v : StoreRun} {ok : Prop} {todo : List String} {folder : Option String}

/-- After a failure nothing is said of what is left to do. -/
lemma CleaningInv.failed (h : CleaningInv now s₀ ok u todo folder) (hok : ¬ ok)
    {todo' : List String} (hsub : todo' <:+ todo) (pc : Option CallPc) :
    CleaningInv now s₀ ok { u with call := pc } todo' none where
  packs := h.packs
  old := h.old
  nodup := (List.nodup_append.1 h.nodup).2.1.sublist hsub.sublist
  waiting := fun name hname => h.waiting name (hsub.subset hname)
  deleting := nofun
  kept := h.kept
  removed := fun hok' => absurd hok' hok

lemma CleaningInv.deleteStep {name : String} (h : CleaningInv now s₀ ok u todo (some name))
    (hv : deleteStep u name a = some v) :
    v.call = u.call ∧ CleaningInv now s₀ ok v todo (some name) := by
  have hnot : name ∉ todo := (List.nodup_cons.1 h.nodup).1
  -- only the entry of this name changes
  have hinv (entries : Entries)
      (hother : ∀ name', name' ≠ name → entries.lookup name' = u.entries.lookup name') :
      CleaningInv now s₀ ok { u with entries := entries } todo (some name) := by
    refine ⟨h.packs, h.old, h.nodup, fun name' hname' => ?_, h.deleting, fun name' => ?_,
      fun hok name' hremoves => ?_⟩
    · have hne : name' ≠ name := by
        rintro rfl
        exact hnot hname'
      exact ⟨(hother name' hne).trans (h.waiting name' hname').1, (h.waiting name' hname').2⟩
    · by_cases hne : name' = name
      · exact Or.inr (hne ▸ h.deleting name rfl)
      · exact (h.kept name').imp_left (hother name' hne).trans
    · by_cases hne : name' = name
      · exact Or.inr (Or.inl (congrArg some hne.symm))
      · refine (h.removed hok name' hremoves).imp_right (Or.imp_right ?_)
        exact (hother name' hne).trans
  unfold Interrupted.deleteStep at hv
  split at hv
  · split at hv
    · split at hv
      · obtain rfl := Option.some.inj hv
        exact ⟨rfl, hinv _ fun name' hne => AList.lookup_insert_ne hne⟩
      · cases hv
    · cases hv
  · split at hv
    · obtain rfl := Option.some.inj hv
      exact ⟨rfl, hinv _ fun name' hne => AList.lookup_erase_ne hne⟩
    · cases hv
  · cases hv

/-- The loop goes on to the next candidate. -/
lemma CleaningInv.cleaningStep (h : CleaningInv now s₀ ok u todo none)
    (hok : ok → a ≠ .fail)
    (hv : cleaningStep u (now - retention) todo none a = some v) : CleaningAt now s₀ ok v := by
  unfold Interrupted.cleaningStep at hv
  split at hv
  · cases todo with
    | nil =>
        obtain rfl := Option.some.inj hv
        exact .done rfl ⟨h.packs, h.old, h.nodup, h.waiting, h.deleting, h.kept, h.removed⟩
    | cons name todo =>
        obtain ⟨hlookup, e, he, hcandidate⟩ := h.waiting name List.mem_cons_self
        obtain ⟨hnot, hnodup⟩ := List.nodup_cons.1 h.nodup
        have hrest : ∀ name' ∈ todo, _ := fun name' hmem =>
          h.waiting name' (List.mem_cons_of_mem name hmem)
        simp only [hlookup, he] at hv
        split at hv
        · next hyoung =>
            obtain rfl := Option.some.inj hv
            refine .loop todo rfl ⟨h.packs, h.old, hnodup, hrest, h.deleting, h.kept, ?_⟩
            intro hok' name' hremoves
            refine (h.removed hok' name' hremoves).imp_left fun hmem => ?_
            refine (List.mem_cons.1 hmem).resolve_left ?_
            rintro rfl
            obtain ⟨e', he', -, hlt⟩ := hremoves
            obtain rfl := Option.some.inj (he.symm.trans he')
            exact absurd hyoung (not_le_of_gt hlt)
        · next hold =>
            have hremoves : Removes now s₀.entries name := ⟨e, he, hcandidate, lt_of_not_ge hold⟩
            split at hv
            · obtain rfl := Option.some.inj hv
              refine .loop todo rfl ⟨h.packs, h.old, hnodup, fun name' hmem => ?_, h.deleting,
                fun name' => ?_, fun hok' name' hremoves' => ?_⟩
              · have hne : name' ≠ name := by
                  rintro rfl
                  exact hnot hmem
                exact ⟨(AList.lookup_erase_ne hne).trans (hrest name' hmem).1,
                  (hrest name' hmem).2⟩
              · by_cases hne : name' = name
                · exact Or.inr (hne ▸ hremoves)
                · exact (h.kept name').imp_left (AList.lookup_erase_ne hne).trans
              · by_cases hne : name' = name
                · subst hne
                  exact Or.inr (Or.inr (AList.lookup_erase name' u.entries))
                · rcases h.removed hok' name' hremoves' with hmem | hmem | hmem
                  · exact Or.inl ((List.mem_cons.1 hmem).resolve_left hne)
                  · cases hmem
                  · exact Or.inr (Or.inr ((AList.lookup_erase_ne hne).trans hmem))
            · obtain rfl := Option.some.inj hv
              refine .folder name todo rfl ⟨h.packs, h.old, h.nodup, hrest, ?_, h.kept, ?_⟩
              · rintro _ ⟨⟩
                exact hremoves
              · intro hok' name' hremoves'
                rcases h.removed hok' name' hremoves' with hmem | hmem | hmem
                · rcases List.mem_cons.1 hmem with rfl | hmem
                  · exact Or.inr (Or.inl rfl)
                  · exact Or.inl hmem
                · cases hmem
                · exact Or.inr (Or.inr hmem)
  · cases todo with
    | nil => cases hv
    | cons name todo =>
        obtain rfl := Option.some.inj hv
        exact .loop todo rfl (h.failed (fun hok' => hok hok' rfl) (List.suffix_cons _ _) _)
  · cases hv

/-- A step of the cleanup. -/
lemma CleaningAt.storeStep (h : CleaningAt now s₀ ok u) (hcall : u.call ≠ none)
    (hok : ok → a ≠ .fail ∧ a ≠ .kill) (hv : storeStep u a = some v) :
    CleaningAt now s₀ ok v := by
  cases h with
  | done hnone _ => exact absurd hnone hcall
  | loop todo hpc hinv =>
      simp only [Interrupted.storeStep, hpc] at hv
      split at hv
      · obtain rfl := Option.some.inj hv
        exact .done rfl (hinv.failed (fun hok' => (hok hok').2 rfl) (List.nil_suffix) _)
      · exact hinv.cleaningStep (fun hok' => (hok hok').1) hv
  | folder name todo hpc hinv =>
      obtain ⟨-, hnodup⟩ := List.nodup_cons.1 hinv.nodup
      simp only [Interrupted.storeStep, hpc] at hv
      split at hv
      · obtain rfl := Option.some.inj hv
        exact .done rfl (hinv.failed (fun hok' => (hok hok').2 rfl) (List.nil_suffix) _)
      · simp only [callStep] at hv
        split at hv
        · split at hv
          · next hgone =>
              obtain rfl := Option.some.inj hv
              refine .loop todo rfl
                ⟨hinv.packs, hinv.old, hnodup, hinv.waiting, nofun, hinv.kept, ?_⟩
              intro hok' name' hremoves
              rcases hinv.removed hok' name' hremoves with hmem | hmem | hmem
              · exact Or.inl hmem
              · obtain rfl := Option.some.inj hmem
                exact Or.inr (Or.inr hgone)
              · exact Or.inr (Or.inr hmem)
          · cases hv
        · obtain rfl := Option.some.inj hv
          exact .loop todo rfl (hinv.failed (fun hok' => (hok hok').1 rfl) List.suffix_rfl _)
        · obtain ⟨hcall', hinv'⟩ := hinv.deleteStep hv
          exact .folder name todo (hcall'.trans hpc) hinv'

end Cleaning

lemma nodup_candidates (entries : Entries) : (candidates entries).Nodup := by
  refine entries.keys_nodup.sublist ?_
  exact List.filter_sublist.map Sigma.fst

/-- **The cleanup as a run.** Whatever fails in a cleanup, and wherever it is killed, it removes
only what `cleanupStaleInstallerFiles` removes; and it leaves the same when nothing fails. -/
theorem cleanup_run (now : ℚ) (as : List StoreAction) (hs : s.call = none)
    (hrun : run storeStep s (.cleanup now :: as) = some t)
    (hcall : ∀ u, storeStep s (.cleanup now) = some u →
      Along storeStep (fun u _ => u.call ≠ none) u as) :
    t.packs = s.packs ∧ t.old = s.old ∧
      (∀ name, t.entries.lookup name = s.entries.lookup name ∨
        (cleanupStaleInstallerFiles now s.entries).lookup name = none) ∧
      (t.call = none → (∀ a ∈ as, a ≠ .fail ∧ a ≠ .kill) → ∀ name,
        t.entries.lookup name = (cleanupStaleInstallerFiles now s.entries).lookup name) := by
  obtain ⟨u, hu, hrun⟩ := run_cons_eq_some.1 hrun
  have hstart := hu
  rw [Interrupted.storeStep, hs] at hstart
  obtain rfl := Option.some.inj hstart
  set ok := ∀ a ∈ as, a ≠ StoreAction.fail ∧ a ≠ StoreAction.kill with hok
  have hbegin : CleaningAt now s ok
      (s.goTo (.cleaning (now - retention) (candidates s.entries) none)) := by
    refine .loop _ rfl ⟨rfl, rfl, nodup_candidates s.entries, fun name hmem => ?_, nofun,
      fun name => Or.inl rfl, fun _ name hremoves => Or.inl ?_⟩
    · exact ⟨rfl, mem_candidates.1 hmem⟩
    · obtain ⟨e, he, hcandidate, -⟩ := hremoves
      exact mem_candidates.2 ⟨e, he, hcandidate⟩
  have hend : CleaningAt now s ok t := by
    have halong := (hcall _ hu).and (along_of_forall (P := fun a => ok → a ≠ .fail ∧ a ≠ .kill)
      (fun a ha hok' => hok' a ha) _)
    exact run_invariant_along (fun _ _ _ h hG hv => h.storeStep hG.1 hG.2 hv) hbegin halong hrun
  obtain ⟨todo, folder, hinv, hempty⟩ : ∃ todo folder, CleaningInv now s ok t todo folder ∧
      (t.call = none → todo = [] ∧ folder = none) := by
    cases hend with
    | loop todo hpc hinv =>
        exact ⟨todo, none, hinv, fun hnone => absurd (hpc.symm.trans hnone) nofun⟩
    | folder name todo hpc hinv =>
        exact ⟨todo, some name, hinv, fun hnone => absurd (hpc.symm.trans hnone) nofun⟩
    | done hnone hinv => exact ⟨[], none, hinv, fun _ => ⟨rfl, rfl⟩⟩
  refine ⟨hinv.packs, hinv.old, fun name => ?_, fun hnone hworks name => ?_⟩
  · exact (hinv.kept name).imp_right (lookup_cleanup now s.entries name).1
  · obtain ⟨rfl, rfl⟩ := hempty hnone
    by_cases hremoves : Removes now s.entries name
    · rw [(lookup_cleanup now s.entries name).1 hremoves]
      exact ((hinv.removed hworks name hremoves).resolve_left List.not_mem_nil).resolve_left nofun
    · rw [(lookup_cleanup now s.entries name).2 hremoves]
      exact (hinv.kept name).resolve_right hremoves

/-! ### Runs that are killed -/

/-- An entry is stray. -/
def isStray (name : String) (e : Entry) : Bool :=
  startsWith name "runtime-" || name == temporaryName ||
    (startsWith name "firmware-" && e.items.any (e.mtime < ·))

lemma startsWith_iff {pre : String} :
    startsWith name pre = true ↔ ∃ suffix, name = pre ++ suffix := by
  rw [startsWith, List.isPrefixOf_iff_prefix]
  constructor
  · rintro ⟨l, hl⟩
    refine ⟨String.ofList l, String.toList_inj.1 ?_⟩
    rw [String.toList_append, String.toList_ofList, hl]
  · rintro ⟨suffix, rfl⟩
    rw [String.toList_append]
    exact List.prefix_append _ _

lemma startsWith_mergedName (suffix : String) : startsWith (mergedName suffix) "runtime-" = true :=
  startsWith_iff.2 ⟨suffix, rfl⟩

lemma startsWith_workName (suffix : String) : startsWith (workName suffix) "firmware-" = true :=
  startsWith_iff.2 ⟨suffix, rfl⟩

lemma noStray_iff : NoStray s ↔
    (∀ x ∈ s.entries.entries, isStray x.1 x.2 = false) ∧
      ∀ id ∈ PACKS, (s.old id).isNone = true := by
  constructor
  · intro h
    refine ⟨fun x hx => ?_, fun id _ => by rw [h.old]; rfl⟩
    have he : s.entries.lookup x.1 = some x.2 := AList.mem_lookup_iff.2 hx
    have hmerged : startsWith x.1 "runtime-" = false := by
      rw [← Bool.not_eq_true, startsWith_iff]
      rintro ⟨suffix, hname⟩
      rw [hname] at he
      exact absurd (he.symm.trans (h.merged suffix)) nofun
    have htemporary : (x.1 == temporaryName) = false := by
      rw [beq_eq_false_iff_ne]
      intro hname
      rw [hname] at he
      exact absurd (he.symm.trans h.temporary) nofun
    rw [isStray, hmerged, htemporary, Bool.false_or, Bool.false_or, ← Bool.not_eq_true,
      Bool.and_eq_true, startsWith_iff, List.any_eq_true]
    rintro ⟨⟨suffix, hname⟩, time, htime, hlt⟩
    rw [hname] at he
    exact absurd (h.work suffix x.2 he time htime) (not_le_of_gt (of_decide_eq_true hlt))
  · rintro ⟨hentries, hold⟩
    have hstray {name : String} {e : Entry} (he : s.entries.lookup name = some e) :
        isStray name e = false := hentries ⟨name, e⟩ (AList.mem_lookup_iff.1 he)
    refine ⟨fun suffix => ?_, ?_,
      fun id => Option.isNone_iff_eq_none.1 (hold id (mem_PACKS id)), ?_⟩
    · cases he : s.entries.lookup (mergedName suffix) with
      | none => rfl
      | some e =>
          have hfalse := hstray he
          rw [isStray, startsWith_mergedName] at hfalse
          cases hfalse
    · cases he : s.entries.lookup temporaryName with
      | none => rfl
      | some e =>
          have hfalse := hstray he
          rw [isStray, beq_self_eq_true, Bool.or_true] at hfalse
          cases hfalse
    · intro suffix e he time htime
      by_contra hlt
      have hfalse := hstray he
      rw [isStray, startsWith_workName, List.any_eq_true.2
        ⟨time, htime, decide_eq_true (lt_of_not_ge hlt)⟩, Bool.and_true, Bool.or_true] at hfalse
      cases hfalse

instance (s : StoreRun) : Decidable (NoStray s) := decidable_of_iff _ noStray_iff.symm

lemma endsCall_iff :
    EndsCall s a ↔ ∃ t ∈ storeStep s a, t.call.isNone = true := by
  simp only [EndsCall, Option.isNone_iff_eq_none, Option.mem_def]

instance (s : StoreRun) (a : StoreAction) : Decidable (EndsCall s a) :=
  decidable_of_iff _ endsCall_iff.symm

instance (s : StoreRun) (a : StoreAction) : Decidable (EndsClean s a) :=
  inferInstanceAs (Decidable (_ → _))

/-- An installation is killed while its download arrives. -/
def killedInDownload : List StoreAction :=
  [.installPack "europe" 100000, .next 100000, .makeTemp "a" 100000, .discard false,
    .write 100001 [], .kill]

theorem cleanupRight_killedInDownload :
    ∃ t, run storeStep (newStore (some 0)) killedInDownload = some t ∧
      t.entries.keys = [partialName .europe, workName "a", settingsName] ∧
      ∀ done u, done <+: killedInDownload → run storeStep (newStore (some 0)) done = some u →
        u.call = none → CleanupRight u := by
  have hkeys : (run storeStep (newStore (some 0)) killedInDownload).map (·.entries.keys) =
      some [partialName .europe, workName "a", settingsName] := by decide +kernel
  obtain ⟨t, ht, hkeys⟩ := Option.map_eq_some_iff.1 hkeys
  have hclean : Along storeStep EndsClean (newStore (some 0)) killedInDownload := by
    decide +kernel
  exact ⟨t, ht, hkeys, (cleanupRight_iff (some 0) killedInDownload ht).2 hclean⟩

/-- An installation is killed while it merges the runtimes of the packs. -/
def killedInRebuild : List StoreAction :=
  [.installPack "europe" 0, .next 0, .makeTemp "a" 0, .discard false, .write 0 [], .next 0, .next 0,
    .prepared leastExtracted 0, .next 0, .next 0, .moveOut 0 [], .makeTemp "b" 0, .kill]

theorem not_cleanupRight_killedInRebuild :
    ¬ ∀ settings as u, run storeStep (newStore settings) as = some u → u.call = none →
      CleanupRight u := by
  intro h
  have hstate : (run storeStep (newStore none) killedInRebuild).map
      (fun u => (u.call.isNone, (u.entries.lookup (mergedName "b")).isSome)) =
        some (true, true) := by decide +kernel
  obtain ⟨u, hu, heq⟩ := Option.map_eq_some_iff.1 hstate
  obtain ⟨hcall, hstray⟩ := Prod.ext_iff.1 heq
  have hright := h none killedInRebuild u hu (Option.isNone_iff_eq_none.1 hcall)
  have hthere : (u.entries.lookup (mergedName "b")).isSome = true := hstray
  rw [hright.noStray.merged "b"] at hthere
  cases hthere

end SamsungTVVoices.Store.Interrupted
