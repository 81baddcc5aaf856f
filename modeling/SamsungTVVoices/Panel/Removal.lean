/-
What the panel's `_busy` flag protects.

`onRemove` sets the flag and disables the buttons until `_removeFinished` runs.  But the timer sets
it to what `_downloadState` says, which knows of no removal, so a quarter of a second later the
buttons are enabled again.  As long as nothing is started then, the flag does its work: no two calls
of the store run at the same time, and the guard of `onRemove` keeps a pack.
-/
import SamsungTVVoices.Panel.Machine

open SamsungTVVoices.Store StepSystem

namespace SamsungTVVoices.Panel

variable {s t : PanelState} {active : Bool}

/-! ### The flag -/

/-- The thread is in `removePacks`. -/
def Removal.inCall (r : Removal) : Bool :=
  match r.pc with
  | .removing _ => true
  | .starting | .returned => false

/-- The number of calls of `installPack` and `removePacks` that are running. -/
def running (s : PanelState) : ℕ :=
  (match s.downloader with
    | .installing _ _ => 1
    | .idle | .next _ => 0) + s.removals.countP Removal.inCall

/-- No removal is between its confirmation and the end of its `_removeFinished`. -/
def Quiet (s : PanelState) : Prop := s.removals = [] ∧ s.posted = []

/-- What is started is started when no removal is under way. -/
def StartsQuiet (s : PanelState) : PanelAction → Prop
  | .pressDownload => s.installed ≠ [] → Quiet s
  | .answer true => Quiet s
  | _ => True

instance (s : PanelState) : Decidable (Quiet s) := inferInstanceAs (Decidable (_ ∧ _))

instance (s : PanelState) : (a : PanelAction) → Decidable (StartsQuiet s a)
  | .pressDownload => inferInstanceAs (Decidable (_ → _))
  | .answer true => inferInstanceAs (Decidable (Quiet s))
  | .answer false => .isTrue trivial
  | .select _ => .isTrue trivial
  | .pressRemove => .isTrue trivial
  | .guard => .isTrue trivial
  | .tick => .isTrue trivial
  | .removeFinished => .isTrue trivial
  | .downloader => .isTrue trivial
  | .swap _ => .isTrue trivial
  | .removal _ _ => .isTrue trivial

/-- What holds as long as everything is started when no removal is under way. -/
structure FlagInv (s : PanelState) : Prop where
  button : s.removeEnabled = true → s.busy = false
  busy : s.downloader ≠ .idle → s.busy = true
  state : s.downloader ≠ .idle → s.downloadState.busy = true
  quiet : s.downloader ≠ .idle → Quiet s
  handler : s.downloader ≠ .idle → s.handler = none
  alone : s.removals.length ≤ 1

lemma flagInv_initialState (installed : List PackId) : FlagInv (initialState installed) where
  button := fun _ => rfl
  busy := fun h => absurd rfl h
  state := fun h => absurd rfl h
  quiet := fun h => absurd rfl h
  handler := fun h => absurd rfl h
  alone := Nat.zero_le _

lemma busy_of_updateButtons (h : (updateButtons s).removeEnabled = true) : s.busy = false := by
  rw [updateButtons, Bool.and_eq_true, Bool.not_eq_true'] at h
  exact h.1

/-- Refreshed buttons fit the flag. -/
lemma FlagInv.updateButtons (hbusy : s.downloader ≠ .idle → s.busy = true)
    (hstate : s.downloader ≠ .idle → s.downloadState.busy = true)
    (hquiet : s.downloader ≠ .idle → Quiet s) (hhandler : s.downloader ≠ .idle → s.handler = none)
    (halone : s.removals.length ≤ 1) : FlagInv (updateButtons s) where
  button := busy_of_updateButtons
  busy := hbusy
  state := hstate
  quiet := hquiet
  handler := hhandler
  alone := halone

lemma FlagInv.refresh {selected : List PackId} (hbusy : s.downloader ≠ .idle → s.busy = true)
    (hstate : s.downloader ≠ .idle → s.downloadState.busy = true)
    (hquiet : s.downloader ≠ .idle → Quiet s) (hhandler : s.downloader ≠ .idle → s.handler = none)
    (halone : s.removals.length ≤ 1) : FlagInv (refresh s selected) := by
  unfold Panel.refresh
  exact .updateButtons hbusy hstate hquiet hhandler halone

lemma FlagInv.syncDownloadState (hstate : s.downloader ≠ .idle → s.downloadState.busy = true)
    (hquiet : s.downloader ≠ .idle → Quiet s) (hhandler : s.downloader ≠ .idle → s.handler = none)
    (halone : s.removals.length ≤ 1) : FlagInv (syncDownloadState s) := by
  unfold Panel.syncDownloadState
  dsimp only
  split
  · exact .refresh hstate hstate hquiet hhandler halone
  · exact .updateButtons hstate hstate hquiet hhandler halone

lemma FlagInv.startDownload (h : FlagInv s) (hhandler : s.handler = none) (hquiet : Quiet s)
    (packIds : List PackId) : FlagInv (startDownload s packIds) := by
  unfold Panel.startDownload
  split
  · exact h
  · exact .syncDownloadState (fun _ => rfl) (fun _ => hquiet) (fun _ => hhandler) h.alone

/-- The main thread goes to another place, when no installation runs. -/
lemma FlagInv.goTo (h : FlagInv s) (hidle : s.downloader = .idle) (pc : Option HandlerPc) :
    FlagInv { s with handler := pc } where
  button := h.button
  busy := h.busy
  state := h.state
  quiet := h.quiet
  handler := fun hdownloader => absurd hidle hdownloader
  alone := h.alone

lemma FlagInv.idle_of_busy (h : FlagInv s) (hbusy : s.busy = false) : s.downloader = .idle := by
  by_contra hdownloader
  rw [h.busy hdownloader] at hbusy
  cases hbusy

lemma FlagInv.idle_of_handler (h : FlagInv s) {pc : HandlerPc} (hpc : s.handler = some pc) :
    s.downloader = .idle := by
  by_contra hdownloader
  rw [h.handler hdownloader] at hpc
  cases hpc

lemma FlagInv.onDownload (h : FlagInv s) (hhandler : s.handler = none)
    (hquiet : s.installed ≠ [] → Quiet s) : FlagInv (onDownload s) := by
  unfold Panel.onDownload
  split
  · exact h
  next hpress =>
  rw [not_or, Bool.not_eq_true] at hpress
  split
  · exact h.goTo (h.idle_of_busy hpress.1) _
  · next hinstalled => exact h.startDownload hhandler (hquiet hinstalled) _

lemma FlagInv.answer (h : FlagInv s) {pc : HandlerPc} (hpc : s.handler = some pc) {yes : Bool}
    (hquiet : yes = true → Quiet s) (ht : answer s yes pc = some t) : FlagInv t := by
  have hidle := h.idle_of_handler hpc
  have hclosed : FlagInv { s with handler := none } := h.goTo hidle none
  cases pc with
  | guardRemoval packIds => cases ht
  | askDownload packIds =>
      cases ht
      cases yes with
      | false => exact hclosed
      | true => exact hclosed.startDownload rfl (hquiet rfl) packIds
  | askRemoval packIds =>
      cases ht
      cases yes with
      | false => exact hclosed
      | true =>
          -- it is the only removal
          have hremovals : s.removals = [] := (hquiet rfl).1
          refine ⟨nofun, ?_, ?_, ?_, ?_, ?_⟩
          · exact fun hdownloader => absurd hidle hdownloader
          · exact fun hdownloader => absurd hidle hdownloader
          · exact fun hdownloader => absurd hidle hdownloader
          · exact fun hdownloader => absurd hidle hdownloader
          · show (s.removals ++ [_]).length ≤ 1
            rw [hremovals]
            exact le_rfl

lemma FlagInv.downloaderStep (h : FlagInv s) (ht : downloaderStep s = some t) : FlagInv t := by
  unfold Panel.downloaderStep at ht
  split at ht
  case h_1 => cases ht
  case h_2 =>
    cases ht
    exact ⟨h.button, fun hd => absurd rfl hd, fun hd => absurd rfl hd, fun hd => absurd rfl hd,
      fun hd => absurd rfl hd, h.alone⟩
  case h_3 hs | h_4 hs =>
    cases ht
    have hdownloader : s.downloader ≠ .idle := by rw [hs]; exact nofun
    exact ⟨h.button, fun _ => h.busy hdownloader, fun _ => h.state hdownloader,
      fun _ => h.quiet hdownloader, fun _ => h.handler hdownloader, h.alone⟩

lemma FlagInv.removalStep (h : FlagInv s) {i : ℕ} {gone : Bool}
    (ht : removalStep s i gone = some t) : FlagInv t := by
  obtain ⟨r, hr, rfl⟩ := Option.map_eq_some_iff.1 ht
  have hidle : s.downloader = .idle := by
    by_contra hdownloader
    rw [(h.quiet hdownloader).1] at hr
    cases hr
  have hset (r' : Removal) : (s.removals.set i r').length ≤ 1 := by
    rw [List.length_set]
    exact h.alone
  have habsurd {p : Prop} (hdownloader : s.downloader ≠ .idle) : p := absurd hidle hdownloader
  split
  case h_1 => exact ⟨h.button, h.busy, h.state, habsurd, h.handler, hset _⟩
  case h_2 => exact ⟨h.button, h.busy, h.state, habsurd, h.handler, hset _⟩
  case h_3 => exact ⟨h.button, h.busy, h.state, habsurd, h.handler, hset _⟩
  case h_4 =>
    exact ⟨h.button, h.busy, h.state, habsurd, h.handler,
      (List.length_eraseIdx_le _ _).trans h.alone⟩

/-- A step keeps the invariant if nothing is started while a removal is under way. -/
lemma FlagInv.panelStep (h : FlagInv s) {a : PanelAction} (ha : StartsQuiet s a)
    (ht : panelStep active s a = some t) : FlagInv t := by
  cases a with
  | select packIds =>
      rw [Panel.panelStep] at ht
      split at ht
      · cases ht; exact .updateButtons h.busy h.state h.quiet h.handler h.alone
      · cases ht
  | pressDownload =>
      rw [Panel.panelStep] at ht
      split at ht
      · next hpress => cases ht; exact h.onDownload hpress.1 ha
      · cases ht
  | pressRemove =>
      rw [Panel.panelStep] at ht
      split at ht
      · next hpress =>
          cases ht
          unfold onRemove
          dsimp only
          split
          · exact h
          · exact h.goTo (h.idle_of_busy (h.button hpress.2)) _
      · cases ht
  | guard =>
      rw [Panel.panelStep] at ht
      split at ht
      · next packIds hpc =>
          cases ht
          unfold guardRemoval
          split
          · exact h.goTo (h.idle_of_handler hpc) _
          · exact h.goTo (h.idle_of_handler hpc) _
      · cases ht
  | answer yes =>
      obtain ⟨pc, hpc, ht⟩ := Option.bind_eq_some_iff.1 ht
      exact h.answer hpc (fun hyes => by rw [hyes] at ha; exact ha) ht
  | tick =>
      rw [Panel.panelStep] at ht
      split at ht
      · cases ht; exact .syncDownloadState h.state h.quiet h.handler h.alone
      · cases ht
  | removeFinished =>
      rw [Panel.panelStep] at ht
      split at ht
      case h_1 => cases ht
      case h_2 packIds posted hposted =>
        split at ht
        · cases ht
          have hidle : s.downloader = .idle := by
            by_contra hdownloader
            rw [(h.quiet hdownloader).2] at hposted
            cases hposted
          exact .refresh (fun hd => absurd hidle hd) h.state (fun hd => absurd hidle hd) h.handler
            h.alone
        · cases ht
  | downloader => exact h.downloaderStep ht
  | swap appears =>
      change swapStep s appears = some t at ht
      unfold swapStep at ht
      split at ht
      · cases ht; exact ⟨h.button, h.busy, h.state, h.quiet, h.handler, h.alone⟩
      · cases ht
  | removal i gone => exact h.removalStep ht

lemma FlagInv.running_le (h : FlagInv s) : running s ≤ 1 := by
  have hremovals : s.removals.countP Removal.inCall ≤ 1 := List.countP_le_length.trans h.alone
  unfold running
  split
  · next hs =>
      have hquiet := h.quiet (by rw [hs]; exact nofun)
      rw [hquiet.1]
      exact le_rfl
  · rwa [Nat.zero_add]
  · rwa [Nat.zero_add]

/-- **No overlap.** In every run in which nothing is started while a removal is under way, no two
calls of `installPack` and `removePacks` run at the same time. -/
theorem running_le_one_of_run (active : Bool) (installed : List PackId) (as : List PanelAction)
    (hrun : run (panelStep active) (initialState installed) as = some s)
    (hquiet : Along (panelStep active) StartsQuiet (initialState installed) as) : running s ≤ 1 :=
  (run_invariant_along (fun _ _ _ h ha ht => h.panelStep ha ht) (flagInv_initialState installed)
    hquiet hrun).running_le

/-- A pack is removed, and then a download is started. -/
def removedThenDownloaded : List PanelAction :=
  [PanelAction.pressRemove, .guard, .answer true] ++
    List.replicate 4 (PanelAction.removal 0 true) ++
    [PanelAction.removeFinished, .pressDownload, .downloader]

theorem running_le_one_removedThenDownloaded :
    ∃ s, run (panelStep true) (initialState PACKS) removedThenDownloaded = some s ∧
      s.installed = [.northAmerica] ∧ s.downloader = .installing .europe [] ∧ running s ≤ 1 := by
  have hstate : (run (panelStep true) (initialState PACKS) removedThenDownloaded).map
      (fun s => (s.installed, s.downloader)) = some ([.northAmerica], .installing .europe []) := by
    decide +kernel
  obtain ⟨s, hs, heq⟩ := Option.map_eq_some_iff.1 hstate
  obtain ⟨hinstalled, hdownloader⟩ := Prod.ext_iff.1 heq
  exact ⟨s, hs, hinstalled, hdownloader,
    running_le_one_of_run true PACKS removedThenDownloaded hs (by decide +kernel)⟩

/-- The timer fires while a removal runs, and another one is started. -/
def removedTwice : List PanelAction :=
  [.pressRemove, .guard, .answer true, .removal 0 true, .tick, .select [.northAmerica],
    .pressRemove, .guard, .answer true, .removal 1 true]

theorem not_running_le_one_removedTwice :
    ¬ ∀ (active : Bool) (installed : List PackId) (as : List PanelAction) (s : PanelState),
      run (panelStep active) (initialState installed) as = some s → running s ≤ 1 := by
  intro h
  have hstate : (run (panelStep true) (initialState PACKS) removedTwice).map running = some 2 := by
    decide +kernel
  obtain ⟨s, hs, hrunning⟩ := Option.map_eq_some_iff.1 hstate
  exact absurd (h true PACKS removedTwice s hs) (by rw [hrunning]; decide)

/-! ### The guard -/

/-- The step is neither one of a download nor starts one. -/
def PanelAction.OfRemoval : PanelAction → Prop
  | .pressDownload | .downloader | .swap _ => False
  | .select _ | .pressRemove | .guard | .answer _ | .tick | .removeFinished | .removal _ _ => True

instance : (a : PanelAction) → Decidable a.OfRemoval
  | .pressDownload | .downloader | .swap _ => .isFalse id
  | .select _ | .pressRemove | .guard | .answer _ | .tick | .removeFinished | .removal _ _ =>
      .isTrue trivial

/-- The packs that the thread is still to delete. -/
def Removal.doomed (r : Removal) : List PackId :=
  match r.pc with
  | .starting => r.packIds
  | .removing rest => rest
  | .returned => []

/-- The packs that are still to be deleted. -/
def doomed (s : PanelState) : List PackId := s.removals.flatMap Removal.doomed

/-- The packs about which `onRemove` is to decide. -/
def guarded? : Option HandlerPc → Option (List PackId)
  | some (.guardRemoval packIds) => some packIds
  | _ => none

/-- When the guard of `onRemove` lets a removal pass, not all the packs that it counts on are still
to be deleted by earlier ones. -/
def GuardCounts (s : PanelState) : PanelAction → Prop
  | .guard => ∀ packIds ∈ guarded? s.handler, remaining s packIds ≠ [] →
      ∃ p ∈ remaining s packIds, p ∉ doomed s
  | _ => True

instance (s : PanelState) : (a : PanelAction) → Decidable (GuardCounts s a)
  | .guard => inferInstanceAs (Decidable (∀ packIds ∈ guarded? s.handler, _ → _))
  | .select _ | .pressDownload | .pressRemove | .answer _ | .tick | .removeFinished | .downloader
  | .swap _ | .removal _ _ => .isTrue trivial

/-- Some pack stays, also after the removal that is being asked about. -/
structure KeptInv (s : PanelState) : Prop where
  kept : ∃ p ∈ s.installed, p ∉ doomed s
  asked : ∀ packIds, s.handler = some (.askRemoval packIds) →
    ∃ p ∈ s.installed, p ∉ doomed s ∧ p ∉ packIds

lemma keptInv_initialState {installed : List PackId} (h : installed ≠ []) :
    KeptInv (initialState installed) where
  kept := by
    obtain ⟨p, rest, rfl⟩ := List.exists_cons_of_ne_nil h
    exact ⟨p, List.mem_cons_self, nofun⟩
  asked := nofun

/-- A step that leaves the packs and the removals alone. -/
lemma KeptInv.of_same (h : KeptInv s) (hinstalled : t.installed = s.installed)
    (hremovals : t.removals = s.removals)
    (hhandler : ∀ packIds, t.handler = some (.askRemoval packIds) → t.handler = s.handler) :
    KeptInv t where
  kept := by
    rw [doomed, hremovals, hinstalled]
    exact h.kept
  asked := fun packIds hpackIds => by
    rw [doomed, hremovals, hinstalled]
    exact h.asked packIds (hhandler packIds hpackIds ▸ hpackIds)

lemma KeptInv.syncDownloadState (h : KeptInv s) : KeptInv (syncDownloadState s) := by
  unfold Panel.syncDownloadState
  dsimp only
  split
  · exact h.of_same rfl rfl fun _ _ => rfl
  · exact h.of_same rfl rfl fun _ _ => rfl

lemma KeptInv.startDownload (h : KeptInv s) (packIds : List PackId) :
    KeptInv (startDownload s packIds) := by
  unfold Panel.startDownload
  split
  · exact h
  · refine KeptInv.syncDownloadState ?_
    exact h.of_same rfl rfl fun _ _ => rfl

lemma KeptInv.guardRemoval (h : KeptInv s) {packIds : List PackId}
    (hcounts : remaining s packIds ≠ [] → ∃ p ∈ remaining s packIds, p ∉ doomed s) :
    KeptInv (guardRemoval true s packIds) := by
  unfold Panel.guardRemoval
  split
  · exact h.of_same rfl rfl nofun
  · next hguard =>
      refine ⟨h.kept, fun packIds' hpackIds => ?_⟩
      cases hpackIds
      obtain ⟨p, hp, hdoomed⟩ := hcounts fun hnil => hguard ⟨rfl, hnil⟩
      obtain ⟨hinstalled, hkept⟩ := List.mem_filter.1 hp
      exact ⟨p, hinstalled, hdoomed, of_decide_eq_true hkept⟩

lemma KeptInv.answer (h : KeptInv s) {pc : HandlerPc} (hpc : s.handler = some pc) {yes : Bool}
    (ht : answer s yes pc = some t) : KeptInv t := by
  have hclosed : KeptInv { s with handler := none } := h.of_same rfl rfl nofun
  cases pc with
  | guardRemoval packIds => cases ht
  | askDownload packIds =>
      cases ht
      cases yes with
      | false => exact hclosed
      | true => exact hclosed.startDownload packIds
  | askRemoval packIds =>
      cases ht
      cases yes with
      | false => exact hclosed
      | true =>
          obtain ⟨p, hinstalled, hdoomed, hkept⟩ := h.asked packIds hpc
          refine ⟨⟨p, hinstalled, fun hmem => ?_⟩, nofun⟩
          obtain ⟨r, hr, hp⟩ := List.mem_flatMap.1 hmem
          rcases List.mem_append.1 hr with hr | hr
          · exact hdoomed (List.mem_flatMap.2 ⟨r, hr, hp⟩)
          · rw [List.mem_singleton.1 hr] at hp
            exact hkept hp

/-- A removal deletes only what it is to delete. -/
lemma mem_of_removalStep {i : ℕ} {gone : Bool} (ht : removalStep s i gone = some t) {p : PackId}
    (hinstalled : p ∈ s.installed) (hdoomed : p ∉ doomed s) :
    p ∈ t.installed ∧ p ∉ doomed t := by
  obtain ⟨r, hr, rfl⟩ := Option.map_eq_some_iff.1 ht
  have hr := List.mem_of_getElem? hr
  have hnot : ∀ r' ∈ s.removals, p ∉ r'.doomed :=
    fun r' hr' hp => hdoomed (List.mem_flatMap.2 ⟨r', hr', hp⟩)
  have hset {r' : Removal} (hr' : p ∉ r'.doomed) :
      p ∉ (s.removals.set i r').flatMap Removal.doomed := by
    intro hmem
    obtain ⟨r'', hr'', hp⟩ := List.mem_flatMap.1 hmem
    rcases List.mem_or_eq_of_mem_set hr'' with hr'' | rfl
    · exact hnot r'' hr'' hp
    · exact hr' hp
  have hdoomedr := hnot r hr
  rcases r with ⟨packIds, pc⟩
  cases pc with
  | starting => exact ⟨hinstalled, hset hdoomedr⟩
  | removing rest =>
      cases rest with
      | nil => exact ⟨hinstalled, hset nofun⟩
      | cons packId rest =>
          have hne : p ≠ packId ∧ p ∉ rest := by
            rw [← not_or, ← List.mem_cons]
            exact hdoomedr
          refine ⟨?_, hset hne.2⟩
          cases gone with
          | false => exact hinstalled
          | true => exact List.mem_filter.2 ⟨hinstalled, decide_eq_true hne.1⟩
  | returned =>
      refine ⟨hinstalled, fun hmem => ?_⟩
      obtain ⟨r', hr', hp⟩ := List.mem_flatMap.1 hmem
      exact hnot r' (List.mem_of_mem_eraseIdx hr') hp

lemma KeptInv.removalStep (h : KeptInv s) {i : ℕ} {gone : Bool}
    (ht : removalStep s i gone = some t) : KeptInv t := by
  have hhandler : t.handler = s.handler := by
    obtain ⟨r, hr, rfl⟩ := Option.map_eq_some_iff.1 ht
    split <;> rfl
  refine ⟨?_, fun packIds hpackIds => ?_⟩
  · obtain ⟨p, hinstalled, hdoomed⟩ := h.kept
    exact ⟨p, mem_of_removalStep ht hinstalled hdoomed⟩
  · obtain ⟨p, hinstalled, hdoomed, hkept⟩ := h.asked packIds (hhandler ▸ hpackIds)
    have hmem := mem_of_removalStep ht hinstalled hdoomed
    exact ⟨p, hmem.1, hmem.2, hkept⟩

lemma KeptInv.panelStep (h : KeptInv s) {a : PanelAction} (ha : a.OfRemoval)
    (hcounts : GuardCounts s a) (ht : panelStep true s a = some t) : KeptInv t := by
  cases a with
  | select packIds =>
      rw [Panel.panelStep] at ht
      split at ht
      · cases ht; exact h.of_same rfl rfl fun _ _ => rfl
      · cases ht
  | pressDownload => exact ha.elim
  | pressRemove =>
      rw [Panel.panelStep] at ht
      split at ht
      · cases ht
        unfold onRemove
        dsimp only
        split
        · exact h
        · exact h.of_same rfl rfl nofun
      · cases ht
  | guard =>
      rw [Panel.panelStep] at ht
      split at ht
      · next packIds hpc => cases ht; exact h.guardRemoval (hcounts packIds (by rw [hpc]; rfl))
      · cases ht
  | answer yes =>
      obtain ⟨pc, hpc, ht⟩ := Option.bind_eq_some_iff.1 ht
      exact h.answer hpc ht
  | tick =>
      rw [Panel.panelStep] at ht
      split at ht
      · cases ht; exact h.syncDownloadState
      · cases ht
  | removeFinished =>
      rw [Panel.panelStep] at ht
      split at ht
      case h_1 => cases ht
      case h_2 =>
        split at ht
        · cases ht; exact h.of_same rfl rfl fun _ _ => rfl
        · cases ht
  | downloader => exact ha.elim
  | swap appears => exact ha.elim
  | removal i gone => exact h.removalStep ht

/-- **The last pack stays.** With Samsung TV Voices active, in every run of removals in which the
guard of `onRemove` never counts only on packs that are still to be deleted, some pack stays. -/
theorem installed_ne_nil_of_run {installed : List PackId} (hinstalled : installed ≠ [])
    (as : List PanelAction) (hremoval : ∀ a ∈ as, a.OfRemoval)
    (hrun : run (panelStep true) (initialState installed) as = some s)
    (hcounts : Along (panelStep true) GuardCounts (initialState installed) as) :
    s.installed ≠ [] := by
  have halong := (along_of_forall hremoval (initialState installed)).and hcounts
  have hinv : KeptInv s :=
    run_invariant_along (fun _ _ _ h ha ht => h.panelStep ha.1 ha.2 ht)
      (keptInv_initialState hinstalled) halong hrun
  obtain ⟨p, hp, -⟩ := hinv.kept
  exact List.ne_nil_of_mem hp

/-- One pack is removed, and the guard keeps the other. -/
def removedThenRefused : List PanelAction :=
  [PanelAction.pressRemove, .guard, .answer true] ++
    List.replicate 4 (PanelAction.removal 0 true) ++
    [PanelAction.removeFinished, .select [.northAmerica], .pressRemove, .guard]

theorem installed_ne_nil_removedThenRefused :
    ∃ s, run (panelStep true) (initialState PACKS) removedThenRefused = some s ∧
      s.handler = none ∧ s.installed ≠ [] := by
  have hstate : (run (panelStep true) (initialState PACKS) removedThenRefused).map (·.handler) =
      some none := by decide +kernel
  obtain ⟨s, hs, hhandler⟩ := Option.map_eq_some_iff.1 hstate
  exact ⟨s, hs, hhandler, installed_ne_nil_of_run (by decide) removedThenRefused (by decide +kernel)
    hs (by decide +kernel)⟩

/-- Both removals that are started have deleted their pack. -/
def removedBoth : List PanelAction :=
  removedTwice ++ [.removal 0 true, .removal 1 true]

theorem not_installed_ne_nil_removedBoth :
    ¬ ∀ (installed : List PackId) (as : List PanelAction) (s : PanelState), installed ≠ [] →
      (∀ a ∈ as, a.OfRemoval) → run (panelStep true) (initialState installed) as = some s →
        s.installed ≠ [] := by
  intro h
  have hstate : (run (panelStep true) (initialState PACKS) removedBoth).map (·.installed) =
      some [] := by decide +kernel
  obtain ⟨s, hs, hnil⟩ := Option.map_eq_some_iff.1 hstate
  exact h PACKS removedBoth s (by decide) (by decide +kernel) hs hnil

end SamsungTVVoices.Panel
