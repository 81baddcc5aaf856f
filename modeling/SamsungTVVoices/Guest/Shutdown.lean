/-
How the guest shuts down (`main`, `synthesisWorker`).

`main` stores `shuttingDown` and calls `notify_all` without `jobMutex`, so all of that can happen
after the worker has found the predicate of its wait false and before it sleeps.  Then `main`
waits in `join` for a worker that nothing wakes.  This is the only way to that state: what counts
is where the worker is at the last `notify_all` (`no_deadlock_iff`).
-/
import SamsungTVVoices.Guest.Machine
import SamsungTVVoices.Lib.StepSystem

open StepSystem

namespace SamsungTVVoices.Guest

/-- `main` is in `join`, and the worker is asleep in its wait. -/
def GuestState.Deadlocked (s : GuestState) : Prop := s.reader = .join ∧ s.worker = .asleep

instance (s : GuestState) : Decidable s.Deadlocked := inferInstanceAs (Decidable (_ ∧ _))

/-- At the last `notify_all`, the worker is not between the predicate of its wait and the sleep. -/
def NotifiedAwake (s : GuestState) : GuestAction → Prop
  | .reader => s.reader = .shutNotify → s.worker ≠ .sleepy
  | _ => True

instance (s : GuestState) : (a : GuestAction) → Decidable (NotifiedAwake s a)
  | .reader => inferInstanceAs (Decidable (_ → _))
  | .receive _ => .isTrue trivial
  | .worker => .isTrue trivial
  | .outside _ => .isTrue trivial

/-- From there, only a wait that ends without a notification leads on. -/
theorem GuestState.Deadlocked.stuck {s t : GuestState} {a : GuestAction} (hs : s.Deadlocked)
    (h : guestStep s a = some t) : a = .outside .wake := by
  obtain ⟨hjoin, hasleep⟩ := hs
  cases a with
  | receive incoming => simp [guestStep, hjoin] at h
  | reader => simp [guestStep, readerStep, hjoin, hasleep] at h
  | worker => simp [guestStep, workerStep, hasleep] at h
  | outside o =>
      cases o with
      | wake => rfl
      | _ => simp [guestStep, outsideStep, hasleep] at h

/-! ### Where `shuttingDown` is set -/

/-- `main` has stored `shuttingDown` for the second time. -/
def ReaderPc.Closing : ReaderPc → Prop
  | .shutLoad | .cancelLoad .shutdown _ | .cancelStore .shutdown _ _ | .cancelSend .shutdown _ _
  | .shutNotify | .join | .exited => True
  | _ => False

/-- While `main` closes down, `shuttingDown` is set. -/
def ClosesDown (s : GuestState) : Prop := s.reader.Closing → s.shuttingDown = true

variable {s t : GuestState} {o : Option Outside}

lemma notify_shuttingDown (s : GuestState) : s.notify.shuttingDown = s.shuttingDown := by
  rw [GuestState.notify]
  split <;> rfl

/-- Where the reader goes after a cancel is closing down only if it was before. -/
lemma closesDown_afterCancel {site : CancelSite} (generation : UInt32)
    (h : site = .shutdown → s.shuttingDown = true) :
    ClosesDown (afterCancel s generation site) := by
  cases site with
  | frame => exact nofun
  | quit => exact nofun
  | shutdown => exact fun _ => h rfl

lemma closesDown_readerStep (hs : ClosesDown s) (h : readerStep s = some t) : ClosesDown t := by
  -- where the reader was closing down already, the step keeps the flag
  have hkept : s.reader.Closing → t.shuttingDown = s.shuttingDown → ClosesDown t :=
    fun hclosing hflag _ => hflag.trans (hs hclosing)
  unfold readerStep at h
  split at h
  case h_1 =>
    cases h
    rw [ClosesDown]
    split <;> exact nofun
  case h_2 => cases h
  case h_3 => cases h; exact nofun
  case h_4 =>
    split at h
    · cases h
    · cases h; exact nofun
  case h_5 => cases h; exact nofun
  case h_6 site generation hpc =>
    have hsite : site = .shutdown → s.shuttingDown = true := by
      rintro rfl
      exact hs (by rw [hpc]; trivial)
    split at h
    · cases h; exact closesDown_afterCancel generation hsite
    · cases h
      cases site with
      | shutdown => exact fun _ => hsite rfl
      | _ => exact nofun
  case h_7 site generation request hpc =>
    cases h
    cases site with
    | shutdown => exact hkept (by rw [hpc]; trivial) rfl
    | _ => exact nofun
  case h_8 site generation request hpc =>
    cases h
    refine closesDown_afterCancel generation ?_
    rintro rfl
    exact hs (by rw [hpc]; trivial)
  case h_9 => cases h; exact nofun
  case h_10 => cases h; exact nofun
  case h_11 => cases h; exact nofun
  case h_12 => cases h; exact fun _ => rfl
  case h_13 hpc => cases h; exact hkept (by rw [hpc]; trivial) rfl
  case h_14 hpc => cases h; exact hkept (by rw [hpc]; trivial) (notify_shuttingDown s)
  case h_15 hpc =>
    split at h
    · cases h; exact hkept (by rw [hpc]; trivial) rfl
    · cases h
  case h_16 => cases h

/-- Only the reader touches `shuttingDown`. -/
lemma WorkerMove.shuttingDown_eq (h : WorkerMove s o t) : t.shuttingDown = s.shuttingDown := by
  cases h <;> rfl

lemma WorkerMove.closesDown (h : WorkerMove s o t) (hs : ClosesDown s) : ClosesDown t := by
  rw [ClosesDown, h.shuttingDown_eq, h.reader.1]
  exact hs

/-- What is read only takes `main` to where it begins to close down. -/
lemma not_closing_of_receive {incoming : Incoming} (h : receive s incoming = some t) :
    ¬ t.reader.Closing := by
  cases receiveMove h with
  | pass pc hpc =>
      rcases hpc with rfl | rfl | rfl | ⟨generation, rfl⟩ <;> exact id
  | speak generation options text => exact id
  | cancel generation => exact id

lemma closesDown_guestStep {a : GuestAction} (hs : ClosesDown s) (h : guestStep s a = some t) :
    ClosesDown t := by
  cases a with
  | receive incoming =>
      rw [guestStep] at h
      split at h
      · exact fun hclosing => absurd hclosing (not_closing_of_receive h)
      · cases h
  | reader => exact closesDown_readerStep hs h
  | worker => exact (workerMove_workerStep h).closesDown hs
  | outside o => exact (workerMove_outsideStep h).closesDown hs

/-! ### Falling asleep behind the last notification -/

/-- If `main` is in `join`, the worker neither sleeps nor is about to. -/
def JoinsAwake (s : GuestState) : Prop :=
  s.reader = .join → s.worker ≠ .asleep ∧ s.worker ≠ .sleepy

/-- The worker falls asleep only right after its predicate was false. -/
lemma WorkerMove.sleepy_of_asleep (h : WorkerMove s o t) (ht : t.worker = .asleep) :
    s.worker = .sleepy := by
  cases h with
  | idle pc synth hidle =>
      obtain rfl : pc = .asleep := ht
      generalize s.worker = old at hidle ⊢
      cases hidle
      rfl
  | _ => cases ht

/-- Going to sleep behind the last notification is one step from the deadlock. -/
lemma joinsAwake_iff : JoinsAwake s ↔
    ¬ s.Deadlocked ∧ ∀ t, workerStep s = some t → ¬ t.Deadlocked := by
  constructor
  · intro hs
    refine ⟨fun hdead => (hs hdead.1).1 hdead.2, fun t ht hdead => ?_⟩
    have hmove := workerMove_workerStep ht
    have hjoin : s.reader = .join := hmove.reader.1.symm.trans hdead.1
    exact (hs hjoin).2 (hmove.sleepy_of_asleep hdead.2)
  · rintro ⟨hs, hnext⟩ hjoin
    refine ⟨fun hasleep => hs ⟨hjoin, hasleep⟩, fun hsleepy => ?_⟩
    have hstep : workerStep s = some { s with worker := .asleep } := by
      rw [workerStep, hsleepy]
    exact hnext _ hstep ⟨hjoin, rfl⟩

lemma WorkerMove.predicate_of_sleepy (h : WorkerMove s o t) (ht : t.worker = .sleepy) :
    s.worker = .predicate := by
  cases h with
  | idle pc synth hidle =>
      obtain rfl : pc = .sleepy := ht
      generalize s.worker = old at hidle ⊢
      cases hidle
      rfl
  | _ => cases ht

/-- The predicate is not false any more once `shuttingDown` is set. -/
lemma ne_sleepy_of_workerStep (h : workerStep s = some t) (hflag : s.shuttingDown = true) :
    t.worker ≠ .sleepy := by
  intro ht
  have hpc := (workerMove_workerStep h).predicate_of_sleepy ht
  rw [workerStep, hpc] at h
  cases h
  simp [hflag] at ht

lemma ne_sleepy_of_outsideStep {o : Outside} (h : outsideStep s o = some t) :
    t.worker ≠ .sleepy := by
  intro ht
  have hpc := (workerMove_outsideStep h).predicate_of_sleepy ht
  simp [outsideStep, hpc] at h

/-- Once `main` is in `join`, a worker that is awake does not fall asleep any more. -/
lemma WorkerMove.joinsAwake (h : WorkerMove s o t) (hdown : ClosesDown s) (hs : JoinsAwake s)
    (hsleepy : s.shuttingDown = true → t.worker ≠ .sleepy) : JoinsAwake t := by
  rw [JoinsAwake, h.reader.1]
  intro hjoin
  refine ⟨fun hasleep => (hs hjoin).2 (h.sleepy_of_asleep hasleep), hsleepy (hdown ?_)⟩
  rw [hjoin]
  trivial

lemma ne_join_of_afterCancel (s : GuestState) (generation : UInt32) (site : CancelSite) :
    (afterCancel s generation site).reader ≠ .join := by
  cases site <;> exact nofun

/-- The only way into `join` is through the last notification. -/
lemma shutNotify_of_join (h : readerStep s = some t) (ht : t.reader = .join) :
    s.reader = .shutNotify := by
  unfold readerStep at h
  split at h
  case h_14 hpc => exact hpc
  case h_1 =>
    cases h
    dsimp only at ht
    split at ht <;> cases ht
  case h_6 site generation hpc =>
    split at h
    · cases h; exact absurd ht (ne_join_of_afterCancel s generation site)
    · cases h; cases ht
  case h_8 site generation request hpc =>
    cases h; exact absurd ht (ne_join_of_afterCancel _ generation site)
  case h_4 => split at h <;> cases h; cases ht
  case h_15 => split at h <;> cases h; cases ht
  all_goals cases h
  all_goals cases ht

lemma joinsAwake_readerStep (h : readerStep s = some t) :
    JoinsAwake t ↔ NotifiedAwake s .reader := by
  constructor
  · intro ht hpc hsleepy
    rw [readerStep, hpc] at h
    cases h
    have hworker : s.notify.worker = .sleepy := by
      rw [GuestState.notify, hsleepy]
      exact hsleepy
    exact (ht rfl).2 hworker
  · intro hawake hjoin
    have hpc := shutNotify_of_join h hjoin
    rw [readerStep, hpc] at h
    cases h
    show s.notify.worker ≠ .asleep ∧ s.notify.worker ≠ .sleepy
    rw [GuestState.notify]
    split
    · exact ⟨by rintro ⟨⟩, by rintro ⟨⟩⟩
    · next hne => exact ⟨hne, hawake hpc⟩

/-- **Shutdown.** No state of a run has `main` in `join` and the worker asleep, or one step from
there, exactly if the worker is not between its predicate and the sleep at the last
`notify_all`. -/
theorem no_deadlock_iff (as : List GuestAction) (hrun : run guestStep initialState as = some t) :
    (∀ done u, done <+: as → run guestStep initialState done = some u →
      ¬ u.Deadlocked ∧ ∀ v, workerStep u = some v → ¬ v.Deadlocked) ↔
    Along guestStep NotifiedAwake initialState as := by
  simp only [← joinsAwake_iff]
  refine forall_prefix_iff_along (K := ClosesDown) (fun _ _ _ => closesDown_guestStep)
    (fun s a t hdown hs h => ?_) nofun nofun hrun
  cases a with
  | receive incoming =>
      refine iff_of_true (fun hjoin => ?_) trivial
      rw [guestStep] at h
      split at h
      · exact absurd (by rw [hjoin]; trivial) (not_closing_of_receive h)
      · cases h
  | reader => exact joinsAwake_readerStep h
  | worker => exact iff_of_true ((workerMove_workerStep h).joinsAwake hdown hs
      (ne_sleepy_of_workerStep h)) trivial
  | outside o => exact iff_of_true ((workerMove_outsideStep h).joinsAwake hdown hs
      fun _ => ne_sleepy_of_outsideStep h) trivial

/-- The channel closes while the worker waits for its first job. -/
def closedWhileAsleep : List GuestAction :=
  [.worker, .worker, .worker, .reader, .receive .closed] ++ List.replicate 6 GuestAction.reader ++
    [GuestAction.worker, .worker, .reader]

theorem no_deadlock_closedWhileAsleep : ∃ s,
    run guestStep initialState closedWhileAsleep = some s ∧ s.reader = .exited ∧
      ∀ done u, done <+: closedWhileAsleep → run guestStep initialState done = some u →
        ¬ u.Deadlocked ∧ ∀ v, workerStep u = some v → ¬ v.Deadlocked := by
  have hsome : ∃ s ∈ run guestStep initialState closedWhileAsleep, s.reader = .exited := by
    decide +kernel
  obtain ⟨s, hs, hexited⟩ := hsome
  exact ⟨s, hs, hexited, (no_deadlock_iff closedWhileAsleep hs).2 (by decide +kernel)⟩

/-- The channel closes while the worker is about to sleep. -/
def closedBeforeSleep : List GuestAction :=
  [.worker, .worker, .reader, .receive .closed] ++ List.replicate 6 GuestAction.reader ++
    [GuestAction.worker]

lemma deadlocked_closedBeforeSleep :
    ∃ s ∈ run guestStep initialState closedBeforeSleep, s.Deadlocked := by
  decide +kernel

/-- `main` gets into `join` before the worker sleeps. -/
theorem not_no_deadlock : ¬ ∀ (as : List GuestAction) (s : GuestState),
    run guestStep initialState as = some s → ¬ s.Deadlocked := by
  intro h
  obtain ⟨s, hs, hdead⟩ := deadlocked_closedBeforeSleep
  exact h closedBeforeSleep s hs hdead

end SamsungTVVoices.Guest
