/-
The timer of the update checks (`_samsungTVUpdater.py`, `SignedWebUpdater.start`, `stop`,
`setInterval`, `_schedule`, `_automaticCheck`, `checkNow`, and the end of `_checkWorker`).

The main thread runs one call after the other.  `core.callLater` returns a timer of its own that
calls `_automaticCheck` once, unless it is stopped first; `_timer` is only the last one that
`_schedule` has made.  A check thread ends in two steps: it releases the lock, and it posts
`_schedule` to the main thread.
-/
import SamsungTVVoices.Lib.StepSystem

open StepSystem

namespace SamsungTVVoices.Updater

/-! ### The state -/

inductive Interval where
  | never | hourly | daily
deriving DecidableEq, Repr

/-- A timer that `core.callLater` has returned. -/
structure Timer where
  id : ℕ
  /-- In milliseconds. -/
  delay : ℕ
deriving DecidableEq, Repr

structure UpdaterState where
  /-- The timers that have neither fired nor been stopped. -/
  timers : List Timer
  /-- How many timers have been made. -/
  made : ℕ
  /-- `_timer` -/
  timer : Option Timer
  stopped : Bool
  interval : Interval
  /-- `_lock` is held: a check runs. -/
  checking : Bool
  /-- How many check threads have released the lock and not posted `_schedule` yet. -/
  ending : ℕ
  /-- How many calls of `_schedule` have been posted. -/
  posted : ℕ
deriving DecidableEq, Repr

def initialState (interval : Interval) : UpdaterState where
  timers := []
  made := 0
  timer := none
  stopped := false
  interval := interval
  checking := false
  ending := 0
  posted := 0

/-! ### The calls -/

/-- The delay that `_schedule` passes to `core.callLater`, or none if it returns at once. -/
def scheduleDelay (s : UpdaterState) : Option ℕ :=
  if s.stopped then none
  else match s.interval with
    | .never => none
    | .hourly => some 3600000
    | .daily => some 86400000

/-- `_schedule` -/
def schedule (s : UpdaterState) : UpdaterState :=
  match scheduleDelay s with
  | none => s
  -- the timer that `_timer` holds is not stopped here
  | some delay => { s with
      timers := s.timers ++ [⟨s.made, delay⟩]
      made := s.made + 1
      timer := some ⟨s.made, delay⟩ }

/-- `if self._timer is not None: self._timer.Stop(); self._timer = None` -/
def stopTimer (s : UpdaterState) : UpdaterState :=
  match s.timer with
  | none => s
  | some timer => { s with timers := s.timers.filter (· ≠ timer), timer := none }

/-- `stop` -/
def stop (s : UpdaterState) : UpdaterState := stopTimer { s with stopped := true }

/-- `setInterval` -/
def setInterval (s : UpdaterState) (interval : Interval) : UpdaterState :=
  schedule (stopTimer { s with interval := interval })

/-- `checkNow`, apart from what it tells the user. -/
def checkNow (s : UpdaterState) : UpdaterState :=
  if s.checking then s else { s with checking := true }

/-- A timer fires: `_automaticCheck`. -/
def automaticCheck (s : UpdaterState) (timer : Timer) : UpdaterState :=
  checkNow { s with timers := s.timers.filter (· ≠ timer), timer := none }

/-! ### The steps -/

inductive UpdaterAction where
  | start
  | stop
  | setInterval (interval : Interval)
  /-- The user asks for a check. -/
  | checkNow
  | fire (timer : Timer)
  /-- A check thread releases the lock. -/
  | release
  /-- A check thread posts `_schedule`. -/
  | post
  /-- The main thread runs a `_schedule` that was posted. -/
  | schedule
deriving DecidableEq, Repr

def updaterStep (s : UpdaterState) : UpdaterAction → Option UpdaterState
  | .start => some (schedule s)
  | .stop => some (stop s)
  | .setInterval interval => some (setInterval s interval)
  | .checkNow => some (checkNow s)
  | .fire timer => if timer ∈ s.timers then some (automaticCheck s timer) else none
  | .release =>
      if s.checking then some { s with checking := false, ending := s.ending + 1 } else none
  | .post =>
      if 0 < s.ending then some { s with ending := s.ending - 1, posted := s.posted + 1 } else none
  | .schedule => if 0 < s.posted then some (schedule { s with posted := s.posted - 1 }) else none

/-! ### One timer -/

/-- There is one timer at most, and none when no automatic check is to start. -/
structure OneTimer (s : UpdaterState) : Prop where
  one : s.timers.length ≤ 1
  stopped : s.stopped = true → s.timers = []
  never : s.interval = .never → s.checking = false → s.timers = []
  /-- No automatic check starts then. -/
  quiet : s.stopped = true ∨ s.interval = .never ∧ s.checking = false →
    ∀ timer, updaterStep s (.fire timer) = none

/-- `start` and a posted `_schedule` make a timer only if `_timer` is none. -/
def SchedulesFree (s : UpdaterState) : UpdaterAction → Prop
  | .start | .schedule => scheduleDelay s = none ∨ s.timer = none
  | _ => True

instance (s : UpdaterState) : (a : UpdaterAction) → Decidable (SchedulesFree s a)
  | .start | .schedule => inferInstanceAs (Decidable (_ ∨ _))
  | .stop | .setInterval _ | .checkNow | .fire _ | .release | .post => .isTrue trivial

/-- `_timer` is the only timer. -/
structure TimerInv (s : UpdaterState) : Prop where
  timers : s.timers = s.timer.toList
  idle : scheduleDelay s = none → s.timer = none

variable {s t : UpdaterState}

lemma timerInv_initialState (interval : Interval) : TimerInv (initialState interval) where
  timers := rfl
  idle := fun _ => rfl

@[simp] lemma scheduleDelay_stopTimer (s : UpdaterState) :
    scheduleDelay (stopTimer s) = scheduleDelay s := by
  unfold stopTimer
  split <;> rfl

@[simp] lemma timer_stopTimer (s : UpdaterState) : (stopTimer s).timer = none := by
  unfold stopTimer
  split
  · assumption
  · rfl

lemma timers_stopTimer (h : s.timers = s.timer.toList) : (stopTimer s).timers = [] := by
  unfold stopTimer
  split
  · next hnone => rw [h, hnone]; rfl
  · next timer hsome => simp [h, hsome]

lemma timerInv_schedule (h : s.timers = s.timer.toList)
    (hfree : scheduleDelay s = none → s.timer = none)
    (hnone : scheduleDelay s = none ∨ s.timer = none) : TimerInv (schedule s) := by
  have htimer : s.timer = none := hnone.elim hfree id
  unfold schedule
  split
  · exact ⟨h, hfree⟩
  · next delay hdelay =>
      refine ⟨by rw [h, htimer]; rfl, fun hidle => ?_⟩
      -- the new timer does not change what the next `_schedule` would do
      have hsome : scheduleDelay s = none := hidle
      rw [hdelay] at hsome
      cases hsome

lemma timerInv_stopTimer (h : s.timers = s.timer.toList) : TimerInv (stopTimer s) where
  timers := by rw [timers_stopTimer h, timer_stopTimer]; rfl
  idle := fun _ => timer_stopTimer s

lemma TimerInv.checkNow (h : TimerInv s) : TimerInv (checkNow s) := by
  unfold Updater.checkNow
  split
  · exact h
  · exact ⟨h.timers, h.idle⟩

lemma TimerInv.automaticCheck (h : TimerInv s) {timer : Timer} (hmem : timer ∈ s.timers) :
    TimerInv (automaticCheck s timer) := by
  have htimer : s.timer = some timer := by
    rw [h.timers, Option.mem_toList] at hmem
    exact hmem
  refine TimerInv.checkNow ⟨?_, fun _ => rfl⟩
  simp [h.timers, htimer]

/-- A step keeps the invariant if `_schedule` finds no timer. -/
lemma TimerInv.updaterStep (h : TimerInv s) {a : UpdaterAction} (ha : SchedulesFree s a)
    (ht : updaterStep s a = some t) : TimerInv t := by
  cases a with
  | start => cases ht; exact timerInv_schedule h.timers h.idle ha
  | stop => cases ht; exact timerInv_stopTimer (s := { s with stopped := true }) h.timers
  | setInterval interval =>
      cases ht
      have hstop : TimerInv (stopTimer { s with interval := interval }) :=
        timerInv_stopTimer (s := { s with interval := interval }) h.timers
      exact timerInv_schedule hstop.timers hstop.idle (Or.inr (timer_stopTimer _))
  | checkNow => cases ht; exact h.checkNow
  | fire timer =>
      rw [Updater.updaterStep] at ht
      split at ht
      · next hmem => cases ht; exact h.automaticCheck hmem
      · cases ht
  | release =>
      rw [Updater.updaterStep] at ht
      split at ht
      · cases ht; exact ⟨h.timers, h.idle⟩
      · cases ht
  | post =>
      rw [Updater.updaterStep] at ht
      split at ht
      · cases ht; exact ⟨h.timers, h.idle⟩
      · cases ht
  | schedule =>
      rw [Updater.updaterStep] at ht
      split at ht
      · cases ht; exact timerInv_schedule h.timers h.idle ha
      · cases ht

lemma scheduleDelay_of_quiet (h : s.stopped = true ∨ s.interval = .never) :
    scheduleDelay s = none := by
  unfold scheduleDelay
  rcases h with h | h
  · rw [if_pos h]
  · rw [h]
    split <;> rfl

lemma TimerInv.oneTimer (h : TimerInv s) : OneTimer s := by
  have hnone (hquiet : s.stopped = true ∨ s.interval = .never) : s.timers = [] := by
    rw [h.timers, h.idle (scheduleDelay_of_quiet hquiet)]
    rfl
  refine ⟨?_, fun hstopped => hnone (Or.inl hstopped), fun hnever _ => hnone (Or.inr hnever), ?_⟩
  · rw [h.timers]
    cases s.timer with
    | none => exact Nat.zero_le _
    | some timer => exact Nat.le_refl 1
  · intro hquiet timer
    rw [Updater.updaterStep, hnone (hquiet.imp_right And.left)]
    exact if_neg List.not_mem_nil

/-- **One timer.** In every run in which `start` and a posted `_schedule` make a timer only when
`_timer` is none, there is one timer at most. -/
theorem oneTimer_of_run (interval : Interval) (as : List UpdaterAction)
    (hrun : run updaterStep (initialState interval) as = some s)
    (hfree : Along updaterStep SchedulesFree (initialState interval) as) : OneTimer s :=
  (run_invariant_along (fun _ _ _ h ha ht => h.updaterStep ha ht) (timerInv_initialState interval)
    hfree hrun).oneTimer

/-- An automatic check, and a change of the interval. -/
def checkedThenHourly : List UpdaterAction :=
  [.start, .fire ⟨0, 86400000⟩, .release, .post, .schedule, .setInterval .hourly]

theorem oneTimer_checkedThenHourly :
    ∃ s, run updaterStep (initialState .daily) checkedThenHourly = some s ∧
      s.timers = [⟨2, 3600000⟩] ∧ OneTimer s := by
  have hstate : (run updaterStep (initialState .daily) checkedThenHourly).map (·.timers) =
      some [⟨2, 3600000⟩] := by decide +kernel
  obtain ⟨s, hs, htimers⟩ := Option.map_eq_some_iff.1 hstate
  exact ⟨s, hs, htimers, oneTimer_of_run .daily checkedThenHourly hs (by decide +kernel)⟩

/-- The user asks for a check while the timer runs, and the updater is stopped afterwards. -/
def askedThenStopped : List UpdaterAction :=
  [.start, .checkNow, .release, .post, .schedule, .stop]

theorem not_oneTimer_askedThenStopped :
    ¬ ∀ (interval : Interval) (as : List UpdaterAction) (s : UpdaterState),
      run updaterStep (initialState interval) as = some s → OneTimer s := by
  intro h
  have hstate : (run updaterStep (initialState .daily) askedThenStopped).map
      (fun s => (s.stopped, s.timers)) = some (true, [⟨0, 86400000⟩]) := by decide +kernel
  obtain ⟨s, hs, heq⟩ := Option.map_eq_some_iff.1 hstate
  obtain ⟨hstopped, htimers⟩ := Prod.ext_iff.1 heq
  have hnone := (h .daily askedThenStopped s hs).stopped hstopped
  rw [show s.timers = _ from htimers] at hnone
  cases hnone

end SamsungTVVoices.Updater
