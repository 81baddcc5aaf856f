/-
The calls in the driver: which jobs are in the system, and in which order.

`LineInv` keeps the jobs in the order of the calls, the trace behind them, and says which of them
can be current; `WorkerInv` says what the worker has sent and published for its job.  Every step
keeps both, whatever the helper does.  `P` is what is known of the events that are queued.
-/
import SamsungTVVoices.Driver.Trace

namespace SamsungTVVoices.Driver

variable {settings : Settings} {scaleSample : ℤ → UInt16 → UInt16}
variable {P : SpeechEvent → Prop} {s t : DriverState} {job : Job} {pc pc' : WorkerPc}

/-! ### The job of the worker -/

/-- A silent move keeps the job, or gives up one that is superseded. -/
lemma Silent.job_eq (h : Silent settings scaleSample s pc pc') :
    pc'.job? = pc.job? ∨
      ∃ job, pc.job? = some job ∧ pc'.job? = none ∧ job.generation ≠ s.currentGeneration := by
  cases h with
  | discard job h => exact Or.inr ⟨job, rfl, rfl, isCurrent_eq_false_iff.1 h⟩
  | refuse job h => exact Or.inr ⟨job, rfl, rfl, isCurrent_eq_false_iff.1 h⟩
  | _ => exact Or.inl rfl

lemma Shown.job_eq {e : TraceEvent} (h : Shown pc job e pc') :
    pc.job? = some job ∧ pc'.job? = some job := by
  cases h <;> exact ⟨rfl, rfl⟩

lemma Shown.ne_wait {e : TraceEvent} {j : Job} {rest : List SpeechEvent} {cancelled : Bool}
    {w : WaitPc} (h : Shown pc job e pc') : pc' ≠ .wait j rest cancelled w := by
  cases h <;> exact nofun

lemma Ended.job_eq {rest : List SpeechEvent} {m : Mail} (h : Ended job rest m pc) :
    pc.job? = some job := by
  cases h <;> rfl

/-! ### The calls in the system -/

/-- The main thread is in `cancel`, past the section under the lock. -/
def MainPc.Cancelling : MainPc → Prop
  | .ready | .put _ => False
  | .hostCancel _ | .drain | .playerStop => True

/-- The jobs and the trace are in the order of the calls. -/
structure LineInv (P : SpeechEvent → Prop) (s : DriverState) : Prop where
  generation : s.generation = s.currentGeneration
  /-- Every job in the system is one that a call has made, and not superseded if it is current. -/
  known : ∀ job ∈ line s, ∃ c, s.calls[job.call]? = some c ∧ c.events = job.events ∧
    (job.generation = s.currentGeneration → c.superseded = false)
  sorted : ((line s).map (·.call)).Pairwise (· < ·)
  /-- The trace is behind the jobs. -/
  behind : ∀ e ∈ s.trace, (∀ job ∈ waiting s, e.1 < job.call) ∧
    ∀ job ∈ s.worker.job?, e.1 ≤ job.call
  inOrder : (s.trace.map (·.1)).Pairwise (· ≤ ·)
  bounded : ∀ e ∈ s.trace, e.1 < s.calls.length
  /-- No job is current in `cancel`, and every job in the queue is outside of it. -/
  stale : s.main.Cancelling → ∀ job ∈ line s, job.generation ≠ s.currentGeneration
  current : ¬ s.main.Cancelling → ∀ job ∈ waiting s, job.generation = s.currentGeneration
  empty : s.main = .playerStop → s.jobs = []
  events : ∀ job ∈ waiting s, ∀ e ∈ job.events, P e

lemma LineInv.call_lt (h : LineInv P s) (hjob : job ∈ line s) : job.call < s.calls.length := by
  obtain ⟨c, hc, -⟩ := h.known job hjob
  exact (List.getElem?_eq_some_iff.1 hc).1

/-- The events of a job are those of its call. -/
lemma LineInv.events_eq (h : LineInv P s) (hjob : job ∈ line s) {c : Call}
    (hc : s.calls[job.call]? = some c) : c.events = job.events := by
  obtain ⟨c', hc', hevents, -⟩ := h.known job hjob
  rw [hc] at hc'
  exact Option.some.inj hc' ▸ hevents

lemma mem_line_of_worker (hjob : s.worker.job? = some job) : job ∈ line s := by
  simp [line, hjob]

/-- A step that leaves the calls, the queue, the trace and the worker's job alone. -/
lemma LineInv.of_same (h : LineInv P s) (hgeneration : t.generation = s.generation)
    (hcurrent : t.currentGeneration = s.currentGeneration) (hjob : t.worker.job? = s.worker.job?)
    (hjobs : t.jobs = s.jobs) (hmain : t.main = s.main) (htrace : t.trace = s.trace)
    (hcalls : t.calls = s.calls) : LineInv P t := by
  have hwaiting : waiting t = waiting s := by rw [waiting, waiting, hjobs, hmain]
  have hline : line t = line s := by rw [line, line, hwaiting, hjob]
  exact ⟨by rw [hgeneration, hcurrent, h.generation],
    by rw [hline, hcalls, hcurrent]; exact h.known,
    by rw [hline]; exact h.sorted, by rw [htrace, hwaiting, hjob]; exact h.behind,
    by rw [htrace]; exact h.inOrder, by rw [htrace, hcalls]; exact h.bounded,
    by rw [hmain, hline, hcurrent]; exact h.stale,
    by rw [hmain, hwaiting, hcurrent]; exact h.current,
    by rw [hmain, hjobs]; exact h.empty, by rw [hwaiting]; exact h.events⟩

/-- A step of the main thread or the worker that passes jobs on or drops them. -/
lemma LineInv.of_sublist (h : LineInv P s) (hline : (line t).Sublist (line s))
    (hwaiting : (waiting t).Sublist (waiting s))
    (hjob : ∀ job ∈ t.worker.job?, s.worker.job? = some job ∨ job ∈ waiting s)
    (hgeneration : t.generation = s.generation)
    (hcurrent : t.currentGeneration = s.currentGeneration) (htrace : t.trace = s.trace)
    (hcalls : t.calls = s.calls) (hstale : t.main.Cancelling → s.main.Cancelling)
    (hnot : ¬ t.main.Cancelling → ¬ s.main.Cancelling ∨ waiting t = [])
    (hempty : t.main = .playerStop → t.jobs = []) : LineInv P t := by
  refine ⟨by rw [hgeneration, hcurrent, h.generation], fun job hj => ?_,
    h.sorted.sublist (hline.map _),
    fun e he => ⟨fun job hj => ?_, fun job hj => ?_⟩, by rw [htrace]; exact h.inOrder,
    by rw [htrace, hcalls]; exact h.bounded, fun hcancelling job hj => ?_, fun hready job hj => ?_,
    hempty, fun job hj => h.events job (hwaiting.subset hj)⟩
  · rw [hcalls, hcurrent]
    exact h.known job (hline.subset hj)
  · rw [htrace] at he
    exact (h.behind e he).1 job (hwaiting.subset hj)
  · rw [htrace] at he
    rcases hjob job hj with hworker | hwait
    · exact (h.behind e he).2 job hworker
    · exact ((h.behind e he).1 job hwait).le
  · rw [hcurrent]
    exact h.stale (hstale hcancelling) job (hline.subset hj)
  · rw [hcurrent]
    rcases hnot hready with hready | hnil
    · exact h.current hready job (hwaiting.subset hj)
    · rw [hnil] at hj
      cases hj

/-- The worker adds to the trace for its job. -/
lemma LineInv.emit (h : LineInv P s) (hjob : s.worker.job? = some job) (hpc : pc.job? = some job)
    (e : TraceEvent) : LineInv P (s.emit job e pc) := by
  have hmem : job ∈ line s := by simp [line, hjob]
  have hline : line (s.emit job e pc) = line s := by
    rw [line, line, hjob, ← hpc]
    rfl
  have hwaiting : ∀ j ∈ waiting s, job.call < j.call := by
    have hsorted := h.sorted
    rw [line, hjob, Option.toList_some, List.singleton_append, List.map_cons,
      List.pairwise_cons] at hsorted
    exact fun j hj => hsorted.1 j.call (List.mem_map_of_mem hj)
  refine ⟨h.generation, by rw [hline]; exact h.known, by rw [hline]; exact h.sorted, ?_, ?_, ?_,
    by rw [hline]; exact h.stale, h.current, h.empty, h.events⟩
  · intro d hd
    rcases List.mem_append.1 hd with hd | hd
    · refine ⟨(h.behind d hd).1, ?_⟩
      show ∀ j ∈ pc.job?, d.1 ≤ j.call
      rw [hpc, ← hjob]
      exact (h.behind d hd).2
    · obtain rfl : d = (job.call, e) := List.mem_singleton.1 hd
      refine ⟨hwaiting, ?_⟩
      show ∀ j ∈ pc.job?, job.call ≤ j.call
      rw [hpc]
      rintro j ⟨⟩
      exact le_rfl
  · show ((s.trace ++ [(job.call, e)]).map (·.1)).Pairwise (· ≤ ·)
    rw [List.map_append, List.pairwise_append]
    refine ⟨h.inOrder, List.pairwise_singleton _ _, ?_⟩
    intro i hi i' hi'
    obtain ⟨d, hd, rfl⟩ := List.mem_map.1 hi
    obtain rfl : i' = job.call := List.mem_singleton.1 hi'
    exact (h.behind d hd).2 job hjob
  · intro d hd
    rcases List.mem_append.1 hd with hd | hd
    · exact h.bounded d hd
    · obtain rfl : d = (job.call, e) := List.mem_singleton.1 hd
      exact h.call_lt hmem

/-- The worker lets go of its job. -/
lemma LineInv.release (h : LineInv P s) (hpc : pc.job? = none) :
    LineInv P { s with worker := pc } := by
  have hline : line { s with worker := pc } = waiting s := by
    rw [line, hpc]
    rfl
  refine h.of_sublist ?_ (List.Sublist.refl _) ?_ rfl rfl rfl rfl id Or.inl h.empty
  · rw [hline]
    exact List.sublist_append_right _ _
  · rw [hpc]
    exact nofun

/-- The worker takes the next job. -/
lemma LineInv.take {jobs : List Job} (h : LineInv P s) (hs : s.worker = .get)
    (hjobs : s.jobs = job :: jobs) : LineInv P { s with jobs := jobs, worker := .check job } := by
  refine h.of_sublist ?_ ?_ ?_ rfl rfl rfl rfl id Or.inl fun hmain => ?_
  · simp [line, waiting, hs, hjobs, WorkerPc.job?]
  · simp [waiting, hjobs]
  · rintro j ⟨⟩
    exact Or.inr (by simp [waiting, hjobs])
  · have hempty := h.empty hmain
    rw [hjobs] at hempty
    cases hempty

/-- `speak` makes a job of the current generation, behind all others. -/
lemma LineInv.speak {events : List SpeechEvent} (h : LineInv P s) (hmain : s.main = .ready)
    (hevents : ∀ e ∈ events, P e) : LineInv P { s with
      main := .put ⟨s.calls.length, s.currentGeneration, events⟩
      calls := s.calls ++ [⟨events, false⟩] } := by
  set t : DriverState := { s with
    main := .put ⟨s.calls.length, s.currentGeneration, events⟩
    calls := s.calls ++ [⟨events, false⟩] }
  have hwaiting : waiting t = waiting s ++ [⟨s.calls.length, s.currentGeneration, events⟩] := by
    simp [t, waiting, hmain, MainPc.job?]
  have hline : line t = line s ++ [⟨s.calls.length, s.currentGeneration, events⟩] := by
    rw [line, hwaiting, ← List.append_assoc]
    rfl
  refine ⟨h.generation, ?_, ?_, ?_, h.inOrder, ?_, False.elim, ?_, nofun, ?_⟩
  · intro job hjob
    rw [hline, List.mem_append, List.mem_singleton] at hjob
    rcases hjob with hjob | rfl
    · obtain ⟨c, hc, hrest⟩ := h.known job hjob
      refine ⟨c, ?_, hrest⟩
      rw [List.getElem?_append_left (h.call_lt hjob), hc]
    · exact ⟨⟨events, false⟩, by simp [t], rfl, fun _ => rfl⟩
  · rw [hline, List.map_append, List.pairwise_append]
    refine ⟨h.sorted, List.pairwise_singleton _ _, ?_⟩
    intro i hi i' hi'
    obtain ⟨job, hjob, rfl⟩ := List.mem_map.1 hi
    obtain rfl : i' = s.calls.length := by simpa using hi'
    exact h.call_lt hjob
  · intro e he
    refine ⟨fun job hjob => ?_, (h.behind e he).2⟩
    rw [hwaiting, List.mem_append, List.mem_singleton] at hjob
    rcases hjob with hjob | rfl
    · exact (h.behind e he).1 job hjob
    · exact h.bounded e he
  · intro e he
    rw [List.length_append]
    exact (h.bounded e he).trans (Nat.lt_succ_self _)
  · intro _ job hjob
    rw [hwaiting, List.mem_append, List.mem_singleton] at hjob
    rcases hjob with hjob | rfl
    · exact h.current (by rw [hmain]; exact id) job hjob
    · rfl
  · intro job hjob
    rw [hwaiting, List.mem_append, List.mem_singleton] at hjob
    rcases hjob with hjob | rfl
    · exact h.events job hjob
    · exact hevents

/-- After the section under the lock in `cancel`, no job in the system is current. -/
lemma LineInv.stale_of_cancel (h : LineInv P s) (hmain : s.main = .ready)
    (hfresh : ∀ job ∈ s.worker.job?, job.generation ≠ nextGeneration s.generation) :
    ∀ job ∈ line s, job.generation ≠ nextGeneration s.generation := by
  intro job hjob
  rcases List.mem_append.1 hjob with hjob | hjob
  · exact hfresh job (Option.mem_toList.1 hjob)
  · rw [h.current (by rw [hmain]; exact id) job hjob, ← h.generation]
    exact (nextGeneration_ne _).symm

lemma LineInv.cancel (h : LineInv P s) (ht : cancel s = some t)
    (hfresh : ∀ job ∈ s.worker.job?, job.generation ≠ nextGeneration s.generation) :
    LineInv P t := by
  unfold Driver.cancel at ht
  split at ht
  · cases ht
  next hmain =>
  rw [not_not] at hmain
  have hstale := h.stale_of_cancel hmain hfresh
  cases ht
  set t : DriverState := { s with
    main := .hostCancel s.activeGeneration
    generation := nextGeneration s.generation
    currentGeneration := nextGeneration s.generation
    calls := s.calls.mapIdx (Call.supersede s.trace)
    requests := s.requests.map Request.supersede }
  have hwaiting : waiting t = waiting s := by simp [t, waiting, hmain, MainPc.job?]
  have hline : line t = line s := by
    rw [line, hwaiting]
    rfl
  refine ⟨rfl, ?_, ?_, ?_, h.inOrder, ?_, fun _ => ?_, fun h => absurd trivial h, nofun, ?_⟩
  · rw [hline]
    intro job hjob
    obtain ⟨c, hc, hevents, -⟩ := h.known job hjob
    refine ⟨c.supersede s.trace job.call, by rw [List.getElem?_mapIdx, hc]; rfl, hevents,
      fun hgeneration => ?_⟩
    exact absurd hgeneration (hstale job hjob)
  · rw [hline]
    exact h.sorted
  · rw [hwaiting]
    exact h.behind
  · intro e he
    rw [List.length_mapIdx]
    exact h.bounded e he
  · rw [hline]
    exact hstale
  · rw [hwaiting]
    exact h.events

lemma LineInv.mainStep (h : LineInv P s) (ht : mainStep s = some t) : LineInv P t := by
  unfold Driver.mainStep at ht
  split at ht
  case h_1 => cases ht
  case h_2 job hmain =>
    -- the job moves from the main thread's hand to the end of the queue
    cases ht
    have hwaiting : waiting { s with jobs := s.jobs ++ [job], main := .ready } = waiting s := by
      simp [waiting, hmain, MainPc.job?]
    have hline : line { s with jobs := s.jobs ++ [job], main := .ready } = line s := by
      rw [line, hwaiting]
      rfl
    exact h.of_sublist (by rw [hline]) (by rw [hwaiting]) (fun j hj => Or.inl hj) rfl rfl rfl rfl
      False.elim (fun _ => Or.inl (by rw [hmain]; exact id)) nofun
  case h_3 active hmain =>
    cases ht
    have hwaiting : waiting { s with
        outgoing := s.outgoing ++ hostCancel s.running active, main := .drain } = waiting s := by
      simp [waiting, hmain, MainPc.job?]
    have hline : line { s with
        outgoing := s.outgoing ++ hostCancel s.running active, main := .drain } = line s := by
      rw [line, hwaiting]
      rfl
    exact h.of_sublist (by rw [hline]) (by rw [hwaiting]) (fun j hj => Or.inl hj) rfl rfl rfl rfl
      (fun _ => by rw [hmain]; trivial) (fun hnot => absurd trivial hnot) nofun
  case h_4 hmain =>
    split at ht
    · next hjobs =>
        cases ht
        have hwaiting : waiting { s with main := .playerStop } = waiting s := by
          simp [waiting, hmain, MainPc.job?]
        have hline : line { s with main := .playerStop } = line s := by
          rw [line, hwaiting]
          rfl
        exact h.of_sublist (by rw [hline]) (by rw [hwaiting]) (fun j hj => Or.inl hj)
          rfl rfl rfl rfl
          (fun _ => by rw [hmain]; trivial) (fun hnot => absurd trivial hnot) fun _ => hjobs
    · next job jobs hjobs =>
        cases ht
        have hwaiting :
            (waiting { s with jobs := jobs, removed := s.removed ++ [job.call] }).Sublist
            (waiting s) := by simp [waiting, hjobs]
        refine h.of_sublist ((List.Sublist.refl _).append hwaiting) hwaiting (fun j hj => Or.inl hj)
          rfl rfl rfl rfl id Or.inl fun hstop => ?_
        have hstop' : s.main = .playerStop := hstop
        rw [hmain] at hstop'
        cases hstop'
  case h_5 hmain =>
    cases ht
    have hempty : waiting { s with main := .ready } = [] := by
      simp [waiting, h.empty hmain, MainPc.job?]
    have hwaiting : waiting s = [] := by simp [waiting, h.empty hmain, hmain, MainPc.job?]
    refine h.of_sublist ?_ (by rw [hempty]; exact List.nil_sublist _) (fun j hj => Or.inl hj)
      rfl rfl rfl rfl False.elim (fun _ => Or.inr hempty) nofun
    rw [line, line, hempty, hwaiting]

lemma LineInv.workerMove (hmove : WorkerMove settings scaleSample s t) (h : LineInv P s) :
    LineInv P t := by
  cases hmove with
  | silent pc hsilent =>
      rcases hsilent.job_eq with hjob | ⟨job, -, hpc, -⟩
      · exact h.of_same rfl rfl hjob rfl rfl rfl rfl
      · exact h.release hpc
  | shown job e pc hshown => exact h.emit hshown.job_eq.1 hshown.job_eq.2 e
  | take job jobs hs hjobs => exact h.take hs hjobs
  | enter job hs hcurrent => exact h.of_same rfl rfl (by rw [hs]; rfl) rfl rfl rfl rfl
  | send job text rest frame hs hframe hrunning =>
      exact h.of_same rfl rfl (by rw [hs]; rfl) rfl rfl rfl rfl
  | pass job rest cancelled m inbox w hs hinbox hpassed =>
      exact h.of_same rfl rfl (by rw [hs]; rfl) rfl rfl rfl rfl
  | ended job rest cancelled m inbox pc hs hinbox hended =>
      exact h.of_same rfl rfl (by rw [hs]; exact hended.job_eq) rfl rfl rfl rfl
  | feed job rest cancelled m data hs hdata =>
      have hrecord : LineInv P (s.record fun r => { r with fed := r.fed ++ [m] }) :=
        h.of_same rfl rfl rfl rfl rfl rfl rfl
      have hjob : (s.record fun r => { r with fed := r.fed ++ [m] }).worker.job? = some job := by
        rw [DriverState.record, hs]
        rfl
      exact hrecord.emit hjob rfl _
  | stop job rest cancelled hs => exact h.of_same rfl rfl (by rw [hs]; rfl) rfl rfl rfl rfl
  | leave job hs =>
      have hget : LineInv P { s with worker := .get } := h.release rfl
      exact hget.of_same rfl rfl rfl rfl rfl rfl rfl

/-- What a step leaves alone that is neither a call nor a step of the main thread or the worker. -/
structure OutsideMove (s t : DriverState) : Prop where
  generation : t.generation = s.generation
  currentGeneration : t.currentGeneration = s.currentGeneration
  job : t.worker.job? = s.worker.job?
  jobs : t.jobs = s.jobs
  main : t.main = s.main
  trace : t.trace = s.trace
  calls : t.calls = s.calls
  removed : t.removed = s.removed

lemma outsideMove_hostStart {ok : Bool} (ht : hostStart s ok = some t) : OutsideMove s t := by
  unfold hostStart at ht
  split at ht
  case h_1 hs => cases ht; exact ⟨rfl, rfl, by rw [hs]; rfl, rfl, rfl, rfl, rfl, rfl⟩
  case h_2 job text rest hs =>
    split at ht
    · cases ht
    · cases ht
      refine ⟨rfl, rfl, ?_, rfl, rfl, rfl, rfl, rfl⟩
      rw [hs]
      split <;> rfl
  case h_3 job rest cancelled hs =>
    cases ht
    exact ⟨rfl, rfl, by rw [hs]; rfl, rfl, rfl, rfl, rfl, rfl⟩
  case h_4 => cases ht

lemma outsideMove_emptyQueue {cancelledLong stalled : Bool}
    (ht : emptyQueue s cancelledLong stalled = some t) : OutsideMove s t := by
  obtain ⟨job, rest, cancelled, w, hs, -, rfl, -⟩ := exists_polled ht
  exact ⟨rfl, rfl, by rw [hs]; rfl, rfl, rfl, rfl, rfl, rfl⟩

lemma outsideMove_arrive {m : Mail} (ht : arrive s m = some t) : OutsideMove s t := by
  unfold arrive at ht
  split at ht
  · cases ht; exact ⟨rfl, rfl, rfl, rfl, rfl, rfl, rfl, rfl⟩
  · cases ht

lemma LineInv.outsideMove (h : LineInv P s) (hmove : OutsideMove s t) : LineInv P t :=
  h.of_same hmove.generation hmove.currentGeneration hmove.job hmove.jobs hmove.main hmove.trace
    hmove.calls

/-- What `speak` does, if it queues a job. -/
lemma exists_speak {items : List SpeechItem} (ht : speak s items = some t) :
    s.main = .ready ∧ (t = s ∨ t = { s with
      main := .put ⟨s.calls.length, s.currentGeneration, speechEvents items⟩
      calls := s.calls ++ [⟨speechEvents items, false⟩] }) := by
  unfold speak at ht
  split at ht
  · cases ht
  next hmain =>
  dsimp only at ht
  split at ht
  · cases ht; exact ⟨not_not.1 hmain, Or.inl rfl⟩
  · cases ht; exact ⟨not_not.1 hmain, Or.inr rfl⟩

lemma exists_cancel (ht : cancel s = some t) : s.main = .ready ∧ t = { s with
    main := .hostCancel s.activeGeneration
    generation := nextGeneration s.generation
    currentGeneration := nextGeneration s.generation
    calls := s.calls.mapIdx (Call.supersede s.trace)
    requests := s.requests.map Request.supersede } := by
  unfold cancel at ht
  split at ht
  · cases ht
  · next hmain => cases ht; exact ⟨not_not.1 hmain, rfl⟩

/-- Every step keeps the order of the calls, if every text can be sent and the new generation of
a `cancel` is not that of the worker's job. -/
lemma LineInv.driverStep {a : DriverAction} (h : LineInv P s) (horderly : Orderly P s a)
    (ht : driverStep settings scaleSample s a = some t) : LineInv P t := by
  cases a with
  | speak items =>
      obtain ⟨hmain, rfl | rfl⟩ := exists_speak ht
      · exact h
      · exact h.speak hmain horderly
  | cancel => exact h.cancel ht horderly.1
  | main => exact h.mainStep ht
  | worker => exact LineInv.workerMove (workerMove_workerStep ht) h
  | hostStart ok => exact h.outsideMove (outsideMove_hostStart ht)
  | empty cancelledLong stalled => exact h.outsideMove (outsideMove_emptyQueue ht)
  | arrive mail => exact h.outsideMove (outsideMove_arrive ht)

/-! ### The worker's own records -/

/-- The events that the worker has not finished. -/
def WorkerPc.events : WorkerPc → List SpeechEvent
  | .check job | .enter job => job.events
  | .head _ rest | .notify _ _ rest | .wait _ rest _ _ | .completed _ rest | .idle _ rest => rest
  | .ensure _ t rest | .send _ t rest => .text t :: rest
  | _ => []

/-- The job that `_render` is on. -/
def WorkerPc.rendering? : WorkerPc → Option Job
  | .starting | .get | .check _ | .enter _ => none
  | pc => pc.job?

/-- What the worker has sent and published for its job. -/
structure WorkerInv (P : SpeechEvent → Prop) (s : DriverState) : Prop where
  /-- While the worker waits for an answer, the last request is the one it waits for. -/
  asked : ∀ job rest cancelled pc, s.worker = .wait job rest cancelled pc →
    ∃ r ∈ s.requests.getLast?, r.returned = none ∧ r.frame.generation = job.generation ∧
      (r.superseded = true ↔ job.generation ≠ s.currentGeneration)
  events : ∀ e ∈ s.worker.events, P e
  running : ∀ job text rest, s.worker = .send job text rest → s.running = true
  active : ∀ g, s.activeGeneration = some g →
    ∃ job, s.worker.rendering? = some job ∧ job.generation = g
  /-- The generation that `cancel` names to the helper is an old one. -/
  cancelled : ∀ g, s.main = .hostCancel (some g) → g ≠ s.currentGeneration

lemma job_of_rendering (h : pc.rendering? = some job) : pc.job? = some job := by
  cases pc <;> first | exact h | cases h

lemma getLast?_record (s : DriverState) (f : Request → Request) :
    (s.record f).requests.getLast? = s.requests.getLast?.map f := by
  simp [DriverState.record, List.getLast?_eq_getElem?]

lemma Silent.events (h : Silent settings scaleSample s pc pc') : pc'.events ⊆ pc.events := by
  cases h <;> simp [WorkerPc.events]

lemma Silent.rendering (h : Silent settings scaleSample s pc pc') :
    pc'.rendering? = pc.rendering? := by
  cases h <;> rfl

lemma Silent.asked (h : Silent settings scaleSample s pc pc') {rest : List SpeechEvent}
    {cancelled : Bool} {w : WaitPc} (hpc' : pc' = .wait job rest cancelled w) :
    ∃ cancelled' w', pc = .wait job rest cancelled' w' := by
  cases h <;> cases hpc'
  all_goals exact ⟨_, _, rfl⟩

lemma Silent.running_of_send (h : Silent settings scaleSample s pc pc') {text : PyString}
    {rest : List SpeechEvent} (hpc' : pc' = .send job text rest) : s.running = true := by
  cases h <;> cases hpc'
  assumption

lemma Shown.events {e : TraceEvent} (h : Shown pc job e pc') : pc'.events ⊆ pc.events := by
  cases h <;> simp [WorkerPc.events]

lemma Shown.rendering {e : TraceEvent} (h : Shown pc job e pc') :
    pc'.rendering? = pc.rendering? := by
  cases h <;> rfl

lemma Shown.ne_send {e : TraceEvent} {j : Job} {text : PyString} {rest : List SpeechEvent}
    (h : Shown pc job e pc') : pc' ≠ .send j text rest := by
  cases h <;> exact nofun

/-- The frame of a SPEAK carries the generation that it is made with. -/
lemma generation_of_speakFrame {generation : UInt32} {text : PyString} {frame : Frame}
    (h : speakFrame settings generation text = some frame) : frame.generation = generation := by
  obtain ⟨payload, -, hpack⟩ := Option.bind_eq_some_iff.1 h
  rw [packFrame] at hpack
  split at hpack
  · cases hpack; rfl
  · cases hpack

/-- The worker moves on within a message loop. -/
lemma WorkerInv.wait (h : WorkerInv P s) {rest : List SpeechEvent} {cancelled cancelled' : Bool}
    {w w' : WaitPc} (hs : s.worker = .wait job rest cancelled w) (inbox : List Mail)
    (outgoing : List Frame) (running : Bool) : WorkerInv P { s with
      running := running, outgoing := outgoing, inbox := inbox
      worker := .wait job rest cancelled' w' } := by
  refine ⟨?_, ?_, nofun, ?_, h.cancelled⟩
  · rintro j rest' c w'' ⟨⟩
    exact h.asked job rest cancelled w hs
  · have hevents := h.events
    rw [hs] at hevents
    exact hevents
  · have hactive := h.active
    rw [hs] at hactive
    exact hactive

lemma WorkerInv.workerMove (hmove : WorkerMove settings scaleSample s t) (h : WorkerInv P s)
    (hline : LineInv P s) : WorkerInv P t := by
  cases hmove with
  | silent pc hsilent =>
      refine ⟨fun job rest cancelled w hw => ?_, fun e he => h.events e (hsilent.events he),
        fun job text rest hw => hsilent.running_of_send hw, ?_, h.cancelled⟩
      · obtain ⟨cancelled', w', hs⟩ := hsilent.asked hw
        exact h.asked job rest cancelled' w' hs
      · show ∀ g, _ → ∃ job, pc.rendering? = some job ∧ _
        rw [hsilent.rendering]
        exact h.active
  | shown job e pc hshown =>
      refine ⟨fun j rest cancelled w hw => absurd hw hshown.ne_wait,
        fun e he => h.events e (hshown.events he), fun j text rest hw => absurd hw hshown.ne_send,
        ?_, h.cancelled⟩
      show ∀ g, _ → ∃ job, pc.rendering? = some job ∧ _
      rw [hshown.rendering]
      exact h.active
  | take job jobs hs hjobs =>
      refine ⟨nofun, hline.events job (by simp [waiting, hjobs]), nofun, ?_, h.cancelled⟩
      have hactive := h.active
      rw [hs] at hactive
      exact hactive
  | enter job hs hcurrent =>
      refine ⟨nofun, ?_, nofun, ?_, h.cancelled⟩
      · have hevents := h.events
        rw [hs] at hevents
        exact hevents
      · rintro g ⟨⟩
        exact ⟨job, rfl, rfl⟩
  | send job text rest frame hs hframe hrunning =>
      refine ⟨?_, fun e he => h.events e ?_, nofun, ?_, h.cancelled⟩
      · rintro j rest' cancelled w ⟨⟩
        refine ⟨⟨job.call, rest.length, frame, [], [], none, !s.isCurrent job⟩, by simp, rfl,
          generation_of_speakFrame hframe, ?_⟩
        show (!s.isCurrent job) = true ↔ job.generation ≠ s.currentGeneration
        rw [← isCurrent_eq_false_iff, Bool.not_eq_true']
      · rw [hs]
        exact List.mem_cons_of_mem _ he
      · have hactive := h.active
        rw [hs] at hactive
        exact hactive
  | pass job rest cancelled m inbox w hs hinbox hpassed => exact h.wait hs _ _ _
  | ended job rest cancelled m inbox pc hs hinbox hended =>
      have hwait := h.active
      have hevents := h.events
      rw [hs] at hwait hevents
      cases hended with
      | done hgeneration htype => exact ⟨nofun, hevents, nofun, hwait, h.cancelled⟩
      | failed hgeneration htype => exact ⟨nofun, nofun, nofun, hwait, h.cancelled⟩
  | feed job rest cancelled m data hs hdata =>
      refine ⟨?_, ?_, nofun, ?_, h.cancelled⟩
      · rintro j rest' c w ⟨⟩
        obtain ⟨r, hr, hrest⟩ := h.asked job rest cancelled _ hs
        refine ⟨{ r with fed := r.fed ++ [m] }, ?_, hrest⟩
        show _ ∈ (s.record _).requests.getLast?
        rw [getLast?_record, hr]
        rfl
      · have hevents := h.events
        rw [hs] at hevents
        exact hevents
      · have hactive := h.active
        rw [hs] at hactive
        exact hactive
  | stop job rest cancelled hs => exact h.wait hs _ _ _
  | leave job hs =>
      refine ⟨nofun, nofun, nofun, fun g hg => ?_, h.cancelled⟩
      -- the generation that is published is that of the job, and so taken back
      have hactive := h.active
      rw [hs] at hactive
      dsimp only at hg
      split at hg
      · cases hg
      · next hne =>
          obtain ⟨j, hj, rfl⟩ := hactive g hg
          cases hj
          exact absurd hg hne

/-- A call of `cancel` supersedes what the worker waits for. -/
lemma WorkerInv.cancel (h : WorkerInv P s) (horderly : Orderly P s .cancel)
    (ht : Driver.cancel s = some t) : WorkerInv P t := by
  obtain ⟨hmain, rfl⟩ := exists_cancel ht
  refine ⟨fun job rest cancelled w hw => ?_, h.events, h.running, h.active, ?_⟩
  · obtain ⟨r, hr, hreturned, hgeneration, -⟩ := h.asked job rest cancelled w hw
    have hjob : s.worker.job? = some job := by
      have hs : s.worker = .wait job rest cancelled w := hw
      rw [hs]
      rfl
    refine ⟨r.supersede, ?_, hreturned, hgeneration, fun _ => horderly.1 job hjob, fun _ => ?_⟩
    · show _ ∈ (s.requests.map Request.supersede).getLast?
      rw [List.getLast?_map, hr]
      rfl
    · show (r.superseded || r.returned.isNone) = true
      rw [hreturned]
      exact Bool.or_true _
  · intro g hg
    obtain ⟨job, hjob, rfl⟩ := h.active g (MainPc.hostCancel.inj hg)
    exact horderly.1 job (job_of_rendering hjob)

lemma WorkerInv.hostStart {ok : Bool} (h : WorkerInv P s) (ht : Driver.hostStart s ok = some t) :
    WorkerInv P t := by
  unfold Driver.hostStart at ht
  split at ht
  case h_1 hs =>
    cases ht
    have hactive := h.active
    rw [hs] at hactive
    exact ⟨nofun, nofun, nofun, hactive, h.cancelled⟩
  case h_2 job text rest hs =>
    split at ht
    · cases ht
    · cases ht
      have hactive := h.active
      have hevents := h.events
      rw [hs] at hactive hevents
      cases ok with
      | true => exact ⟨nofun, hevents, fun _ _ _ _ => rfl, hactive, h.cancelled⟩
      | false => exact ⟨nofun, nofun, nofun, hactive, h.cancelled⟩
  case h_3 job rest cancelled hs =>
    cases ht
    have hactive := h.active
    rw [hs] at hactive
    exact ⟨nofun, nofun, nofun, hactive, h.cancelled⟩
  case h_4 => cases ht

/-- A message that arrives is recorded with the request. -/
lemma WorkerInv.arrive {mail : Mail} (h : WorkerInv P s) (ht : Driver.arrive s mail = some t) :
    WorkerInv P t := by
  unfold Driver.arrive at ht
  split at ht
  · cases ht
    refine ⟨fun job rest cancelled w hw => ?_, h.events, h.running, h.active, h.cancelled⟩
    obtain ⟨r, hr, hrest⟩ := h.asked job rest cancelled w hw
    refine ⟨if mail.message.generation = r.frame.generation then
      { r with arrived := r.arrived ++ [mail] } else r, ?_, ?_⟩
    · show _ ∈ (s.record _).requests.getLast?
      rw [getLast?_record, hr]
      rfl
    · split <;> exact hrest
  · cases ht

lemma WorkerInv.driverStep {a : DriverAction} (h : WorkerInv P s) (hline : LineInv P s)
    (horderly : Orderly P s a) (ht : driverStep settings scaleSample s a = some t) :
    WorkerInv P t := by
  cases a with
  | speak items =>
      obtain ⟨hmain, rfl | rfl⟩ := exists_speak ht
      · exact h
      · exact ⟨h.asked, h.events, h.running, h.active, nofun⟩
  | cancel => exact h.cancel horderly ht
  | main =>
      have hkeep (main : MainPc) (jobs : List Job) (outgoing : List Frame) (removed : List ℕ)
          (hmain : ∀ g, main ≠ .hostCancel (some g)) : WorkerInv P { s with
            main := main, jobs := jobs, outgoing := outgoing, removed := removed } :=
        ⟨h.asked, h.events, h.running, h.active, fun g hg => absurd hg (hmain g)⟩
      change mainStep s = some t at ht
      unfold mainStep at ht
      split at ht
      case h_1 => cases ht
      case h_2 job hmain => cases ht; exact hkeep _ _ _ _ nofun
      case h_3 active hmain => cases ht; exact hkeep _ _ _ _ nofun
      case h_4 hmain =>
        split at ht
        · cases ht; exact hkeep _ _ _ _ nofun
        · cases ht; exact hkeep _ _ _ _ (by rw [hmain]; exact nofun)
      case h_5 hmain => cases ht; exact hkeep _ _ _ _ nofun
  | worker => exact WorkerInv.workerMove (workerMove_workerStep ht) h hline
  | hostStart ok => exact h.hostStart ht
  | empty cancelledLong stalled =>
      obtain ⟨job, rest, cancelled, w, hs, -, rfl, -⟩ := exists_polled ht
      exact h.wait hs _ _ _
  | arrive mail => exact h.arrive ht

lemma lineInv_initialState (generation : UInt32) : LineInv P (initialState generation) where
  generation := rfl
  known := nofun
  sorted := List.Pairwise.nil
  behind := nofun
  inOrder := List.Pairwise.nil
  bounded := nofun
  stale := False.elim
  current := fun _ => nofun
  empty := fun _ => rfl
  events := nofun

lemma workerInv_initialState (generation : UInt32) : WorkerInv P (initialState generation) where
  asked := nofun
  events := nofun
  running := nofun
  active := nofun
  cancelled := nofun

end SamsungTVVoices.Driver
