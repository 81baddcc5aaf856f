/-
What a CANCEL does in the guest (`cancelActive`, `synthesisWorker`).

`CancelHonoured` says of a log that once a CANCEL has been handled, no chunk is played any more
for an unanswered request of its generation that came before it.  The guest keeps this in
every run in which no CANCEL finds a request of its generation waiting, or taken and not yet
published, and none is done with while the worker is between its load of `cancelling` and the
call of the engine for such a request (`cancelHonoured_of_run`).  In the first two cases the
CANCEL is lost, in the third it is late by one chunk.

The argument is two predicates.  A request is `Flagged` when it is not waiting, and the worker
is not on it unless its next load of `cancelling` finds the flag set; it is `Quiet` if moreover
the worker is not already behind that load.  Nothing makes a quiet request play again, and a
handled CANCEL leaves every request of its generation quiet.
-/
import SamsungTVVoices.Guest.Machine
import SamsungTVVoices.Lib.StepSystem

open StepSystem

namespace SamsungTVVoices.Guest

/-! ### The property -/

/-- The message ends its request: DONE, ERROR or CANCELLED. -/
def GuestEvent.Terminal (request : ℕ) : GuestEvent → Prop
  | .sent f r => r = some request ∧ (f.type = SamsungMessage.done.code ∨
      f.type = SamsungMessage.error.code ∨ f.type = SamsungMessage.cancelled.code)
  | _ => False

/-- After a CANCEL has been handled, the worker plays nothing more for a request that it
cancels: one of its generation, read before it and not answered before it was read. -/
def CancelHonoured (log : List GuestEvent) : Prop :=
  ∀ before between after request generation,
    log = before ++ GuestEvent.cancelRead generation ::
      (between ++ GuestEvent.cancelHandled generation :: after) →
    .speak request generation ∈ before → (∀ e ∈ before, ¬ e.Terminal request) →
      ∀ chunk, .play request chunk ∉ after

/-- The generation for which the reader is about to look, for a CANCEL. -/
def ReaderPc.looksFor : ReaderPc → Option UInt32
  | .cancelLoad .frame generation => some generation
  | _ => none

/-- The job that the worker is on, if it is at this phase. -/
def WorkerPc.jobAt (phase : Phase) : WorkerPc → Option SpeechJob
  | .busy job p => if p = phase then some job else none
  | _ => none

/-- The generation of the CANCEL that the reader is about to be done with. -/
def ReaderPc.answers : ReaderPc → Option UInt32
  | .cancelSend .frame generation _ => some generation
  | _ => none

/-- The job for which the worker has loaded `cancelling` and not yet called the engine. -/
def WorkerPc.calling : WorkerPc → Option SpeechJob
  | .busy job (.call _) => some job
  | _ => none

/-- When `cancelActive` looks at the generation for a CANCEL, no request of that generation is
waiting in `pendingJob`, and the worker has not taken one that it has yet to publish.  When the
CANCEL is done with, the worker is not about to call the engine for one. -/
def CancelSeen (s : GuestState) : GuestAction → Prop
  | .reader =>
      (∀ generation ∈ s.reader.looksFor,
        (∀ job ∈ s.pendingJob, job.generation ≠ generation) ∧
        (∀ job ∈ s.worker.jobAt .reset, job.generation ≠ generation) ∧
        (∀ job ∈ s.worker.jobAt .publish, job.generation = generation →
          s.activeGeneration = generation)) ∧
      ∀ generation ∈ s.reader.answers, ∀ job ∈ s.worker.calling, job.generation ≠ generation
  | _ => True

instance (s : GuestState) : (a : GuestAction) → Decidable (CancelSeen s a)
  -- not by trying every generation
  | .reader => @instDecidableAnd _ _ (Option.decidableForallMem s.reader.looksFor)
      (Option.decidableForallMem s.reader.answers)
  | .receive _ => .isTrue trivial
  | .worker => .isTrue trivial
  | .outside _ => .isTrue trivial

/-! ### Quiet requests -/

/-- The worker loads `cancelling` no more in the loop of this job. -/
def Phase.Ending : Phase → Prop
  | .sendInitError => True
  | .stop _ => True
  | .reply _ => True
  | .clear => True
  | _ => False

/-- If the worker is on this request, its next load of `cancelling` in the loop stops it. -/
def FlaggedWorker (request : ℕ) (cancelling : Bool) : WorkerPc → Prop
  | .busy job phase => job.request = request →
      phase ≠ .reset ∧ (cancelling = true ∨ phase.Ending)
  | _ => True

/-- The worker is not behind that load and before the call for this request. -/
def NotCalling (request : ℕ) (pc : WorkerPc) : Prop :=
  ∀ job ∈ pc.calling, job.request ≠ request

/-- The reader is not about to post this request. -/
def NotPosting (request : ℕ) : ReaderPc → Prop
  | .post job => job.request ≠ request
  | _ => True

/-- At most the call for one more chunk of the request is made, whatever happens. -/
structure Flagged (request : ℕ) (s : GuestState) : Prop where
  issued : request < s.requests
  posting : NotPosting request s.reader
  pending : ∀ job, s.pendingJob = some job → job.request ≠ request
  worker : FlaggedWorker request s.cancelling s.worker

/-- The request is not played any more, whatever happens. -/
structure Quiet (request : ℕ) (s : GuestState) : Prop extends Flagged request s where
  calling : NotCalling request s.worker

/-- The worker has started on this request, if it is on it, and so will see a cancel. -/
def StartedWorker (request : ℕ) : WorkerPc → Prop
  | .busy job phase => job.request = request → phase ≠ .reset
  | _ => True

/-- The request is not waiting, and the reader is not about to post one. -/
structure Started (request : ℕ) (s : GuestState) : Prop where
  issued : request < s.requests
  posting : NotPosting request s.reader
  pending : ∀ job, s.pendingJob = some job → job.request ≠ request
  worker : StartedWorker request s.worker

variable {s t : GuestState} {o : Option Outside} {request : ℕ}

lemma Flagged.started (h : Flagged request s) : Started request s := by
  refine ⟨h.issued, h.posting, h.pending, ?_⟩
  have hworker := h.worker
  cases hs : s.worker with
  | busy job phase =>
      rw [hs] at hworker
      exact fun hjob => (hworker hjob).1
  | _ => trivial

/-- A request that has started is flagged once `cancelling` is set. -/
lemma Started.flagged (h : Started request s) (hcancelling : s.cancelling = true) :
    Flagged request s := by
  refine ⟨h.issued, h.posting, h.pending, ?_⟩
  have hworker := h.worker
  cases hs : s.worker with
  | busy job phase =>
      rw [hs] at hworker
      exact fun hjob => ⟨hworker hjob, Or.inl hcancelling⟩
  | _ => trivial

lemma flaggedWorker_of_ne {cancelling : Bool} {pc : WorkerPc}
    (h : ∀ job ∈ pc.job?, job.request ≠ request) : FlaggedWorker request cancelling pc := by
  cases pc with
  | busy job phase => exact fun hrequest => absurd hrequest (h job rfl)
  | _ => trivial

lemma startedWorker_of_idle {pc : WorkerPc} (h : pc.job? = none) : StartedWorker request pc := by
  cases pc with
  | busy job phase => exact absurd h (by simp [WorkerPc.job?])
  | _ => trivial

lemma WorkerPc.job?_of_calling {pc : WorkerPc} {job : SpeechJob} (h : pc.calling = some job) :
    pc.job? = some job := by
  cases pc with
  | busy job' phase =>
      cases phase with
      | call offset => exact h
      | _ => cases h
  | _ => cases h

lemma notCalling_of_ne {pc : WorkerPc} (h : ∀ job ∈ pc.job?, job.request ≠ request) :
    NotCalling request pc :=
  fun job hjob => h job (WorkerPc.job?_of_calling hjob)

/-- The worker is about to call the engine only at `call`. -/
lemma notCalling_busy {job : SpeechJob} {phase : Phase} (h : ∀ offset, phase ≠ .call offset) :
    NotCalling request (.busy job phase) := by
  cases phase with
  | call offset => exact absurd rfl (h offset)
  | _ => exact nofun

lemma InnerMove.ending {length : ℕ} {cancelling : Bool} {active : UInt32} {phase phase' : Phase}
    (h : InnerMove length cancelling active o phase phase') :
    phase' ≠ .reset ∧ (phase.Ending → phase'.Ending) := by
  cases h <;> simp [Phase.Ending]

/-- Within a job, the worker gets behind the load only with `cancelling` not set. -/
lemma InnerMove.call_of_loop {length : ℕ} {cancelling : Bool} {active : UInt32}
    {phase : Phase} {offset : ℕ} (h : InnerMove length cancelling active o phase (.call offset)) :
    phase = .loop offset ∧ cancelling = false := by
  cases h with
  | enter _ hlt hcancelling => exact ⟨rfl, hcancelling⟩

lemma JobMessage.ending {job : SpeechJob} {phase phase' : Phase} {f : Frame}
    (h : JobMessage job phase phase' f) :
    phase' ≠ .reset ∧ (∀ offset, phase' ≠ .call offset) ∧ (phase.Ending → phase'.Ending) := by
  cases h <;> simp [Phase.Ending]

/-- The worker leaves a flagged request flagged. -/
lemma WorkerMove.flagged (h : WorkerMove s o t) (hq : Flagged request s) :
    Flagged request t := by
  cases h with
  | idle pc synth hidle =>
      exact ⟨hq.issued, hq.posting, hq.pending, flaggedWorker_of_ne (by simp [hidle.job_eq.2])⟩
  | take job hs hpending =>
      refine ⟨hq.issued, hq.posting, nofun, fun hjob => ?_⟩
      exact absurd hjob (hq.pending job hpending)
  | reset job hs =>
      refine ⟨hq.issued, hq.posting, hq.pending, fun hjob => ?_⟩
      have hworker := hq.worker
      rw [hs] at hworker
      exact absurd rfl (hworker hjob).1
  | publish job hs =>
      refine ⟨hq.issued, hq.posting, hq.pending, fun hjob => ⟨nofun, ?_⟩⟩
      have hworker := hq.worker
      rw [hs] at hworker
      exact (hworker hjob).2.imp_right False.elim
  | inner job phase phase' synth language model hs hmove =>
      refine ⟨hq.issued, hq.posting, hq.pending, fun hjob => ⟨hmove.ending.1, ?_⟩⟩
      have hworker := hq.worker
      rw [hs] at hworker
      exact (hworker hjob).2.imp_right hmove.ending.2
  | play job offset synth hs =>
      refine ⟨hq.issued, hq.posting, hq.pending, fun hjob => ⟨nofun, ?_⟩⟩
      have hworker := hq.worker
      rw [hs] at hworker
      exact (hworker hjob).2.imp_right False.elim
  | message job phase phase' f hs hmessage =>
      refine ⟨hq.issued, hq.posting, hq.pending, fun hjob => ⟨hmessage.ending.1, ?_⟩⟩
      have hworker := hq.worker
      rw [hs] at hworker
      exact (hworker hjob).2.imp_right hmessage.ending.2.2
  | clear job hs => exact ⟨hq.issued, hq.posting, hq.pending, trivial⟩

/-- The worker does not get behind the load for a quiet request. -/
lemma WorkerMove.notCalling (h : WorkerMove s o t) (hq : Quiet request s) :
    NotCalling request t.worker := by
  cases h with
  | idle pc synth hidle => exact notCalling_of_ne (by simp [hidle.job_eq.2])
  | inner job phase phase' synth language model hs hmove =>
      intro job' hjob' hrequest
      cases phase' with
      | call offset =>
          obtain rfl : job = job' := by simpa [WorkerPc.calling] using hjob'
          obtain ⟨rfl, hcancelling⟩ := hmove.call_of_loop
          -- at the head of the loop the flag is set, as the request is quiet
          have hworker := hq.worker
          rw [hs] at hworker
          rcases (hworker hrequest).2 with htrue | hending
          · exact absurd (hcancelling.symm.trans htrue) (by simp)
          · exact hending
      | _ => cases hjob'
  | message job phase phase' f hs hmessage => exact notCalling_busy hmessage.ending.2.1
  | _ => exact nofun

/-- The worker leaves a quiet request quiet. -/
lemma WorkerMove.quiet (h : WorkerMove s o t) (hq : Quiet request s) : Quiet request t :=
  ⟨h.flagged hq.toFlagged, h.notCalling hq⟩

/-- The worker leaves a request started. -/
lemma WorkerMove.started (h : WorkerMove s o t) (hq : Started request s) : Started request t := by
  cases h with
  | idle pc synth hidle =>
      exact ⟨hq.issued, hq.posting, hq.pending, startedWorker_of_idle hidle.job_eq.2⟩
  | take job hs hpending =>
      refine ⟨hq.issued, hq.posting, nofun, fun hjob => ?_⟩
      exact absurd hjob (hq.pending job hpending)
  | reset job hs => exact ⟨hq.issued, hq.posting, hq.pending, fun _ => nofun⟩
  | publish job hs => exact ⟨hq.issued, hq.posting, hq.pending, fun _ => nofun⟩
  | inner job phase phase' synth language model hs hmove =>
      exact ⟨hq.issued, hq.posting, hq.pending, fun _ => hmove.ending.1⟩
  | play job offset synth hs => exact ⟨hq.issued, hq.posting, hq.pending, fun _ => nofun⟩
  | message job phase phase' f hs hmessage =>
      exact ⟨hq.issued, hq.posting, hq.pending, fun _ => hmessage.ending.1⟩
  | clear job hs => exact ⟨hq.issued, hq.posting, hq.pending, trivial⟩

lemma notPosting_of_plain {pc : ReaderPc} (h : pc.Plain) : NotPosting request pc := by
  cases pc with
  | post job => exact h.elim
  | _ => trivial

/-- The reader leaves a flagged request flagged: it resets nothing, and it posts new requests. -/
lemma ReaderMove.flagged (h : ReaderMove s t) (hq : Flagged request s) : Flagged request t := by
  cases h with
  | pass pc shuttingDown worker hpc hworker =>
      refine ⟨hq.issued, notPosting_of_plain hpc, hq.pending, ?_⟩
      rcases hworker with rfl | ⟨-, rfl⟩
      · exact hq.worker
      · trivial
  | reject f => exact ⟨hq.issued, trivial, hq.pending, hq.worker⟩
  | post job hs =>
      have hposting := hq.posting
      rw [hs] at hposting
      exact ⟨hq.issued, trivial, fun job' hjob' => Option.some.inj hjob' ▸ hposting, hq.worker⟩
  | miss generation hs hne => exact ⟨hq.issued, trivial, hq.pending, hq.worker⟩
  | hit site generation hs heq => exact ⟨hq.issued, trivial, hq.pending, hq.worker⟩
  | store site generation r hs =>
      exact Started.flagged ⟨hq.issued, trivial, hq.pending, hq.started.worker⟩ rfl
  | answer generation r hs => exact ⟨hq.issued, trivial, hq.pending, hq.worker⟩
  | leave pc hpc f r => exact ⟨hq.issued, notPosting_of_plain hpc, hq.pending, hq.worker⟩

/-- The reader moves the worker only out of its sleep. -/
lemma ReaderMove.notCalling (h : ReaderMove s t) (hq : NotCalling request s.worker) :
    NotCalling request t.worker := by
  cases h with
  | pass pc shuttingDown worker hpc hworker =>
      rcases hworker with rfl | ⟨-, rfl⟩
      · exact hq
      · exact nofun
  | _ => exact hq

lemma ReaderMove.quiet (h : ReaderMove s t) (hq : Quiet request s) : Quiet request t :=
  ⟨h.flagged hq.toFlagged, h.notCalling hq.calling⟩

lemma ReceiveMove.quiet (h : ReceiveMove s t) (hq : Quiet request s) : Quiet request t := by
  cases h with
  | pass pc hpc =>
      refine ⟨⟨hq.issued, ?_, hq.pending, hq.worker⟩, hq.calling⟩
      rcases hpc with rfl | rfl | rfl | ⟨generation, rfl⟩ <;> trivial
  | speak generation options text =>
      exact ⟨⟨hq.issued.trans (Nat.lt_succ_self _), hq.issued.ne', hq.pending, hq.worker⟩,
        hq.calling⟩
  | cancel generation => exact ⟨⟨hq.issued, trivial, hq.pending, hq.worker⟩, hq.calling⟩

/-! ### The log -/

/-- A CANCEL that covers the request has been handled. -/
def Handled (log : List GuestEvent) (request : ℕ) : Prop :=
  ∃ before between after generation,
    log = before ++ GuestEvent.cancelRead generation ::
      (between ++ GuestEvent.cancelHandled generation :: after) ∧
      .speak request generation ∈ before

/-- Nothing is played for a request once a CANCEL that covers it has been handled. -/
def PlaysHonoured (log : List GuestEvent) : Prop :=
  ∀ before after request chunk, log = before ++ .play request chunk :: after →
    ¬ Handled before request

lemma handled_append_singleton {log : List GuestEvent} {e : GuestEvent}
    (h : Handled (log ++ [e]) request) :
    Handled log request ∨
      ∃ generation, e = .cancelHandled generation ∧ .speak request generation ∈ log := by
  obtain ⟨before, between, after, generation, hlog, hspeak⟩ := h
  rcases List.eq_nil_or_concat after with rfl | ⟨after, last, rfl⟩
  · -- the new event is the handling
    right
    have hsplit : log ++ [e] =
        (before ++ .cancelRead generation :: between) ++ [.cancelHandled generation] := by
      simpa using hlog
    obtain ⟨rfl, he⟩ := List.append_inj' hsplit rfl
    exact ⟨generation, List.singleton_inj.1 he, List.mem_append_left _ hspeak⟩
  · left
    have hsplit : log ++ [e] = (before ++ .cancelRead generation ::
        (between ++ .cancelHandled generation :: after)) ++ [last] := by
      simpa using hlog
    obtain ⟨rfl, -⟩ := List.append_inj' hsplit rfl
    exact ⟨before, between, after, generation, rfl, hspeak⟩

lemma PlaysHonoured.append_singleton {log : List GuestEvent} {e : GuestEvent}
    (h : PlaysHonoured log)
    (he : ∀ request chunk, e = .play request chunk → ¬ Handled log request) :
    PlaysHonoured (log ++ [e]) := by
  intro before after request chunk hlog
  rcases List.eq_nil_or_concat after with rfl | ⟨after, last, rfl⟩
  · obtain ⟨rfl, hplay⟩ := List.append_inj' hlog rfl
    exact he request chunk (List.singleton_inj.1 hplay)
  · have hsplit : log ++ [e] = (before ++ .play request chunk :: after) ++ [last] := by
      simpa using hlog
    obtain ⟨rfl, -⟩ := List.append_inj' hsplit rfl
    exact h before after request chunk rfl

lemma PlaysHonoured.cancelHonoured {log : List GuestEvent} (h : PlaysHonoured log) :
    CancelHonoured log := by
  intro before between after request generation hlog hspeak _ chunk hplay
  obtain ⟨early, late, rfl⟩ := List.append_of_mem hplay
  refine h (before ++ .cancelRead generation :: (between ++ .cancelHandled generation :: early))
    late request chunk (by simpa using hlog) ?_
  exact ⟨before, between, early, generation, rfl, hspeak⟩

/-- What a worker's step adds to the log. -/
inductive WorkerLog (s : GuestState) : List GuestEvent → Prop
  | nothing : WorkerLog s s.log
  | sent (f : Frame) (r : Option ℕ) : WorkerLog s (s.log ++ [.sent f r])
  | play (job : SpeechJob) (offset : ℕ) (chunk : Bytes)
      (hs : s.worker = .busy job (.call offset)) :
      WorkerLog s (s.log ++ [.play job.request chunk])

lemma WorkerMove.log (h : WorkerMove s o t) : WorkerLog s t.log := by
  cases h with
  | play job offset synth hs => exact .play job offset _ hs
  | message job phase phase' f hs hmessage => exact .sent f _
  | _ => exact .nothing

lemma WorkerLog.speak_mem {log : List GuestEvent} (h : WorkerLog s log) {n : ℕ}
    {generation : UInt32} : .speak n generation ∈ log ↔ .speak n generation ∈ s.log := by
  cases h <;> simp

lemma WorkerLog.handled {log : List GuestEvent} (h : WorkerLog s log) (hlog : Handled log request) :
    Handled s.log request := by
  cases h with
  | nothing => exact hlog
  | sent f r => exact (handled_append_singleton hlog).resolve_right (by simp)
  | play job offset chunk hs =>
      exact (handled_append_singleton hlog).resolve_right (by simp)

/-! ### The invariant -/

/-- What holds of the guest at all times, if no CANCEL has been lost. -/
structure CancelInv (s : GuestState) : Prop where
  /-- A job has the generation its request was read with. -/
  read : ∀ job, s.pendingJob = some job ∨ s.reader = .post job ∨ s.worker.job? = some job →
    .speak job.request job.generation ∈ s.log
  unique : ∀ n g g', .speak n g ∈ s.log → .speak n g' ∈ s.log → g = g'
  issued : ∀ n g, .speak n g ∈ s.log → n < s.requests
  active : ∀ job phase, s.worker = .busy job phase → phase ≠ .reset → phase ≠ .publish →
    s.activeGeneration = job.generation
  /-- A CANCEL that matched has found its requests started. -/
  storing : ∀ g r, s.reader = .cancelStore .frame g r → ∀ n, .speak n g ∈ s.log → Started n s
  sending : ∀ g r, s.reader = .cancelSend .frame g r → ∀ n, .speak n g ∈ s.log → Flagged n s
  handled : ∀ n, Handled s.log n → Quiet n s
  plays : PlaysHonoured s.log

lemma cancelInv_initial : CancelInv initialState where
  read := by simp [initialState, WorkerPc.job?]
  unique := by simp [initialState]
  issued := by simp [initialState]
  active := nofun
  storing := nofun
  sending := nofun
  handled := by
    rintro n ⟨before, between, after, g, hlog, -⟩
    have hmem : GuestEvent.cancelRead g ∈ initialState.log := by simp [hlog]
    simp [initialState] at hmem
  plays := by
    intro before after n chunk hlog
    have hmem : GuestEvent.play n chunk ∈ initialState.log := by simp [hlog]
    simp [initialState] at hmem

/-- A job that a worker's move leaves in the guest was there before. -/
lemma WorkerMove.jobs (h : WorkerMove s o t) {job : SpeechJob}
    (hjob : t.pendingJob = some job ∨ t.reader = .post job ∨ t.worker.job? = some job) :
    s.pendingJob = some job ∨ s.reader = .post job ∨ s.worker.job? = some job := by
  cases h with
  | idle pc synth hidle =>
      exact hjob.imp_right (Or.imp_right fun h => by simp [hidle.job_eq.2] at h)
  | take job' hs hpending =>
      rcases hjob with hjob | hjob | hjob
      · cases hjob
      · exact Or.inr (Or.inl hjob)
      · cases hjob
        exact Or.inl hpending
  | clear job' hs => exact hjob.imp_right (Or.imp_right nofun)
  | reset job' hs => simpa [hs, WorkerPc.job?] using hjob
  | publish job' hs => simpa [hs, WorkerPc.job?] using hjob
  | inner job' phase phase' synth language model hs hmove => simpa [hs, WorkerPc.job?] using hjob
  | play job' offset synth hs => simpa [hs, WorkerPc.job?] using hjob
  | message job' phase phase' f hs hmessage => simpa [hs, WorkerPc.job?] using hjob

/-- A published generation is the one of the job. -/
lemma WorkerMove.active (h : WorkerMove s o t)
    (hs : ∀ job phase, s.worker = .busy job phase → phase ≠ .reset → phase ≠ .publish →
      s.activeGeneration = job.generation) :
    ∀ job phase, t.worker = .busy job phase → phase ≠ .reset → phase ≠ .publish →
      t.activeGeneration = job.generation := by
  intro job phase hworker hreset hpublish
  cases h with
  | idle pc synth hidle =>
      obtain rfl : pc = .busy job phase := hworker
      exact absurd hidle.job_eq.2 (by simp [WorkerPc.job?])
  | take job' hs hpending => cases hworker; exact absurd rfl hreset
  | reset job' hs => cases hworker; exact absurd rfl hpublish
  | publish job' hs => cases hworker; rfl
  | inner job' phase' phase'' synth language model hs' hmove =>
      cases hworker
      cases hmove <;> exact hs _ _ hs' nofun nofun
  | play job' offset synth hs' =>
      cases hworker
      exact hs _ _ hs' nofun nofun
  | message job' phase' phase'' f hs' hmessage =>
      cases hworker
      cases hmessage <;> exact hs _ _ hs' nofun nofun
  | clear job' hs => cases hworker

/-- The worker plays nothing for a request that a CANCEL has covered: it is not about to call the
engine for a quiet request. -/
lemma WorkerLog.plays {log : List GuestEvent} (h : WorkerLog s log) (hinv : CancelInv s) :
    PlaysHonoured log := by
  cases h with
  | nothing => exact hinv.plays
  | sent f r => exact hinv.plays.append_singleton (by simp)
  | play job offset chunk hs =>
      refine hinv.plays.append_singleton fun n chunk' heq hhandled => ?_
      obtain ⟨rfl, -⟩ : job.request = n ∧ chunk = chunk' := by simpa using heq
      exact (hinv.handled _ hhandled).calling job (by rw [hs]; rfl) rfl

lemma WorkerMove.cancelInv (h : WorkerMove s o t) (hinv : CancelInv s) : CancelInv t := by
  have hlog := h.log
  obtain ⟨hreader, hrequests⟩ := h.reader
  refine ⟨fun job hjob => ?_, fun n g g' hn hn' => ?_, fun n g hn => ?_, h.active hinv.active,
    fun g r hr n hn => ?_, fun g r hr n hn => ?_, fun n hn => ?_, hlog.plays hinv⟩
  · exact hlog.speak_mem.2 (hinv.read job (h.jobs hjob))
  · exact hinv.unique n g g' (hlog.speak_mem.1 hn) (hlog.speak_mem.1 hn')
  · rw [hrequests]
    exact hinv.issued n g (hlog.speak_mem.1 hn)
  · exact h.started (hinv.storing g r (hreader ▸ hr) n (hlog.speak_mem.1 hn))
  · exact h.flagged (hinv.sending g r (hreader ▸ hr) n (hlog.speak_mem.1 hn))
  · exact h.quiet (hinv.handled n (hlog.handled hn))

lemma ReceiveMove.cancelInv (h : ReceiveMove s t) (hinv : CancelInv s) : CancelInv t := by
  cases h with
  | pass pc hpc =>
      have hpost : ∀ job, pc ≠ .post job := by
        rcases hpc with rfl | rfl | rfl | ⟨generation, rfl⟩ <;> exact nofun
      have hquiet : ∀ n, Quiet n s → Quiet n { s with reader := pc } :=
        fun n hn => (ReceiveMove.pass pc hpc).quiet hn
      refine ⟨fun job hjob => ?_, hinv.unique, hinv.issued, hinv.active, fun g r hr => ?_,
        fun g r hr => ?_, fun n hn => hquiet n (hinv.handled n hn), hinv.plays⟩
      · rcases hjob with hjob | hjob | hjob
        · exact hinv.read job (Or.inl hjob)
        · exact absurd hjob (hpost job)
        · exact hinv.read job (Or.inr (Or.inr hjob))
      · rcases hpc with rfl | rfl | rfl | ⟨generation, rfl⟩ <;> cases hr
      · rcases hpc with rfl | rfl | rfl | ⟨generation, rfl⟩ <;> cases hr
  | speak generation options text =>
      have hfresh : ∀ g, .speak s.requests g ∉ s.log :=
        fun g hg => absurd (hinv.issued _ g hg) (lt_irrefl _)
      refine ⟨fun job hjob => ?_, fun n g g' hn hn' => ?_, fun n g hn => ?_, hinv.active, nofun,
        nofun, fun n hn => ?_, hinv.plays.append_singleton (by simp)⟩
      · rcases hjob with hjob | hjob | hjob
        · exact List.mem_append_left _ (hinv.read job (Or.inl hjob))
        · cases hjob
          exact List.mem_append_right _ List.mem_cons_self
        · exact List.mem_append_left _ (hinv.read job (Or.inr (Or.inr hjob)))
      · simp only [List.mem_append, List.mem_singleton, GuestEvent.speak.injEq] at hn hn'
        rcases hn with hn | ⟨rfl, rfl⟩
        · rcases hn' with hn' | ⟨rfl, rfl⟩
          · exact hinv.unique n g g' hn hn'
          · exact absurd hn (hfresh g)
        · rcases hn' with hn' | ⟨-, rfl⟩
          · exact absurd hn' (hfresh g')
          · rfl
      · simp only [List.mem_append, List.mem_singleton, GuestEvent.speak.injEq] at hn
        rcases hn with hn | ⟨rfl, -⟩
        · exact (hinv.issued n g hn).trans (Nat.lt_succ_self _)
        · exact Nat.lt_succ_self _
      · exact (ReceiveMove.speak generation options text).quiet
          (hinv.handled n ((handled_append_singleton hn).resolve_right (by simp)))
  | cancel generation =>
      refine ⟨fun job hjob => ?_, fun n g g' hn hn' => ?_, fun n g hn => ?_, hinv.active, nofun,
        nofun, fun n hn => ?_, hinv.plays.append_singleton (by simp)⟩
      · rcases hjob with hjob | hjob | hjob
        · exact List.mem_append_left _ (hinv.read job (Or.inl hjob))
        · cases hjob
        · exact List.mem_append_left _ (hinv.read job (Or.inr (Or.inr hjob)))
      · exact hinv.unique n g g' (by simpa using hn) (by simpa using hn')
      · exact hinv.issued n g (by simpa using hn)
      · exact (ReceiveMove.cancel generation).quiet
          (hinv.handled n ((handled_append_singleton hn).resolve_right (by simp)))

/-! ### The reader's cancel -/

/-- If the CANCEL is not lost, the requests of its generation have started when
`cancelActive` looks. -/
lemma CancelInv.started (hinv : CancelInv s) (hseen : CancelSeen s .reader) {g : UInt32}
    (hs : s.reader = .cancelLoad .frame g) {n : ℕ} (hn : .speak n g ∈ s.log) : Started n s := by
  obtain ⟨hpending, hreset, -⟩ := hseen.1 g (by rw [hs]; rfl)
  have hgeneration (job : SpeechJob)
      (hjob : s.pendingJob = some job ∨ s.reader = .post job ∨ s.worker.job? = some job)
      (hrequest : job.request = n) : job.generation = g :=
    hinv.unique n _ _ (hrequest ▸ hinv.read job hjob) hn
  refine ⟨hinv.issued n g hn, by rw [hs]; trivial, fun job hjob hrequest => ?_, ?_⟩
  · exact hpending job hjob (hgeneration job (Or.inl hjob) hrequest)
  · cases hworker : s.worker with
    | busy job phase =>
        rintro hrequest rfl
        refine hreset job (by rw [hworker]; rfl) (hgeneration job (Or.inr (Or.inr ?_)) hrequest)
        rw [hworker]
        rfl
    | _ => trivial

/-- If in addition the generation is not the active one, the worker is on none of them. -/
lemma CancelInv.job_ne_of_miss (hinv : CancelInv s) (hseen : CancelSeen s .reader) {g : UInt32}
    (hs : s.reader = .cancelLoad .frame g) (hne : s.activeGeneration ≠ g) {n : ℕ}
    (hn : .speak n g ∈ s.log) : ∀ job ∈ s.worker.job?, job.request ≠ n := by
  intro job hjob hrequest
  have hgeneration : job.generation = g :=
    hinv.unique n _ _ (hrequest ▸ hinv.read job (Or.inr (Or.inr hjob))) hn
  cases hworker : s.worker with
  | busy job' phase =>
      obtain rfl : job' = job := by simpa [hworker, WorkerPc.job?] using hjob
      have hreset : phase ≠ .reset := by
        have hphase := (hinv.started hseen hs hn).worker
        rw [hworker] at hphase
        exact hphase hrequest
      -- a job that has started is published, or the guard says what is
      have hactive : s.activeGeneration = g := by
        by_cases hpublish : phase = .publish
        · subst hpublish
          exact (hseen.1 g (by rw [hs]; rfl)).2.2 _ (by rw [hworker]; rfl) hgeneration
        · rw [hinv.active _ phase hworker hreset hpublish, hgeneration]
      exact hne hactive
  | _ => simp [hworker, WorkerPc.job?] at hjob

lemma CancelInv.quiet_of_miss (hinv : CancelInv s) (hseen : CancelSeen s .reader) {g : UInt32}
    (hs : s.reader = .cancelLoad .frame g) (hne : s.activeGeneration ≠ g) {n : ℕ}
    (hn : .speak n g ∈ s.log) : Quiet n s := by
  have hstarted := hinv.started hseen hs hn
  have hjob := hinv.job_ne_of_miss hseen hs hne hn
  exact ⟨⟨hstarted.issued, hstarted.posting, hstarted.pending, flaggedWorker_of_ne hjob⟩,
    notCalling_of_ne hjob⟩

/-- The worker is about to call the engine for none of a CANCEL's requests when the reader is done
with it, if the CANCEL is not late. -/
lemma CancelInv.notCalling (hinv : CancelInv s) (hseen : CancelSeen s .reader) {g : UInt32}
    {r : Option ℕ} (hs : s.reader = .cancelSend .frame g r) {n : ℕ} (hn : .speak n g ∈ s.log) :
    NotCalling n s.worker := by
  intro job hjob hrequest
  have hspeak := hinv.read job (Or.inr (Or.inr (WorkerPc.job?_of_calling hjob)))
  exact hseen.2 g (by rw [hs]; rfl) job hjob (hinv.unique n _ _ (hrequest ▸ hspeak) hn)

/-- What the reader adds to the log, other than when it reads a frame. -/
inductive ReaderLog (s : GuestState) : List GuestEvent → Prop
  | nothing : ReaderLog s s.log
  | sent (f : Frame) (r : Option ℕ) : ReaderLog s (s.log ++ [.sent f r])
  | miss (g : UInt32) (hs : s.reader = .cancelLoad .frame g) (hne : s.activeGeneration ≠ g) :
      ReaderLog s (s.log ++ [.cancelHandled g])
  | answer (f : Frame) (g : UInt32) (r : Option ℕ) (hs : s.reader = .cancelSend .frame g r) :
      ReaderLog s (s.log ++ [.sent f r] ++ [.cancelHandled g])

lemma ReaderMove.log (h : ReaderMove s t) : ReaderLog s t.log := by
  cases h with
  | reject f => exact .sent f none
  | miss generation hs hne => exact .miss generation hs hne
  | answer generation r hs => exact .answer _ generation r hs
  | leave pc hpc f r => exact .sent f r
  | _ => exact .nothing

lemma ReaderLog.speak_mem {log : List GuestEvent} (h : ReaderLog s log) {n : ℕ}
    {generation : UInt32} : .speak n generation ∈ log ↔ .speak n generation ∈ s.log := by
  cases h <;> simp

lemma ReaderLog.plays {log : List GuestEvent} (h : ReaderLog s log) (hinv : CancelInv s) :
    PlaysHonoured log := by
  cases h with
  | nothing => exact hinv.plays
  | sent f r => exact hinv.plays.append_singleton (by simp)
  | miss g hs hne => exact hinv.plays.append_singleton (by simp)
  | answer f g r hs =>
      exact (hinv.plays.append_singleton (by simp)).append_singleton (by simp)

/-- A CANCEL that the reader finishes leaves the requests that it covers quiet. -/
lemma ReaderLog.quiet {log : List GuestEvent} (h : ReaderLog s log) (hinv : CancelInv s)
    (hseen : CancelSeen s .reader) {n : ℕ} (hn : Handled log n) : Quiet n s := by
  cases h with
  | nothing => exact hinv.handled n hn
  | sent f r => exact hinv.handled n ((handled_append_singleton hn).resolve_right (by simp))
  | miss g hs hne =>
      rcases handled_append_singleton hn with hn | ⟨g', hg, hspeak⟩
      · exact hinv.handled n hn
      · obtain rfl : g = g' := by simpa using hg
        exact hinv.quiet_of_miss hseen hs hne hspeak
  | answer f g r hs =>
      rcases handled_append_singleton hn with hn | ⟨g', hg, hspeak⟩
      · exact hinv.handled n ((handled_append_singleton hn).resolve_right (by simp))
      · obtain rfl : g = g' := by simpa using hg
        have hmem : .speak n g ∈ s.log := by simpa using hspeak
        exact ⟨hinv.sending g r hs n hmem, hinv.notCalling hseen hs hmem⟩

/-- A job that the reader leaves in the guest was there before. -/
lemma ReaderMove.jobs (h : ReaderMove s t) {job : SpeechJob}
    (hjob : t.pendingJob = some job ∨ t.reader = .post job ∨ t.worker.job? = some job) :
    s.pendingJob = some job ∨ s.reader = .post job ∨ s.worker.job? = some job := by
  cases h with
  | pass pc shuttingDown worker hpc hworker =>
      rcases hjob with hjob | rfl | hjob
      · exact Or.inl hjob
      · exact hpc.elim
      · rcases hworker with rfl | ⟨-, rfl⟩
        · exact Or.inr (Or.inr hjob)
        · cases hjob
  | post job' hs =>
      rcases hjob with hjob | hjob | hjob
      · cases hjob
        exact Or.inr (Or.inl hs)
      · cases hjob
      · exact Or.inr (Or.inr hjob)
  | leave pc hpc f r =>
      rcases hjob with hjob | rfl | hjob
      · exact Or.inl hjob
      · exact hpc.elim
      · exact Or.inr (Or.inr hjob)
  | _ => exact hjob.imp_right (Or.imp_left nofun)

lemma ReaderMove.active (h : ReaderMove s t) (hinv : CancelInv s) :
    ∀ job phase, t.worker = .busy job phase → phase ≠ .reset → phase ≠ .publish →
      t.activeGeneration = job.generation := by
  cases h with
  | pass pc shuttingDown worker hpc hworker =>
      rcases hworker with rfl | ⟨-, rfl⟩
      · exact hinv.active
      · exact nofun
  | _ => exact hinv.active

lemma ReaderMove.cancelInv (h : ReaderMove s t) (hseen : CancelSeen s .reader)
    (hinv : CancelInv s) : CancelInv t := by
  have hlog := h.log
  have hrequests : t.requests = s.requests := by cases h <;> rfl
  refine ⟨fun job hjob => ?_, fun n g g' hn hn' => ?_, fun n g hn => ?_, h.active hinv,
    fun g r hr n hn => ?_, fun g r hr n hn => ?_,
    fun n hn => h.quiet (hlog.quiet hinv hseen hn), hlog.plays hinv⟩
  · exact hlog.speak_mem.2 (hinv.read job (h.jobs hjob))
  · exact hinv.unique n g g' (hlog.speak_mem.1 hn) (hlog.speak_mem.1 hn')
  · rw [hrequests]
    exact hinv.issued n g (hlog.speak_mem.1 hn)
  · -- a CANCEL that has just matched
    rw [hlog.speak_mem] at hn
    cases h with
    | hit site generation hs heq =>
        cases hr
        have hstarted := hinv.started hseen hs hn
        exact ⟨hstarted.issued, trivial, hstarted.pending, hstarted.worker⟩
    | pass pc shuttingDown worker hpc hworker =>
        obtain rfl : pc = .cancelStore .frame g r := hr
        exact hpc.elim
    | leave pc hpc f r' =>
        obtain rfl : pc = .cancelStore .frame g r := hr
        exact hpc.elim
    | _ => cases hr
  · -- a CANCEL that has just set `cancelling`
    rw [hlog.speak_mem] at hn
    cases h with
    | store site generation r' hs =>
        cases hr
        have hstarted := hinv.storing g r hs n hn
        exact Started.flagged ⟨hstarted.issued, trivial, hstarted.pending, hstarted.worker⟩ rfl
    | pass pc shuttingDown worker hpc hworker =>
        obtain rfl : pc = .cancelSend .frame g r := hr
        exact hpc.elim
    | leave pc hpc f r' =>
        obtain rfl : pc = .cancelSend .frame g r := hr
        exact hpc.elim
    | _ => cases hr

/-! ### Runs -/

/-- A step of the guest keeps the invariant, unless it is one that loses a CANCEL. -/
lemma cancelInv_guestStep {a : GuestAction} (hinv : CancelInv s) (hseen : CancelSeen s a)
    (h : guestStep s a = some t) : CancelInv t := by
  cases a with
  | receive incoming =>
      rw [guestStep] at h
      split at h
      · exact (receiveMove h).cancelInv hinv
      · exact absurd h (by simp)
  | reader => exact (readerMove h).cancelInv hseen hinv
  | worker => exact (workerMove_workerStep h).cancelInv hinv
  | outside o => exact (workerMove_outsideStep h).cancelInv hinv

/-- **Cancels.** In every run in which no CANCEL is handled while a request of its generation
waits or is taken and not yet published, and none is done with while the worker is between its
load of `cancelling` and the call of the engine for one, every CANCEL is honoured. -/
theorem cancelHonoured_of_run (as : List GuestAction)
    (hrun : run guestStep initialState as = some s)
    (hseen : Along guestStep CancelSeen initialState as) : CancelHonoured s.log :=
  (run_invariant_along (fun _ _ _ hinv hseen h => cancelInv_guestStep hinv hseen h)
    cancelInv_initial hseen hrun).plays.cancelHonoured

/-- A request of 161 letters, which makes two chunks. -/
def twoChunkRequest : Frame where
  type := SamsungMessage.speak.code
  generation := 1
  payload := List.replicate SamsungSpeakOptions.byteSize 0 ++ List.replicate 161 97

def cancelRequest : Frame := ⟨SamsungMessage.cancel.code, 1, []⟩

/-- The request is read and taken, and the engine is initialised: the worker is at the head of
the loop. -/
def toFirstLoop : List GuestAction :=
  [.reader, .receive (.ofFrame twoChunkRequest), .reader, .reader, .worker, .worker, .worker,
    .worker, .worker, .outside (.initResults fun _ => 1), .worker]

/-- The CANCEL comes while the engine is in its first call. -/
def cancelInFirstCall : List GuestAction :=
  toFirstLoop ++ [.worker, .worker, .reader, .receive (.ofFrame cancelRequest), .reader, .reader,
    .reader, .outside (.return 1), .worker, .worker, .worker]

theorem cancelHonoured_cancelInFirstCall :
    ∃ s, run guestStep initialState cancelInFirstCall = some s ∧ CancelHonoured s.log := by
  have hsome : (run guestStep initialState cancelInFirstCall).isSome := by decide +kernel
  obtain ⟨s, hs⟩ := Option.isSome_iff_exists.1 hsome
  exact ⟨s, hs, cancelHonoured_of_run cancelInFirstCall hs (by decide +kernel)⟩

/-- The CANCEL comes while the request waits: `activeGeneration` is still 0. -/
def cancelWhilePending : List GuestAction :=
  [.reader, .receive (.ofFrame twoChunkRequest), .reader, .reader, .reader,
    .receive (.ofFrame cancelRequest), .reader, .worker, .worker, .worker, .worker, .worker,
    .outside (.initResults fun _ => 1), .worker, .worker, .worker]

lemma log_cancelWhilePending : (run guestStep initialState cancelWhilePending).map (·.log) =
    some [.sent ⟨SamsungMessage.ready.code, 0, []⟩ none, .speak 0 1, .cancelRead 1,
      .cancelHandled 1, .play 0 (List.replicate 160 97)] := by
  decide +kernel

theorem not_cancelHonoured_cancelWhilePending :
    ¬ ∀ (as : List GuestAction) (s : GuestState), run guestStep initialState as = some s →
      CancelHonoured s.log := by
  intro h
  obtain ⟨s, hs, hlog⟩ := Option.map_eq_some_iff.1 log_cancelWhilePending
  refine h cancelWhilePending s hs [.sent ⟨SamsungMessage.ready.code, 0, []⟩ none, .speak 0 1] []
    [.play 0 (List.replicate 160 97)] 0 1 hlog (by simp) ?_ (List.replicate 160 97) (by simp)
  simp [GuestEvent.Terminal]

/-- The CANCEL comes between the worker's load of `cancelling` and the call that it guards. -/
def cancelBeforeCall : List GuestAction :=
  toFirstLoop ++ [.worker, .reader, .receive (.ofFrame cancelRequest), .reader, .reader, .reader,
    .worker]

/-- It is answered, and the chunk is played all the same. -/
example : (run guestStep initialState cancelBeforeCall).map (·.log) =
    some [.sent ⟨SamsungMessage.ready.code, 0, []⟩ none, .speak 0 1, .cancelRead 1,
      .sent ⟨SamsungMessage.cancelled.code, 1, []⟩ (some 0), .cancelHandled 1,
      .play 0 (List.replicate 160 97)] := by
  decide +kernel

end SamsungTVVoices.Guest
