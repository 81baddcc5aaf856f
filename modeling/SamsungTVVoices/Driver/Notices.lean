/-
What NVDA is told of a job (`samsungTVVoices.py`, `_worker`, `_render`, `_synthesizeText`).

An exception in `_synthesizeText` goes through `_render` to the handler of `_worker`, which only
logs it: the rest of the indexes and `synthDoneSpeaking` are not notified then.  `Unharmed` are
the steps in which `_synthesizeText` neither raises nor returns None; a job that stays current has
all its notices, each once and in order, exactly if no other step is taken for it
(`notified_iff`).  The helper's process may end at any time here, and its connection at any write.
The player, on the other hand, never raises: every `feed` and `idle` returns.
-/
import SamsungTVVoices.Driver.Order

open StepSystem

namespace SamsungTVVoices.Driver

/-! ### The property -/

/-- The notices of a job: its indexes in order, and `synthDoneSpeaking`. -/
def notices : List SpeechEvent → List TraceEvent
  | [] => [.doneSpeaking]
  | .index i :: rest => .index i :: notices rest
  | .text _ :: rest => notices rest

def isNotice : TraceEvent → Bool
  | .index _ | .doneSpeaking => true
  | .feed _ | .idle => false

/-- What NVDA has been told of a call. -/
def noticesOf (trace : List (ℕ × TraceEvent)) (call : ℕ) : List TraceEvent :=
  (part trace call).filter isNotice

/-- A step of the driver, or an end of the helper that the driver sees only when it looks. -/
inductive FaultAction where
  | driver (a : DriverAction)
  /-- The process ends. -/
  | died
  /-- The write in `send` raises. -/
  | writeFails
deriving DecidableEq, Repr

/-- The worker is on the job, and the job is current. -/
def RendersCurrent (job : Job) (s : DriverState) : Prop :=
  s.worker.job? = some job ∧ s.isCurrent job = true

instance (job : Job) (s : DriverState) : Decidable (RendersCurrent job s) :=
  inferInstanceAs (Decidable (_ ∧ _))

section

variable (settings : Settings) (scaleSample : ℤ → UInt16 → UInt16)

def faultStep (s : DriverState) : FaultAction → Option DriverState
  | .driver (.hostStart ok) =>
      -- `_startOnce` makes a new queue and a new connection
      (hostStart s ok).map fun t => if s.running then t else { t with outgoing := [], inbox := [] }
  | .driver a => driverStep settings scaleSample s a
  | .died => if s.running then some { s with running := false } else none
  | .writeFails =>
      match s.worker with
      | .send job _ _ => some { s with worker := .leave job }
      | _ => none

/-- In the step, `_synthesizeText` neither raises nor returns None for a current job. -/
def Unharmed (s : DriverState) : FaultAction → Prop
  | .driver .worker =>
      match s.worker with
      -- the text can be encoded and sent, and the helper runs
      | .send _ text _ => Sendable text ∧ s.running = true
      -- the message is neither the reader's own, for a helper that is gone, nor an answer that
      -- ends the request without DONE
      | .wait job _ _ .getMessage => ∀ mail ∈ s.inbox.head?, mail.message.messageType ≠ none ∧
          (mail.message.generation = job.generation →
            mail.message.messageType ≠ some SamsungMessage.cancelled.code ∧
              mail.message.messageType ≠ some SamsungMessage.error.code)
      | .wait _ _ _ .stalled => False
      | .wait _ _ _ (.feed mail) =>
          (scaleVolume scaleSample mail.message.payload settings.volume).isSome
      | _ => True
  -- the helper starts
  | .driver (.hostStart ok) => ok = true
  | .writeFails => False
  | _ => True

end

/-! ### What is still to come -/

/-- The notices that are still to come if nothing goes wrong; `none` if it has gone wrong. -/
def WorkerPc.owed : WorkerPc → Option (List TraceEvent)
  | .starting | .get => none
  | .check job | .enter job => some (notices job.events)
  | .head _ rest | .ensure _ _ rest | .send _ _ rest | .completed _ rest | .idle _ rest =>
      some (notices rest)
  | .notify _ i rest => some (.index i :: notices rest)
  | .wait _ _ true _ | .wait _ _ _ .stop | .wait _ _ _ .restart => none
  | .wait _ rest false _ => some (notices rest)
  | .notifyDone _ => some [.doneSpeaking]
  | .leave _ => some []

/-- The notices so far and those still to come are all of the job. -/
def OnCourse (job : Job) (s : DriverState) : Prop :=
  s.worker.job? = some job ∧
    ∃ owed ∈ s.worker.owed, noticesOf s.trace job.call ++ owed = notices job.events

/-- The worker is about to give the job up. -/
inductive GivenUp (job : Job) : WorkerPc → Prop
  | leave : GivenUp job (.leave job)
  | stop (rest : List SpeechEvent) (cancelled : Bool) :
      GivenUp job (.wait job rest cancelled .stop)
  | restart (rest : List SpeechEvent) (cancelled : Bool) :
      GivenUp job (.wait job rest cancelled .restart)

/-- The worker gives the job up without `synthDoneSpeaking`. -/
def Lost (job : Job) (s : DriverState) : Prop :=
  GivenUp job s.worker ∧ .doneSpeaking ∉ part s.trace job.call

variable {settings : Settings} {scaleSample : ℤ → UInt16 → UInt16} {s t : DriverState}
  {job : Job} {a : DriverAction} {pc pc' : WorkerPc}

lemma noticesOf_append_self (trace : List (ℕ × TraceEvent)) (call : ℕ) (e : TraceEvent) :
    noticesOf (trace ++ [(call, e)]) call =
      noticesOf trace call ++ if isNotice e then [e] else [] := by
  rw [noticesOf, part_append_self, List.filter_append]
  cases h : isNotice e <;> simp [noticesOf, h]

lemma exists_notices_eq (events : List SpeechEvent) :
    ∃ earlier, notices events = earlier ++ [.doneSpeaking] ∧ .doneSpeaking ∉ earlier := by
  induction events with
  | nil => exact ⟨[], rfl, List.not_mem_nil⟩
  | cons e rest ih =>
      obtain ⟨earlier, hearlier, hnot⟩ := ih
      cases e with
      | index i => exact ⟨.index i :: earlier, by simp [notices, hearlier], by simpa using hnot⟩
      | text t => exact ⟨earlier, hearlier, hnot⟩

/-- As long as the notices of some events are to come, there has been no `synthDoneSpeaking`. -/
lemma OnCourse.not_done (h : OnCourse job s) {rest : List SpeechEvent}
    (howed : s.worker.owed = some (notices rest)) : .doneSpeaking ∉ part s.trace job.call := by
  obtain ⟨-, owed, hmem, hall⟩ := h
  obtain rfl : owed = notices rest := Option.some.inj (hmem.symm.trans howed)
  obtain ⟨later, hlater, -⟩ := exists_notices_eq rest
  obtain ⟨earlier, hearlier, hnot⟩ := exists_notices_eq job.events
  rw [hlater, hearlier, ← List.append_assoc] at hall
  obtain ⟨heq, -⟩ := List.append_inj' hall rfl
  intro hdone
  refine hnot (heq ▸ List.mem_append_left _ ?_)
  exact List.mem_filter.2 ⟨hdone, rfl⟩

/-! ### Steps in which nothing goes wrong -/

/-- The main thread leaves the worker and the trace alone. -/
lemma same_of_mainStep (h : mainStep s = some t) : t.worker = s.worker ∧ t.trace = s.trace := by
  unfold mainStep at h
  split at h
  case h_1 => cases h
  case h_4 =>
    split at h
    · cases h; exact ⟨rfl, rfl⟩
    · cases h; exact ⟨rfl, rfl⟩
  all_goals
    cases h
    exact ⟨rfl, rfl⟩

/-- What neither the worker does nor its waits and its start of the helper. -/
def DriverAction.Aside : DriverAction → Prop
  | .worker | .hostStart _ | .empty _ _ => False
  | _ => True

lemma same_of_aside (h : driverStep settings scaleSample s a = some t) (ha : a.Aside) :
    t.worker = s.worker ∧ t.trace = s.trace := by
  cases a with
  | speak items =>
      obtain ⟨-, rfl | rfl⟩ := exists_speak h
      · exact ⟨rfl, rfl⟩
      · exact ⟨rfl, rfl⟩
  | cancel =>
      obtain ⟨-, rfl⟩ := exists_cancel h
      exact ⟨rfl, rfl⟩
  | main => exact same_of_mainStep h
  | arrive mail =>
      change arrive s mail = some t at h
      unfold arrive at h
      split at h
      · cases h; exact ⟨rfl, rfl⟩
      · cases h
  | _ => exact ha.elim

lemma OnCourse.move (h : OnCourse job s) (hjob : t.worker.job? = some job)
    (howed : t.worker.owed = s.worker.owed)
    (htrace : noticesOf t.trace job.call = noticesOf s.trace job.call) : OnCourse job t := by
  obtain ⟨-, owed, hmem, hall⟩ := h
  exact ⟨hjob, owed, by rw [howed]; exact hmem, by rw [htrace, hall]⟩

/-- What an unharmed silent move of a current job leaves to come. -/
lemma Silent.owed (h : Silent settings scaleSample s pc pc') (hworker : s.worker = pc)
    (hrenders : RendersCurrent job s) (howed : pc.owed ≠ none)
    (hunharmed : Unharmed settings scaleSample s (.driver .worker)) :
    pc'.job? = some job ∧ pc'.owed = pc.owed := by
  obtain ⟨hjob, hcurrent⟩ := hrenders
  rw [hworker] at hjob
  simp only [Unharmed, hworker] at hunharmed
  cases h with
  | check j h => exact ⟨hjob, rfl⟩
  | discard j h => cases hjob; exact absurd h (by simp [hcurrent])
  | refuse j h => cases hjob; exact absurd h (by simp [hcurrent])
  | index j i rest h => exact ⟨hjob, rfl⟩
  | text j t rest h => exact ⟨hjob, rfl⟩
  | finished j h => exact ⟨hjob, rfl⟩
  | cut j rest h => cases hjob; exact absurd h (by simp [hcurrent])
  | running j t rest h => exact ⟨hjob, rfl⟩
  | unsent j t rest h =>
      rcases h with h | h
      · obtain ⟨bytes, -, hframe⟩ := speakFrame_of_sendable hunharmed.1 settings j.generation
        exact absurd h (by simp [hframe])
      · exact absurd hunharmed.2 (by simp [h])
  | loop j rest cancelled =>
      cases cancelled with
      | true => exact absurd rfl howed
      | false =>
          cases hjob
          rw [hcurrent]
          exact ⟨rfl, rfl⟩
  | fail j rest cancelled => exact hunharmed.elim
  | endure j rest cancelled => exact hunharmed.elim
  | play j rest cancelled mail h => exact ⟨hjob, by cases cancelled <;> rfl⟩
  | drop j rest cancelled mail h => exact ⟨hjob, by cases cancelled <;> rfl⟩
  | unscaled j rest cancelled mail h => exact absurd hunharmed (by simp [h])
  | idle j rest h => exact ⟨hjob, rfl⟩
  | late j rest h => cases hjob; exact absurd h (by simp [hcurrent])

lemma Shown.onCourse {e : TraceEvent} {j : Job} (h : Shown s.worker j e pc)
    (hs : OnCourse job s) : OnCourse job (s.emit j e pc) := by
  obtain ⟨hjob, owed, howed, hall⟩ := hs
  generalize hworker : s.worker = old at h hjob howed
  cases h with
  | index j i rest =>
      cases hjob
      cases howed
      refine ⟨rfl, _, rfl, ?_⟩
      show noticesOf (s.trace ++ [(job.call, .index i)]) job.call ++ notices rest = _
      rw [noticesOf_append_self, ← hall]
      simp [isNotice]
  | idle j rest =>
      cases hjob
      cases howed
      refine ⟨rfl, _, rfl, ?_⟩
      show noticesOf (s.trace ++ [(job.call, .idle)]) job.call ++ notices rest = _
      rw [noticesOf_append_self, ← hall]
      simp [isNotice]
  | doneSpeaking j =>
      cases hjob
      cases howed
      refine ⟨rfl, _, rfl, ?_⟩
      show noticesOf (s.trace ++ [(job.call, .doneSpeaking)]) job.call ++ [] = _
      rw [noticesOf_append_self, ← hall]
      simp [isNotice]

/-- An unharmed step of the worker keeps a current job on course, until it lets go of it. -/
lemma OnCourse.workerMove (hmove : WorkerMove settings scaleSample s t) (hs : OnCourse job s)
    (hrenders : RendersCurrent job s)
    (hunharmed : Unharmed settings scaleSample s (.driver .worker))
    (ht : t.worker.job? = some job) : OnCourse job t := by
  obtain ⟨owed, howed, -⟩ := hs.2
  cases hmove with
  | silent pc h =>
      obtain ⟨hjob, heq⟩ := h.owed rfl hrenders (by rw [howed]; exact nofun) hunharmed
      exact hs.move hjob heq rfl
  | take j jobs hworker hjobs =>
      rw [hworker] at howed
      cases howed
  | enter j hworker h => exact hs.move ht (by rw [hworker]; rfl) rfl
  | shown j e pc h => exact h.onCourse hs
  | send j text rest frame hworker hframe hrunning =>
      exact hs.move ht (by rw [hworker]; rfl) rfl
  | pass j rest cancelled mail inbox pc hworker hinbox h =>
      have hjob := hs.1
      rw [hworker] at hjob howed
      simp only [Unharmed, hworker, hinbox, List.head?_cons] at hunharmed
      cases cancelled with
      | true => cases howed
      | false =>
          refine hs.move hjob ?_ rfl
          rw [hworker]
          cases h with
          | stopped htype => exact absurd htype (hunharmed mail rfl).1
          | _ => rfl
  | ended j rest cancelled mail inbox pc hworker hinbox h =>
      have hjob := hs.1
      rw [hworker] at hjob howed
      cases hjob
      simp only [Unharmed, hworker, hinbox, List.head?_cons] at hunharmed
      cases cancelled with
      | true => cases howed
      | false =>
          cases h with
          | done hgeneration htype => exact hs.move ht (by rw [hworker]; rfl) rfl
          | failed hgeneration htype =>
              obtain ⟨hcancelled, herror⟩ := (hunharmed mail rfl).2 hgeneration
              exact (htype.elim hcancelled herror).elim
  | feed j rest cancelled mail data hworker hdata =>
      have hjob := hs.1
      rw [hworker] at hjob howed
      cases hjob
      cases cancelled with
      | true => cases howed
      | false =>
          refine hs.move ht (by rw [hworker]; rfl) ?_
          show noticesOf (s.trace ++ [(job.call, .feed data)]) job.call = _
          rw [noticesOf_append_self]
          simp [isNotice]
  | stop j rest cancelled hworker =>
      rw [hworker] at howed
      cases cancelled <;> cases howed
  | leave j hworker => cases ht

/-- A step of another party leaves the trace alone; it is `start` that can fail. -/
lemma OnCourse.driverStep (hs : OnCourse job s)
    (h : Driver.driverStep settings scaleSample s a = some t) (hrenders : RendersCurrent job s)
    (hunharmed : Unharmed settings scaleSample s (.driver a)) (ht : t.worker.job? = some job) :
    OnCourse job t := by
  cases a with
  | worker => exact hs.workerMove (workerMove_workerStep h) hrenders hunharmed ht
  | hostStart ok =>
      obtain rfl : ok = true := hunharmed
      change hostStart s true = some t at h
      have htrace := (outsideMove_hostStart h).trace
      refine hs.move ht ?_ (by rw [htrace])
      obtain ⟨owed, howed, -⟩ := hs.2
      unfold hostStart at h
      split at h
      case h_1 hworker => rw [hworker] at howed; cases howed
      case h_2 j text rest hworker =>
        split at h
        · cases h
        · cases h; rw [hworker]; rfl
      case h_3 j rest cancelled hworker =>
        rw [hworker] at howed
        cases cancelled <;> cases howed
      case h_4 => cases h
  | empty cancelledLong stalled =>
      obtain ⟨j, rest, cancelled, w, hworker, -, rfl, hpolled, -⟩ := exists_polled h
      refine hs.move ht ?_ rfl
      obtain ⟨owed, howed, -⟩ := hs.2
      rw [hworker] at howed ⊢
      cases cancelled with
      | true => cases howed
      | false =>
          cases hpolled with
          | giveUp hgiveUp => cases hgiveUp
          | _ => rfl
  | _ =>
      obtain ⟨hworker, htrace⟩ := same_of_aside h trivial
      exact hs.move ht (by rw [hworker]) (by rw [htrace])

/-! ### The step in which something goes wrong -/

/-- A message that ends a request without DONE, or the helper, ends the job. -/
lemma OnCourse.lost_of_message {rest : List SpeechEvent} {mail : Mail} {inbox : List Mail}
    (hs : OnCourse job s) (hworker : s.worker = .wait job rest false .getMessage)
    (hharm : ¬(mail.message.messageType ≠ none ∧
      (mail.message.generation = job.generation →
        mail.message.messageType ≠ some SamsungMessage.cancelled.code ∧
          mail.message.messageType ≠ some SamsungMessage.error.code))) :
    Lost job (dispatch { s with inbox := inbox } job rest false mail) := by
  have hnot : .doneSpeaking ∉ part s.trace job.call := hs.not_done (by rw [hworker]; rfl)
  rw [dispatch]
  split
  · exact ⟨.stop rest false, hnot⟩
  · next type htype =>
      rw [htype] at hharm
      simp only [ne_eq, reduceCtorEq, not_false_eq_true, true_and, Option.some.injEq,
        Classical.not_imp, not_and_or, not_not] at hharm
      obtain ⟨hgeneration, hends⟩ := hharm
      rw [if_neg (not_not.2 hgeneration)]
      rcases hends with rfl | rfl
      · exact ⟨.leave, hnot⟩
      · exact ⟨.leave, hnot⟩

lemma OnCourse.lost_of_workerStep (hs : OnCourse job s)
    (h : workerStep settings scaleSample s = some t) (hrenders : RendersCurrent job s)
    (hharm : ¬Unharmed settings scaleSample s (.driver .worker)) : Lost job t := by
  obtain ⟨hjob, hcurrent⟩ := hrenders
  have hcourse := hs
  obtain ⟨-, owed, howed, -⟩ := hs
  generalize hworker : s.worker = pc at hjob howed
  simp only [Unharmed, hworker] at hharm
  cases pc with
  | send j text rest =>
      cases hjob
      have hnot := hcourse.not_done (by rw [hworker]; rfl)
      simp only [workerStep, hworker] at h
      split at h
      · cases h; exact ⟨.leave, hnot⟩
      · next frame hframe =>
          rw [if_neg fun hrunning => hharm ⟨sendable_of_speakFrame hframe, hrunning⟩] at h
          cases h
          exact ⟨.leave, hnot⟩
  | wait j rest cancelled w =>
      cases hjob
      obtain rfl : cancelled = false := by
        cases cancelled with
        | true => cases howed
        | false => rfl
      simp only [workerStep, hworker] at h
      have hnot (howed : s.worker.owed = some (notices rest)) :
          .doneSpeaking ∉ part s.trace job.call := hcourse.not_done howed
      cases w with
      | getMessage =>
          rw [waitStep] at h
          split at h
          · cases h
          · next mail inbox hinbox =>
              cases h
              refine hcourse.lost_of_message hworker fun hmail => hharm ?_
              rw [hinbox]
              rintro _ ⟨⟩
              exact hmail
      | stalled =>
          rw [waitStep, if_pos hcurrent] at h
          cases h
          exact ⟨.stop rest false, hnot (by rw [hworker]; rfl)⟩
      | feed mail =>
          rw [waitStep] at h
          split at h
          · cases h; exact ⟨.leave, hnot (by rw [hworker]; rfl)⟩
          · next data hdata => exact absurd (Option.isSome_of_eq_some hdata) hharm
      | _ => exact absurd trivial hharm
  | _ => exact absurd trivial hharm

lemma OnCourse.lost (hs : OnCourse job s) (h : Driver.driverStep settings scaleSample s a = some t)
    (hrenders : RendersCurrent job s) (hharm : ¬Unharmed settings scaleSample s (.driver a)) :
    Lost job t := by
  cases a with
  | worker => exact hs.lost_of_workerStep h hrenders hharm
  | hostStart ok =>
      obtain rfl : ok = false := by simpa [Unharmed] using hharm
      obtain ⟨hjob, owed, howed, -⟩ := id hs
      change hostStart s false = some t at h
      unfold hostStart at h
      split at h
      case h_1 hworker => rw [hworker] at hjob; cases hjob
      case h_2 j text rest hworker =>
        have hnot := hs.not_done (by rw [hworker]; rfl)
        rw [hworker] at hjob
        cases hjob
        split at h
        · cases h
        · cases h; exact ⟨.leave, hnot⟩
      case h_3 j rest cancelled hworker =>
        rw [hworker] at howed
        cases cancelled <;> cases howed
      case h_4 => cases h
  | _ => exact absurd trivial hharm

/-- When the worker gives the job up, it adds nothing to the trace any more. -/
lemma GivenUp.driverStep (hgiven : GivenUp job s.worker)
    (h : Driver.driverStep settings scaleSample s a = some t) :
    t.trace = s.trace ∧ (GivenUp job t.worker ∨ t.worker = .get) := by
  cases a with
  | worker =>
      change workerStep settings scaleSample s = some t at h
      generalize hworker : s.worker = pc at hgiven
      cases hgiven with
      | leave =>
          simp only [workerStep, hworker] at h
          cases h
          exact ⟨rfl, Or.inr rfl⟩
      | stop rest cancelled =>
          simp only [workerStep, hworker, waitStep] at h
          cases h
          exact ⟨rfl, Or.inl (.restart rest cancelled)⟩
      | restart rest cancelled =>
          simp only [workerStep, hworker, waitStep] at h
          cases h
  | hostStart ok =>
      change hostStart s ok = some t at h
      generalize hworker : s.worker = pc at hgiven
      cases hgiven with
      | leave =>
          simp only [hostStart, hworker] at h
          cases h
      | stop rest cancelled =>
          simp only [hostStart, hworker] at h
          cases h
      | restart rest cancelled =>
          simp only [hostStart, hworker] at h
          cases h
          exact ⟨rfl, Or.inl .leave⟩
  | empty cancelledLong stalled =>
      obtain ⟨j, rest, cancelled, w, hworker, -⟩ := exists_polled h
      rw [hworker] at hgiven
      cases hgiven
  | _ =>
      obtain ⟨hworker, htrace⟩ := same_of_aside h trivial
      exact ⟨htrace, Or.inl (hworker ▸ hgiven)⟩

/-! ### The notices of a call -/

/-- The job of the worker, if `_render` has not entered it. -/
def WorkerPc.unheard? : WorkerPc → Option Job
  | .check job | .enter job => some job
  | _ => none

/-- The jobs for which nothing has been done. -/
def unheard (s : DriverState) : List Job := s.worker.unheard?.toList ++ waiting s

/-- Every call has one job at most, and a trace only once the worker is on it. -/
structure CallInv (s : DriverState) : Prop where
  nodup : ((line s).map (·.call)).Nodup
  known : ∀ job ∈ line s, job.call < s.calls.length
  traced : ∀ e ∈ s.trace, e.1 < s.calls.length
  fresh : ∀ job ∈ unheard s, ∀ e ∈ s.trace, e.1 ≠ job.call

/-- What a step does to the jobs and to the trace. -/
inductive CallMove (s t : DriverState) : Prop
  | drop (hline : (line t).Sublist (line s)) (hunheard : unheard t ⊆ unheard s)
      (htrace : t.trace = s.trace) (hcalls : t.calls.length = s.calls.length)
  | add (job : Job) (hcall : job.call = s.calls.length) (hline : line t = line s ++ [job])
      (hunheard : unheard t = unheard s ++ [job]) (htrace : t.trace = s.trace)
      (hcalls : t.calls.length = s.calls.length + 1)
  | tell (job : Job) (e : TraceEvent) (hjob : s.worker.job? = some job)
      (hline : line t = line s) (hunheard : unheard t = waiting s)
      (htrace : t.trace = s.trace ++ [(job.call, e)]) (hcalls : t.calls.length = s.calls.length)

lemma CallInv.nodup_waiting (h : CallInv s) (hjob : s.worker.job? = some job) :
    ∀ j ∈ waiting s, j.call ≠ job.call := by
  have hnodup := h.nodup
  rw [line, hjob, Option.toList_some, List.singleton_append, List.map_cons, List.nodup_cons]
    at hnodup
  exact fun j hj heq => hnodup.1 (heq ▸ List.mem_map_of_mem hj)

lemma CallInv.step (h : CallInv s) (hmove : CallMove s t) : CallInv t := by
  cases hmove with
  | drop hline hunheard htrace hcalls =>
      exact ⟨h.nodup.sublist (hline.map _),
        fun j hj => by rw [hcalls]; exact h.known j (hline.subset hj),
        by rw [htrace, hcalls]; exact h.traced,
        fun j hj => by rw [htrace]; exact h.fresh j (hunheard hj)⟩
  | add job hcall hline hunheard htrace hcalls =>
      refine ⟨?_, ?_, ?_, ?_⟩
      · rw [hline, List.map_append, List.nodup_append]
        refine ⟨h.nodup, List.nodup_singleton _, ?_⟩
        intro i hi i' hi'
        obtain ⟨j, hj, rfl⟩ := List.mem_map.1 hi
        obtain rfl : i' = job.call := List.mem_singleton.1 hi'
        rw [hcall]
        exact (h.known j hj).ne
      · intro j hj
        rw [hline, List.mem_append, List.mem_singleton] at hj
        rw [hcalls]
        rcases hj with hj | rfl
        · exact (h.known j hj).trans (Nat.lt_succ_self _)
        · rw [hcall]
          exact Nat.lt_succ_self _
      · intro e he
        rw [htrace] at he
        rw [hcalls]
        exact (h.traced e he).trans (Nat.lt_succ_self _)
      · intro j hj e he
        rw [htrace] at he
        rw [hunheard, List.mem_append, List.mem_singleton] at hj
        rcases hj with hj | rfl
        · exact h.fresh j hj e he
        · rw [hcall]
          exact (h.traced e he).ne
  | tell job e hjob hline hunheard htrace hcalls =>
      refine ⟨by rw [hline]; exact h.nodup, by rw [hline, hcalls]; exact h.known, ?_, ?_⟩
      · rw [htrace, hcalls]
        intro d hd
        rcases List.mem_append.1 hd with hd | hd
        · exact h.traced d hd
        · obtain rfl : d = (job.call, e) := List.mem_singleton.1 hd
          exact h.known job (mem_line_of_worker hjob)
      · rw [hunheard, htrace]
        intro j hj d hd
        rcases List.mem_append.1 hd with hd | hd
        · exact h.fresh j (List.mem_append_right _ hj) d hd
        · obtain rfl : d = (job.call, e) := List.mem_singleton.1 hd
          exact (h.nodup_waiting hjob j hj).symm

/-- Nothing more is done for the call. -/
def Past (call : ℕ) (s : DriverState) : Prop :=
  call < s.calls.length ∧ ∀ job ∈ line s, job.call ≠ call

lemma Past.step {call : ℕ} (h : Past call s) (hmove : CallMove s t) :
    Past call t ∧ part t.trace call = part s.trace call := by
  obtain ⟨hlt, hne⟩ := h
  cases hmove with
  | drop hline hunheard htrace hcalls =>
      exact ⟨⟨by rwa [hcalls], fun j hj => hne j (hline.subset hj)⟩, by rw [htrace]⟩
  | add job hcall hline hunheard htrace hcalls =>
      refine ⟨⟨by omega, fun j hj => ?_⟩, by rw [htrace]⟩
      rw [hline, List.mem_append, List.mem_singleton] at hj
      rcases hj with hj | rfl
      · exact hne j hj
      · omega
  | tell job e hjob hline hunheard htrace hcalls =>
      refine ⟨⟨by rwa [hcalls], by rwa [hline]⟩, ?_⟩
      rw [htrace, part_append_of_ne (hne job (mem_line_of_worker hjob))]

lemma CallMove.of_job (hjob : t.worker.job? = s.worker.job? ∨ t.worker.job? = none)
    (hunheard : t.worker.unheard? = s.worker.unheard? ∨ t.worker.unheard? = none)
    (hwaiting : (waiting t).Sublist (waiting s)) (htrace : t.trace = s.trace)
    (hcalls : t.calls.length = s.calls.length) : CallMove s t := by
  refine .drop ?_ ?_ htrace hcalls
  · refine List.Sublist.append ?_ hwaiting
    rcases hjob with hjob | hjob
    · rw [hjob]
    · rw [hjob]
      exact List.nil_sublist _
  · refine (List.Sublist.append ?_ hwaiting).subset
    rcases hunheard with hunheard | hunheard
    · rw [hunheard]
    · rw [hunheard]
      exact List.nil_sublist _

lemma Silent.unheard_eq (h : Silent settings scaleSample s pc pc') :
    pc'.unheard? = pc.unheard? ∨ pc'.unheard? = none := by
  cases h with
  | check job h => exact Or.inl rfl
  | _ => exact Or.inr rfl

lemma callMove_workerMove (hmove : WorkerMove settings scaleSample s t) : CallMove s t := by
  have hkeep {t : DriverState} (hjob : t.worker.job? = s.worker.job? ∨ t.worker.job? = none)
      (hunheard : t.worker.unheard? = none) (hjobs : t.jobs = s.jobs) (hmain : t.main = s.main)
      (htrace : t.trace = s.trace) (hcalls : t.calls = s.calls) : CallMove s t :=
    .of_job hjob (Or.inr hunheard) (by rw [waiting, waiting, hjobs, hmain]) htrace (by rw [hcalls])
  cases hmove with
  | silent pc h =>
      refine .of_job ?_ h.unheard_eq (List.Sublist.refl _) rfl rfl
      rcases h.job_eq with hjob | ⟨-, -, hnone, -⟩
      · exact Or.inl hjob
      · exact Or.inr hnone
  | take job jobs hworker hjobs =>
      refine .drop ?_ ?_ rfl rfl
      · simp [line, waiting, hworker, hjobs, WorkerPc.job?]
      · simp [unheard, waiting, hworker, hjobs, WorkerPc.unheard?]
  | enter job hworker h => exact hkeep (Or.inl (by rw [hworker]; rfl)) rfl rfl rfl rfl rfl
  | shown job e pc h =>
      refine .tell job e h.job_eq.1 ?_ ?_ rfl rfl
      · show pc.job?.toList ++ waiting s = line s
        rw [h.job_eq.2, line, h.job_eq.1]
      · show pc.unheard?.toList ++ waiting s = waiting s
        generalize s.worker = old at h
        cases h <;> rfl
  | send job text rest frame hworker hframe hrunning =>
      exact hkeep (Or.inl (by rw [hworker]; rfl)) rfl rfl rfl rfl rfl
  | pass job rest cancelled mail inbox pc hworker hinbox h =>
      exact hkeep (Or.inl (by rw [hworker]; rfl)) rfl rfl rfl rfl rfl
  | ended job rest cancelled mail inbox pc hworker hinbox h =>
      refine hkeep (Or.inl (by rw [hworker]; exact h.job_eq)) ?_ rfl rfl rfl rfl
      cases h <;> rfl
  | feed job rest cancelled mail data hworker hdata =>
      exact .tell job (.feed data) (by rw [hworker]; rfl) (by rw [line, line, hworker]; rfl) rfl
        rfl rfl
  | stop job rest cancelled hworker =>
      exact hkeep (Or.inl (by rw [hworker]; rfl)) rfl rfl rfl rfl rfl
  | leave job hworker => exact hkeep (Or.inr rfl) rfl rfl rfl rfl rfl

lemma waiting_of_mainStep (h : mainStep s = some t) :
    (waiting t).Sublist (waiting s) ∧ t.calls = s.calls ∧ t.requests = s.requests := by
  unfold mainStep at h
  split at h
  case h_1 => cases h
  case h_2 job hmain => cases h; simp [waiting, hmain, MainPc.job?]
  case h_3 active hmain => cases h; simp [waiting, hmain, MainPc.job?]
  case h_4 hmain =>
    split at h
    · cases h; simp [waiting, hmain, MainPc.job?]
    · next job jobs hjobs => cases h; simp [waiting, hjobs]
  case h_5 hmain => cases h; simp [waiting, hmain, MainPc.job?]

lemma callMove_driverStep (h : driverStep settings scaleSample s a = some t) : CallMove s t := by
  cases a with
  | speak items =>
      obtain ⟨hmain, rfl | rfl⟩ := exists_speak h
      · exact .of_job (Or.inl rfl) (Or.inl rfl) (List.Sublist.refl _) rfl rfl
      · refine .add ⟨s.calls.length, s.currentGeneration, speechEvents items⟩ rfl ?_ ?_ rfl ?_
        · simp [line, waiting, hmain, MainPc.job?]
        · simp [unheard, waiting, hmain, MainPc.job?]
        · exact List.length_append
  | cancel =>
      obtain ⟨hmain, rfl⟩ := exists_cancel h
      refine .of_job (Or.inl rfl) (Or.inl rfl) ?_ rfl List.length_mapIdx
      simp [waiting, hmain, MainPc.job?]
  | main =>
      obtain ⟨hworker, htrace⟩ := same_of_mainStep h
      obtain ⟨hwaiting, hcalls, -⟩ := waiting_of_mainStep h
      exact .of_job (Or.inl (by rw [hworker])) (Or.inl (by rw [hworker])) hwaiting htrace
        (by rw [hcalls])
  | worker => exact callMove_workerMove (workerMove_workerStep h)
  | hostStart ok =>
      change hostStart s ok = some t at h
      have hmove := outsideMove_hostStart h
      refine .of_job (Or.inl hmove.job) (Or.inr ?_) ?_ hmove.trace (by rw [hmove.calls])
      · unfold hostStart at h
        split at h
        case h_1 => cases h; rfl
        case h_2 =>
          split at h
          · cases h
          · cases h; split <;> rfl
        case h_3 => cases h; rfl
        case h_4 => cases h
      · rw [waiting, waiting, hmove.jobs, hmove.main]
  | empty cancelledLong stalled =>
      obtain ⟨j, rest, cancelled, w, hworker, -, rfl, -⟩ := exists_polled h
      exact .of_job (Or.inl (by rw [hworker]; rfl)) (Or.inr rfl) (List.Sublist.refl _) rfl rfl
  | arrive mail =>
      change arrive s mail = some t at h
      unfold arrive at h
      split at h
      · cases h; exact .of_job (Or.inl rfl) (Or.inl rfl) (List.Sublist.refl _) rfl rfl
      · cases h

/-! ### Every step -/

/-- A step of the driver's own, up to what is in flight between it and the helper. -/
lemma exists_driverStep (h : faultStep settings scaleSample s (.driver a) = some t) :
    ∃ t' outgoing inbox, driverStep settings scaleSample s a = some t' ∧
      t = { t' with outgoing := outgoing, inbox := inbox } := by
  cases a with
  | hostStart ok =>
      obtain ⟨t', ht', rfl⟩ := Option.map_eq_some_iff.1 h
      split
      · exact ⟨t', t'.outgoing, t'.inbox, ht', rfl⟩
      · exact ⟨t', [], [], ht', rfl⟩
  | _ => exact ⟨t, t.outgoing, t.inbox, h, rfl⟩

lemma exists_writeFails (h : faultStep settings scaleSample s .writeFails = some t) :
    ∃ j text rest, s.worker = .send j text rest ∧ t = { s with worker := .leave j } := by
  unfold faultStep at h
  dsimp only at h
  split at h
  · next j text rest hworker => cases h; exact ⟨j, text, rest, hworker, rfl⟩
  · cases h

lemma exists_died (h : faultStep settings scaleSample s .died = some t) :
    t = { s with running := false } := by
  unfold faultStep at h
  dsimp only at h
  split at h
  · cases h; rfl
  · cases h

variable {f : FaultAction}

/-- A step keeps a current job on course exactly if it is unharmed, and otherwise the job is
lost. -/
lemma OnCourse.step (hs : OnCourse job s) (h : faultStep settings scaleSample s f = some t)
    (hrenders : RendersCurrent job s) (ht : t.worker.job? = some job) :
    (Unharmed settings scaleSample s f → OnCourse job t) ∧
      (¬Unharmed settings scaleSample s f → Lost job t) := by
  cases f with
  | driver a =>
      obtain ⟨t', outgoing, inbox, ht', rfl⟩ := exists_driverStep h
      have hcourse (hunharmed : Unharmed settings scaleSample s (.driver a)) : OnCourse job t' :=
        hs.driverStep ht' hrenders hunharmed ht
      have hlost (hharm : ¬Unharmed settings scaleSample s (.driver a)) : Lost job t' :=
        hs.lost ht' hrenders hharm
      exact ⟨hcourse, hlost⟩
  | died =>
      obtain rfl := exists_died h
      exact ⟨fun _ => hs, fun hharm => absurd trivial hharm⟩
  | writeFails =>
      obtain ⟨j, text, rest, hworker, rfl⟩ := exists_writeFails h
      cases ht
      have hnot := hs.not_done (by rw [hworker]; rfl)
      exact ⟨False.elim, fun _ => ⟨.leave, hnot⟩⟩

lemma GivenUp.step (hgiven : GivenUp job s.worker)
    (h : faultStep settings scaleSample s f = some t) :
    t.trace = s.trace ∧ (GivenUp job t.worker ∨ t.worker = .get) := by
  cases f with
  | driver a =>
      obtain ⟨t', outgoing, inbox, ht', rfl⟩ := exists_driverStep h
      have hgives : t'.trace = s.trace ∧ (GivenUp job t'.worker ∨ t'.worker = .get) :=
        hgiven.driverStep ht'
      exact hgives
  | died =>
      obtain rfl := exists_died h
      exact ⟨rfl, Or.inl hgiven⟩
  | writeFails =>
      obtain ⟨j, text, rest, hworker, rfl⟩ := exists_writeFails h
      rw [hworker] at hgiven
      cases hgiven

/-- What is lost stays lost for as long as the worker is on the job. -/
lemma Lost.step (hs : Lost job s) (h : faultStep settings scaleSample s f = some t)
    (ht : t.worker.job? = some job) : Lost job t := by
  obtain ⟨htrace, hgiven | hget⟩ := hs.1.step h
  · exact ⟨hgiven, by rw [htrace]; exact hs.2⟩
  · rw [hget] at ht
    cases ht

lemma callMove_faultStep (h : faultStep settings scaleSample s f = some t) : CallMove s t := by
  cases f with
  | driver a =>
      obtain ⟨t', outgoing, inbox, ht', rfl⟩ := exists_driverStep h
      cases callMove_driverStep ht' with
      | drop hline hunheard htrace hcalls => exact .drop hline hunheard htrace hcalls
      | add job hcall hline hunheard htrace hcalls =>
          exact .add job hcall hline hunheard htrace hcalls
      | tell job e hjob hline hunheard htrace hcalls =>
          exact .tell job e hjob hline hunheard htrace hcalls
  | died =>
      obtain rfl := exists_died h
      exact .of_job (Or.inl rfl) (Or.inl rfl) (List.Sublist.refl _) rfl rfl
  | writeFails =>
      obtain ⟨j, text, rest, hworker, rfl⟩ := exists_writeFails h
      exact .of_job (Or.inl (by rw [hworker]; rfl)) (Or.inr rfl) (List.Sublist.refl _) rfl rfl

/-! ### Runs -/

lemma callInv_initialState (generation : UInt32) : CallInv (initialState generation) where
  nodup := List.nodup_nil
  known := nofun
  traced := nofun
  fresh := nofun

/-- A run in which the worker has not let go of the job at the end is on the job after the first
step. -/
lemma job_of_along {fs : List FaultAction} {v : DriverState}
    (hrenders : Along (faultStep settings scaleSample) (fun s _ => RendersCurrent job s) t fs)
    (hrun : run (faultStep settings scaleSample) t fs = some v)
    (hv : v.worker.job? = some job) : t.worker.job? = some job := by
  cases fs with
  | nil => cases hrun; exact hv
  | cons f fs => exact hrenders.1.1

lemma Lost.run {fs : List FaultAction} {v : DriverState} (hs : Lost job s)
    (hrenders : Along (faultStep settings scaleSample) (fun s _ => RendersCurrent job s) s fs)
    (hrun : StepSystem.run (faultStep settings scaleSample) s fs = some v)
    (hv : v.worker.job? = some job) : Lost job v := by
  induction fs generalizing s with
  | nil => cases hrun; exact hs
  | cons f fs ih =>
      obtain ⟨t, ht, hrun'⟩ := run_cons_eq_some.1 hrun
      have hrest := hrenders.2 t ht
      exact ih (hs.step ht (job_of_along hrest hrun' hv)) hrest hrun'

/-- The job is on course at the end of the run if every step was unharmed, and lost otherwise. -/
lemma OnCourse.run {fs : List FaultAction} {v : DriverState} (hs : OnCourse job s)
    (hrenders : Along (faultStep settings scaleSample) (fun s _ => RendersCurrent job s) s fs)
    (hrun : StepSystem.run (faultStep settings scaleSample) s fs = some v)
    (hv : v.worker.job? = some job) :
    (Along (faultStep settings scaleSample) (Unharmed settings scaleSample) s fs ∧
        OnCourse job v) ∨
      (¬Along (faultStep settings scaleSample) (Unharmed settings scaleSample) s fs ∧
        Lost job v) := by
  induction fs generalizing s with
  | nil => cases hrun; exact Or.inl ⟨trivial, hs⟩
  | cons f fs ih =>
      obtain ⟨t, ht, hrun'⟩ := run_cons_eq_some.1 hrun
      have hrest := hrenders.2 t ht
      obtain ⟨hcourse, hlost⟩ := hs.step ht hrenders.1 (job_of_along hrest hrun' hv)
      by_cases hunharmed : Unharmed settings scaleSample s f
      · rcases ih (hcourse hunharmed) hrest hrun' with ⟨halong, hcourse'⟩ | ⟨hnot, hlost'⟩
        · refine Or.inl ⟨⟨hunharmed, fun t' ht' => ?_⟩, hcourse'⟩
          obtain rfl := Option.some.inj (ht.symm.trans ht')
          exact halong
        · exact Or.inr ⟨fun halong => hnot (halong.2 t ht), hlost'⟩
      · exact Or.inr ⟨fun halong => hunharmed halong.1, (hlost hunharmed).run hrest hrun' hv⟩

/-- The worker gives the last job of the call up, or nothing more is done for the call. -/
def Over (job : Job) (s : DriverState) : Prop :=
  CallInv s ∧ GivenUp job s.worker ∨ Past job.call s

lemma Over.step (hs : Over job s) (h : faultStep settings scaleSample s f = some t) :
    Over job t ∧ part t.trace job.call = part s.trace job.call := by
  have hmove := callMove_faultStep h
  rcases hs with ⟨hinv, hgiven⟩ | hpast
  · obtain ⟨htrace, hgiven' | hget⟩ := hgiven.step h
    · exact ⟨Or.inl ⟨hinv.step hmove, hgiven'⟩, by rw [htrace]⟩
    have hjob : s.worker.job? = some job := by
      generalize s.worker = pc at hgiven
      cases hgiven <;> rfl
    have hunheard : s.worker.unheard? = none := by
      generalize s.worker = pc at hgiven
      cases hgiven <;> rfl
    have hline : line t = unheard t := by rw [line, unheard, hget]; rfl
    refine ⟨Or.inr ?_, by rw [htrace]⟩
    cases hmove with
    | drop hsub hnew _ hcalls =>
        refine ⟨by rw [hcalls]; exact hinv.known job (mem_line_of_worker hjob), fun j hj => ?_⟩
        have hwaiting := hnew (hline ▸ hj)
        rw [unheard, hunheard] at hwaiting
        exact hinv.nodup_waiting hjob j hwaiting
    | add j hcall hadd hnew _ hcalls =>
        rw [hline, hnew, unheard, hunheard, line, hjob] at hadd
        have hlength := congrArg List.length hadd
        simp at hlength
    | tell j e hj hsame hnew htell hcalls =>
        rw [htrace] at htell
        exact absurd htell (by simp)
  · obtain ⟨hpast', hpart⟩ := hpast.step hmove
    exact ⟨Or.inr hpast', hpart⟩

lemma Over.run {fs : List FaultAction} {v : DriverState} (hs : Over job s)
    (hrun : StepSystem.run (faultStep settings scaleSample) s fs = some v) :
    part v.trace job.call = part s.trace job.call := by
  induction fs generalizing s with
  | nil => cases hrun; rfl
  | cons f fs ih =>
      obtain ⟨t, ht, hrun'⟩ := run_cons_eq_some.1 hrun
      obtain ⟨hover, hpart⟩ := hs.step ht
      rw [ih hover hrun', hpart]

/-- **Notices.** NVDA is notified of every index of a job that stays current until `_render`
exits, and then of `synthDoneSpeaking`, each once and in order, exactly if no step for the job
harms it, with a player whose calls do not raise. -/
theorem notified_iff (settings : Settings) (scaleSample : ℤ → UInt16 → UInt16)
    (generation : UInt32) (before during after : List FaultAction) {u v t : DriverState}
    (hbefore : run (faultStep settings scaleSample) (initialState generation) before = some u)
    (htaken : u.worker = .check job)
    (hduring : run (faultStep settings scaleSample) u during = some v)
    (hrenders : Along (faultStep settings scaleSample) (fun s _ => RendersCurrent job s) u during)
    (hexits : v.worker = .leave job)
    (hafter : run (faultStep settings scaleSample) v after = some t) :
    noticesOf t.trace job.call = notices job.events ↔
      Along (faultStep settings scaleSample) (Unharmed settings scaleSample) u during := by
  have hinvu : CallInv u :=
    run_invariant (fun _ _ _ hinv h => hinv.step (callMove_faultStep h))
      (callInv_initialState generation) hbefore
  have hinvv : CallInv v :=
    run_invariant (fun _ _ _ hinv h => hinv.step (callMove_faultStep h)) hinvu hduring
  have hstart : OnCourse job u := by
    refine ⟨by rw [htaken]; rfl, notices job.events, by rw [htaken]; rfl, ?_⟩
    rw [noticesOf, part_eq_nil (hinvu.fresh job (by simp [unheard, htaken, WorkerPc.unheard?]))]
    rfl
  have hover : Over job v := Or.inl ⟨hinvv, by rw [hexits]; exact .leave⟩
  rw [noticesOf, hover.run hafter]
  rcases hstart.run hrenders hduring (by rw [hexits]; rfl) with ⟨halong, hcourse⟩ | ⟨hnot, hlost⟩
  · refine iff_of_true ?_ halong
    obtain ⟨-, owed, howed, hall⟩ := hcourse
    rw [hexits] at howed
    cases howed
    rw [← hall, List.append_nil]
    rfl
  · refine iff_of_false (fun hall => ?_) hnot
    obtain ⟨earlier, hearlier, -⟩ := exists_notices_eq job.events
    have hdone : .doneSpeaking ∈ (part v.trace job.call).filter isNotice := by
      rw [hall, hearlier]
      exact List.mem_append_right _ (List.mem_singleton.2 rfl)
    exact hlost.2 (List.mem_filter.1 hdone).1

/-- A letter and an index. -/
def letterJob : Job := ⟨0, 1, [.text [65], .index 7]⟩

/-- The worker takes the job. -/
def letterTaken : List FaultAction :=
  [.hostStart true, .speak [.str [65], .indexCommand 7], .main, .worker].map .driver

/-- The helper dies before the letter and is started again. -/
def letterAfterDeath : List FaultAction :=
  List.replicate 3 (.driver .worker) ++ [.died, .driver (.hostStart true)] ++
    List.replicate 2 (.driver .worker) ++ [.driver (.arrive ⟨doneMessage 1, none⟩)] ++
    List.replicate 7 (.driver .worker)

theorem notified_letterAfterDeath :
    ∃ u v t, run (faultStep plainSettings fun _ x => x) (initialState 0) letterTaken = some u ∧
      run (faultStep plainSettings fun _ x => x) u letterAfterDeath = some v ∧
      run (faultStep plainSettings fun _ x => x) v [.driver .worker] = some t ∧
      noticesOf t.trace 0 = [.index 7, .doneSpeaking] ∧
      Along (faultStep plainSettings fun _ x => x) (Unharmed plainSettings fun _ x => x) u
        letterAfterDeath := by
  have hrun : (run (faultStep plainSettings fun _ x => x) (initialState 0) letterTaken).any
      (fun u => decide (u.worker = .check letterJob) &&
        decide (Along (faultStep plainSettings fun _ x => x) (fun s _ => RendersCurrent letterJob s)
          u letterAfterDeath) &&
        (run (faultStep plainSettings fun _ x => x) u letterAfterDeath).any fun v =>
          decide (v.worker = .leave letterJob) &&
          (run (faultStep plainSettings fun _ x => x) v [.driver .worker]).any fun t =>
            decide (noticesOf t.trace 0 = [.index 7, .doneSpeaking])) = true := by
    decide +kernel
  simp only [Option.any_eq_true, Bool.and_eq_true, decide_eq_true_eq] at hrun
  obtain ⟨u, hu, ⟨htaken, hrenders⟩, v, hv, hexits, t, ht, htrace⟩ := hrun
  exact ⟨u, v, t, hu, hv, ht, htrace,
    (notified_iff plainSettings (fun _ x => x) 0 _ _ _ hu htaken hv hrenders hexits ht).1 htrace⟩

/-- The guest answers with ERROR. -/
def letterFailed : List FaultAction :=
  List.replicate 6 (.driver .worker) ++
    [.driver (.arrive ⟨⟨some SamsungMessage.error.code, 1, []⟩, none⟩), .driver .worker]

/-- An ERROR stops the job before its index and `synthDoneSpeaking`. -/
theorem not_notified_letterFailed :
    ¬ ∀ (settings : Settings) (scaleSample : ℤ → UInt16 → UInt16) (generation : UInt32)
      (before during after : List FaultAction) (u v t : DriverState) (job : Job),
      run (faultStep settings scaleSample) (initialState generation) before = some u →
      u.worker = .check job → run (faultStep settings scaleSample) u during = some v →
      Along (faultStep settings scaleSample) (fun s _ => RendersCurrent job s) u during →
      v.worker = .leave job → v.isCurrent job = true →
      run (faultStep settings scaleSample) v after = some t →
        noticesOf t.trace job.call = notices job.events := by
  intro h
  have hrun : (run (faultStep plainSettings fun _ x => x) (initialState 0) letterTaken).any
      (fun u => decide (u.worker = .check letterJob) &&
        decide (Along (faultStep plainSettings fun _ x => x) (fun s _ => RendersCurrent letterJob s)
          u letterFailed) &&
        (run (faultStep plainSettings fun _ x => x) u letterFailed).any fun v =>
          decide (v.worker = .leave letterJob) && v.isCurrent letterJob &&
          decide (noticesOf v.trace 0 = [])) = true := by
    decide +kernel
  simp only [Option.any_eq_true, Bool.and_eq_true, decide_eq_true_eq] at hrun
  obtain ⟨u, hu, ⟨htaken, hrenders⟩, v, hv, ⟨hexits, hcurrent⟩, htrace⟩ := hrun
  have hall := h plainSettings (fun _ x => x) 0 _ _ [] u v v letterJob hu htaken hv hrenders hexits
    hcurrent rfl
  rw [show letterJob.call = 0 from rfl, htrace] at hall
  cases hall

end SamsungTVVoices.Driver
