/-
How often the guest answers a request (`cancelActive`, `synthesisWorker`, `main`).

A reply is decided on before it is sent: the reader decides on CANCELLED when it finds the
generation active, the worker on DONE or ERROR when it finds `cancelling` clear after the loop or
when an initialisation fails.  Each thread looks only at one flag of the other, so both can
decide on a reply to the same request.  `Exclusive` keeps the two decisions apart; under it no
generation is answered twice (`oneReply_of_run`).

The argument is one list, `answers`: the generations of the replies that are sent or decided on.
-/
import SamsungTVVoices.Guest.Cancel
import SamsungTVVoices.Guest.Jobs
import SamsungTVVoices.Guest.Serve

open StepSystem

namespace SamsungTVVoices.Guest

/-! ### The client -/

/-- The generations of the replies that have been sent. -/
def replies (log : List GuestEvent) : List UInt32 :=
  (((sentFrames log).map (·.1)).filter isTerminal).map (·.generation)

/-- The generation of the request that an event accepts. -/
def accepted? : GuestEvent → Option UInt32
  | .speak _ generation => some generation
  | _ => none

/-- A SPEAK comes only after a reply to each SPEAK before it. -/
def WaitsForReply (s : GuestState) (a : GuestAction) : Prop :=
  (a.incoming?.bind (·.generation? .speak)).isSome →
    ∀ generation ∈ s.log.filterMap accepted?, generation ∈ replies s.log

instance (s : GuestState) (a : GuestAction) : Decidable (WaitsForReply s a) :=
  have := List.decidableBAll (· ∈ replies s.log) (s.log.filterMap accepted?)
  inferInstanceAs (Decidable (_ → _))

/-- What the guest may expect of its client. -/
structure WellBehaved (as : List GuestAction) : Prop where
  speaks : (generationsRead .speak as).Nodup
  cancels : (generationsRead .cancel as).Nodup
  waits : Along guestStep WaitsForReply initialState as

/-! ### Decisions -/

/-- The reply of the reader that is decided on and not sent. -/
def ReaderPc.owes : ReaderPc → Option UInt32
  | .rejectEmpty generation | .cancelStore _ generation _ | .cancelSend _ generation _ =>
      some generation
  | _ => none

/-- The reply of the worker that is decided on and not sent. -/
def WorkerPc.owes : WorkerPc → Option UInt32
  | .busy job .sendInitError | .busy job (.reply _) => some job.generation
  | _ => none

/-- The generations of the replies that are sent or decided on. -/
def answers (s : GuestState) : List UInt32 :=
  s.reader.owes.toList ++ s.worker.owes.toList ++ replies s.log

/-- The worker is on a job that it has published, and has still to decide on its reply. -/
def Phase.Undecided : Phase → Prop
  | .prepare | .control | .loop _ | .call _ | .playing _ _ | .callback _ _ _ _ | .stop _ => True
  | _ => False

instance : DecidablePred Phase.Undecided := fun phase => by
  cases phase <;> first | exact .isTrue trivial | exact .isFalse id

/-- The job whose reply the worker has still to decide on. -/
def WorkerPc.undecided? : WorkerPc → Option SpeechJob
  | .busy job phase => if phase.Undecided then some job else none
  | _ => none

/-- The reader is in `cancelActive` with a match of this generation. -/
def ReaderPc.cancels : ReaderPc → Option UInt32
  | .cancelStore _ generation _ | .cancelSend _ generation _ => some generation
  | _ => none

/-- The job that the worker is about to look at `cancelling` for, for the last time. -/
def WorkerPc.stopping? : WorkerPc → Option SpeechJob
  | .busy job (.stop _) => some job
  | _ => none

/-- `cancelActive` finds this generation active. -/
def ReaderPc.matches? (active : UInt32) : ReaderPc → Option UInt32
  | .cancelLoad _ generation => if active = generation then some generation else none
  | _ => none

/-- The decisions of the two threads are apart. -/
def Exclusive (s : GuestState) : GuestAction → Prop
  -- generation 0 stands for no request
  | .receive incoming => 0 ∉ incoming.generation? .speak
  -- `cancelActive` matches while the worker has still to decide, and for the first time; or
  -- there is no request, and no reply has said so yet
  | .reader => (s.reader.matches? s.activeGeneration).isSome →
      s.worker.undecided?.isSome ∧ s.cancelling = false ∨
        s.activeRequest = none ∧ 0 ∉ replies s.log
  | .worker => ∀ job ∈ s.worker.stopping?, s.cancelling = false →
      s.reader.cancels ≠ some job.generation
  | .outside (.initResults result) => ∀ job ∈ s.worker.jobAt .prepare,
      (initializeSynth result job.options).2 = false →
        s.cancelling = false ∧ s.reader.cancels ≠ some job.generation
  | .outside _ => True

instance (s : GuestState) : (a : GuestAction) → Decidable (Exclusive s a)
  | .receive _ => inferInstanceAs (Decidable (¬ _))
  | .reader => inferInstanceAs (Decidable (_ → _))
  | .worker => inferInstanceAs (Decidable (∀ job ∈ s.worker.stopping?, _))
  | .outside (.initResults _) => inferInstanceAs (Decidable (∀ job ∈ s.worker.jobAt .prepare, _))
  | .outside (.callback _) => .isTrue trivial
  | .outside (.return _) => .isTrue trivial
  | .outside .wake => .isTrue trivial

/-! ### The jobs in the guest -/

/-- The job that the worker has taken and not published. -/
def WorkerPc.unpublished? : WorkerPc → Option SpeechJob
  | .busy job .reset | .busy job .publish => some job
  | _ => none

/-- The generation that the worker has published. -/
def WorkerPc.published : WorkerPc → UInt32
  | .busy _ .reset | .busy _ .publish => 0
  | .busy job _ => job.generation
  | _ => 0

/-- The generations of the jobs in the guest. -/
def inGuest (s : GuestState) : List UInt32 :=
  (jobsIn s).map (·.generation)

/-- The generations of the jobs that the worker has not published yet. -/
def waiting (s : GuestState) : List UInt32 :=
  (s.worker.unpublished?.toList ++ s.pendingJob.toList ++ s.reader.posts.toList).map (·.generation)

/-- The generation for which the reader is about to set `cancelling`. -/
def ReaderPc.stores : ReaderPc → Option UInt32
  | .cancelStore _ generation _ => some generation
  | _ => none

/-- No generation is answered twice, and what keeps it so; `seen` are the generations of the SPEAK
messages so far. -/
structure ReplyInv (seen : List UInt32) (s : GuestState) : Prop where
  nodup : (answers s).Nodup
  distinct : (inGuest s).Nodup
  present : ∀ g ∈ inGuest s, g ≠ 0 ∧ g ∈ seen
  known : ∀ g ∈ answers s, g = 0 ∨ g ∈ seen
  unanswered : ∀ g ∈ waiting s, g ∉ answers s
  /-- The worker will see that it is cancelled. -/
  undecided : ∀ job ∈ s.worker.undecided?, job.generation ∈ answers s →
    s.cancelling = true ∨ s.reader.stores = some job.generation
  active : s.activeGeneration = s.worker.published

variable {s t : GuestState} {o : Option Outside} {seen : List UInt32}

lemma replyInv_initial : ReplyInv [] initialState where
  nodup := by decide
  distinct := by decide
  present _ hg := absurd hg List.not_mem_nil
  known _ hg := absurd hg List.not_mem_nil
  unanswered _ hg := absurd hg List.not_mem_nil
  undecided := nofun
  active := rfl

/-- A step that decides on at most one reply, to a generation that has none, keeps the
invariant. -/
lemma ReplyInv.step (hinv : ReplyInv seen s) (new : Option UInt32)
    (hnew : ∀ g ∈ new, g ∉ answers s ∧ (g = 0 ∨ g ∈ seen) ∧ g ∉ waiting t)
    (hanswers : (answers t).Perm (new.toList ++ answers s))
    (hjobs : (inGuest t).Sublist (inGuest s))
    (hwaiting : ∀ g ∈ waiting t, g ∈ waiting s)
    (hundecided : ∀ job ∈ t.worker.undecided?, job.generation ∈ answers t →
      t.cancelling = true ∨ t.reader.stores = some job.generation)
    (hactive : t.activeGeneration = t.worker.published) : ReplyInv seen t where
  nodup := by
    rw [hanswers.nodup_iff]
    cases new with
    | none => exact hinv.nodup
    | some g => exact List.nodup_cons.2 ⟨(hnew g rfl).1, hinv.nodup⟩
  distinct := hinv.distinct.sublist hjobs
  present := fun g hg => hinv.present g (hjobs.subset hg)
  known := fun g hg => by
    rcases List.mem_append.1 (hanswers.mem_iff.1 hg) with hg | hg
    · exact (hnew g (Option.mem_toList.1 hg)).2.1
    · exact hinv.known g hg
  unanswered := fun g hg hmem => by
    rcases List.mem_append.1 (hanswers.mem_iff.1 hmem) with hmem | hmem
    · exact (hnew g (Option.mem_toList.1 hmem)).2.2 hg
    · exact hinv.unanswered g (hwaiting g hg) hmem
  undecided := hundecided
  active := hactive

/-- A step that decides on no reply. -/
lemma ReplyInv.keep (hinv : ReplyInv seen s)
    (hanswers : (answers t).Perm (answers s))
    (hjobs : (inGuest t).Sublist (inGuest s))
    (hwaiting : ∀ g ∈ waiting t, g ∈ waiting s)
    (hundecided : ∀ job ∈ t.worker.undecided?, job.generation ∈ answers t →
      t.cancelling = true ∨ t.reader.stores = some job.generation)
    (hactive : t.activeGeneration = t.worker.published) : ReplyInv seen t :=
  hinv.step none nofun hanswers hjobs hwaiting hundecided hactive

lemma unpublished?_subset (pc : WorkerPc) : pc.unpublished?.toList ⊆ pc.job?.toList := by
  cases pc with
  | busy job phase => cases phase <;> simp [WorkerPc.unpublished?, WorkerPc.job?]
  | _ => exact fun _ => id

lemma waiting_subset (s : GuestState) : waiting s ⊆ inGuest s :=
  List.map_subset _ (List.append_subset.2 ⟨List.append_subset.2 ⟨fun _ hjob =>
    List.mem_append_left _ (List.mem_append_left _ (unpublished?_subset s.worker hjob)),
    fun _ hjob => List.mem_append_left _ (List.mem_append_right _ hjob)⟩,
    List.subset_append_right _ _⟩)

lemma WorkerPc.job?_of_undecided {pc : WorkerPc} {job : SpeechJob} (h : job ∈ pc.undecided?) :
    pc.job? = some job := by
  cases pc with
  | busy job' phase =>
      rw [WorkerPc.undecided?] at h
      split at h
      · exact h
      · cases h
  | _ => cases h

lemma WorkerPc.published_of_undecided {pc : WorkerPc} {job : SpeechJob}
    (h : job ∈ pc.undecided?) : pc.published = job.generation ∧ pc.unpublished? = none := by
  cases pc with
  | busy job' phase =>
      rw [WorkerPc.undecided?] at h
      split at h
      · cases h
        cases phase <;> first | exact ⟨rfl, rfl⟩ | contradiction
      · cases h
  | _ => cases h

/-- A worker that has published nothing owes nothing. -/
lemma idle_of_activeRequest (h : s.activeRequest = none) :
    s.worker.published = 0 ∧ s.worker.owes = none := by
  rw [GuestState.activeRequest] at h
  split at h
  · next job phase hs =>
      split at h
      · next hphase => rcases hphase with rfl | rfl <;> exact ⟨by rw [hs]; rfl, by rw [hs]; rfl⟩
      · cases h
  · next hs =>
      cases hpc : s.worker with
      | busy job phase => exact absurd hpc (hs job phase)
      | _ => exact ⟨rfl, rfl⟩

lemma mem_inGuest_of_job {job : SpeechJob} (h : s.worker.job? = some job) :
    job.generation ∈ inGuest s := by
  simp [inGuest, jobsIn, h]

/-- The worker's job and the ones that wait. -/
lemma inGuest_of_published {job : SpeechJob} (hjob : s.worker.job? = some job)
    (h : s.worker.unpublished? = none) : inGuest s = job.generation :: waiting s := by
  rw [inGuest, jobsIn, waiting, hjob, h]
  rfl

/-! ### What arrives -/

lemma replies_append_sent (log : List GuestEvent) (f : Frame) (request : Option ℕ) :
    replies (log ++ [.sent f request]) =
      replies log ++ if isTerminal f then [f.generation] else [] := by
  cases hf : isTerminal f <;> simp [replies, sentFrames, sent?, hf]

lemma replies_append_of_unsent {e : GuestEvent} (he : sent? e = none) (log : List GuestEvent) :
    replies (log ++ [e]) = replies log := by
  simp [replies, sentFrames, he]

lemma ReplyInv.append (hinv : ReplyInv seen s) (more : List UInt32) :
    ReplyInv (seen ++ more) s where
  nodup := hinv.nodup
  distinct := hinv.distinct
  present := fun g hg => (hinv.present g hg).imp_right (List.mem_append_left more)
  known := fun g hg => (hinv.known g hg).imp_right (List.mem_append_left more)
  unanswered := hinv.unanswered
  undecided := hinv.undecided
  active := hinv.active

/-- Nothing is decided for the worker's job by a reader that waits for the next message. -/
lemma ReplyInv.cancelling_of_read (hinv : ReplyInv seen s) (hread : s.reader = .read) :
    ∀ job ∈ s.worker.undecided?, job.generation ∈ answers s → s.cancelling = true :=
  fun job hjob hmem =>
    (hinv.undecided job hjob hmem).resolve_right (by simp [hread, ReaderPc.stores])

/-- A SPEAK without a text is read: its ERROR is decided on. -/
lemma ReplyInv.rejectSpeak (hinv : ReplyInv seen s) (hread : s.reader = .read)
    {generation : UInt32} (hnew : generation ∉ seen) (hfresh : generation ∉ answers s) :
    ReplyInv (seen ++ [generation]) { s with reader := .rejectEmpty generation } := by
  have hanswers : answers { s with reader := .rejectEmpty generation } =
      generation :: answers s := by
    rw [answers, answers, hread]
    rfl
  have hinGuest : inGuest { s with reader := .rejectEmpty generation } = inGuest s := by
    rw [inGuest, inGuest, jobsIn, jobsIn, hread]
    rfl
  refine (hinv.append _).step (some generation) ?_ (.of_eq hanswers) (hinGuest ▸ .refl _)
    (fun g hg => ?_) (fun job hjob hmem => ?_) hinv.active
  · rintro g ⟨⟩
    refine ⟨hfresh, Or.inr (by simp), fun hmem => hnew ?_⟩
    exact (hinv.present _ (hinGuest ▸ waiting_subset _ hmem)).2
  · rwa [waiting, hread]
  · rw [hanswers] at hmem
    rcases List.mem_cons.1 hmem with heq | hmem
    · have hseen := (hinv.present _ (mem_inGuest_of_job (WorkerPc.job?_of_undecided hjob))).2
      exact absurd (heq ▸ hseen) hnew
    · exact Or.inl (hinv.cancelling_of_read hread job hjob hmem)

/-- A SPEAK is read and accepted: its job waits to be posted. -/
lemma ReplyInv.acceptSpeak (hinv : ReplyInv seen s) (hread : s.reader = .read)
    {generation : UInt32} {payload : Bytes} (hnonzero : generation ≠ 0) (hnew : generation ∉ seen)
    (hfresh : generation ∉ answers s) :
    ReplyInv (seen ++ [generation]) { s.emit (.speak s.requests generation) with
      reader := .post ⟨s.requests, generation, .ofBytes payload,
        payload.drop SamsungSpeakOptions.byteSize⟩
      requests := s.requests + 1 } := by
  generalize ht : ({ s.emit (.speak s.requests generation) with
    reader := .post ⟨s.requests, generation, .ofBytes payload,
      payload.drop SamsungSpeakOptions.byteSize⟩
    requests := s.requests + 1 } : GuestState) = t
  have hpostsRead : s.reader.posts = none := by rw [hread]; rfl
  have hanswers : answers t = answers s := by
    rw [← ht, answers, answers, hread]
    exact congrArg _ (replies_append_of_unsent rfl _)
  have hinGuest : inGuest t = inGuest s ++ [generation] := by
    rw [← ht, inGuest, inGuest, jobsIn, jobsIn, hpostsRead]
    simp [ReaderPc.posts, GuestState.emit]
  have hwaiting : waiting t = waiting s ++ [generation] := by
    rw [← ht, waiting, waiting, hpostsRead]
    simp [ReaderPc.posts, GuestState.emit]
  refine ⟨hanswers ▸ hinv.nodup, ?_, ?_, ?_, ?_, fun job hjob hmem => Or.inl ?_, ?_⟩
  · rw [hinGuest]
    refine List.nodup_append.2 ⟨hinv.distinct, List.nodup_singleton _, fun g hg g' hg' => ?_⟩
    obtain rfl := List.mem_singleton.1 hg'
    rintro rfl
    exact hnew (hinv.present _ hg).2
  · rw [hinGuest]
    intro g hg
    rcases List.mem_append.1 hg with hg | hg
    · exact (hinv.append _).present g hg
    · obtain rfl := List.mem_singleton.1 hg
      exact ⟨hnonzero, by simp⟩
  · rw [hanswers]
    exact (hinv.append _).known
  · rw [hanswers, hwaiting]
    intro g hg
    rcases List.mem_append.1 hg with hg | hg
    · exact hinv.unanswered g hg
    · obtain rfl := List.mem_singleton.1 hg
      exact hfresh
  · subst ht
    exact hinv.cancelling_of_read hread job hjob (hanswers ▸ hmem)
  · subst ht
    exact hinv.active

/-- What is read keeps the invariant, if the generation of a SPEAK is new. -/
lemma Heard.replyInv {new : Option UInt32} {payload : Option Bytes} (h : Heard s new payload t)
    (hread : s.reader = .read) (hzero : 0 ∉ new) (hnew : ∀ g ∈ new, g ∉ seen)
    (hinv : ReplyInv seen s) : ReplyInv (seen ++ new.toList) t := by
  have hfresh : ∀ g ∈ new, g ∉ answers s := fun g hg hmem =>
    (hinv.known g hmem).elim (fun h0 => hzero (h0 ▸ hg)) (hnew g hg)
  -- what is read without a SPEAK changes nothing here
  have hother {pc : ReaderPc} {log : List GuestEvent} (howes : pc.owes = none)
      (hposts : pc.posts = none) (hlog : replies log = replies s.log) :
      ReplyInv (seen ++ []) { s with reader := pc, log := log } := by
    have howesRead : s.reader.owes = none := by rw [hread]; rfl
    have hpostsRead : s.reader.posts = none := by rw [hread]; rfl
    have hanswers : answers { s with reader := pc, log := log } = answers s := by
      simp only [answers, howes, howesRead, hlog]
    have hinGuest : inGuest { s with reader := pc, log := log } = inGuest s := by
      simp only [inGuest, jobsIn, hposts, hpostsRead]
    refine (hinv.append _).keep (.of_eq hanswers) (hinGuest ▸ .refl _) (fun g hg => ?_)
      (fun job hjob hmem => Or.inl ?_) hinv.active
    · rwa [waiting, hpostsRead, ← hposts]
    · exact hinv.cancelling_of_read hread job hjob (hanswers ▸ hmem)
  cases h with
  | other pc hpc =>
      refine hother ?_ ?_ (rfl : replies s.log = replies s.log) <;>
        rcases hpc with rfl | rfl | rfl <;> rfl
  | cancel generation => exact hother rfl rfl (replies_append_of_unsent rfl _)
  | rejected generation =>
      exact hinv.rejectSpeak hread (hnew generation rfl) (hfresh generation rfl)
  | accepted generation payload =>
      have hnonzero : generation ≠ 0 := fun h0 => hzero (by rw [h0]; rfl)
      exact hinv.acceptSpeak hread hnonzero (hnew generation rfl) (hfresh generation rfl)

/-! ### The reader -/

/-- A step of the reader that only sends what is decided on, or passes a job on. -/
lemma ReplyInv.reader (hinv : ReplyInv seen s)
    (hworker : t.worker = s.worker ∨ s.worker = .asleep ∧ t.worker = .predicate)
    (hactive : t.activeGeneration = s.activeGeneration)
    (hanswers : (t.reader.owes.toList ++ replies t.log).Perm
      (s.reader.owes.toList ++ replies s.log))
    (hjobs : (t.pendingJob.toList ++ t.reader.posts.toList).Sublist
      (s.pendingJob.toList ++ s.reader.posts.toList))
    (hcancelling : s.cancelling = true ∨ s.reader.stores.isSome → t.cancelling = true) :
    ReplyInv seen t := by
  obtain ⟨hjob?, howes, hunpublished, hundecided, hpublished⟩ :
      t.worker.job? = s.worker.job? ∧ t.worker.owes = s.worker.owes ∧
        t.worker.unpublished? = s.worker.unpublished? ∧
          t.worker.undecided? = s.worker.undecided? ∧
            t.worker.published = s.worker.published := by
    rcases hworker with h | ⟨h, h'⟩
    · simp only [h, and_self]
    · rw [h, h']
      exact ⟨rfl, rfl, rfl, rfl, rfl⟩
  have hall : (answers t).Perm (answers s) := by
    rw [answers, answers, howes]
    refine List.Perm.trans ?_ (List.Perm.trans (hanswers.append_left s.worker.owes.toList) ?_)
    · rw [← List.append_assoc]
      exact List.perm_append_comm.append_right _
    · rw [← List.append_assoc]
      exact List.perm_append_comm.append_right _
  refine hinv.keep hall ?_ (fun g hg => ?_) (fun job hjob hmem => Or.inl ?_) ?_
  · rw [inGuest, inGuest, jobsIn, jobsIn, hjob?, List.append_assoc, List.append_assoc]
    exact (hjobs.append_left _).map _
  · rw [waiting, hunpublished, List.append_assoc] at hg
    rw [waiting, List.append_assoc]
    exact (((hjobs.append_left _).map _).subset hg)
  · rw [hundecided] at hjob
    refine hcancelling ((hinv.undecided job hjob (hall.mem_iff.1 hmem)).imp_right fun hstores => ?_)
    rw [hstores]
    rfl
  · rw [hactive, hpublished, hinv.active]

/-- A step of the reader that has nothing to send and nothing to post. -/
lemma ReplyInv.readerPass (hinv : ReplyInv seen s) {pc worker} (shuttingDown : Bool)
    {log : List GuestEvent} (howes : s.reader.owes = none) (hposts : s.reader.posts = none)
    (hpc : pc.owes = none) (hpc' : pc.posts = none) (hlog : replies log = replies s.log)
    (hworker : worker = s.worker ∨ s.worker = .asleep ∧ worker = .predicate) :
    ReplyInv seen { s with
      reader := pc, shuttingDown := shuttingDown, worker := worker, log := log } := by
  refine hinv.reader hworker rfl ?_ ?_ ?_
  · rw [hpc, howes, hlog]
  · rw [hpc', hposts]
  · rintro (h | h)
    · exact h
    · cases hs : s.reader <;> simp_all [ReaderPc.stores, ReaderPc.owes]

lemma exists_afterCancel (s : GuestState) (generation : UInt32) (site : CancelSite) :
    ∃ pc log, afterCancel s generation site = { s with reader := pc, log := log } ∧
      pc.owes = none ∧ pc.posts = none ∧ replies log = replies s.log := by
  cases site with
  | frame => exact ⟨.head, _, rfl, rfl, rfl, replies_append_of_unsent rfl _⟩
  | quit => exact ⟨.quitNotify, s.log, rfl, rfl, rfl, rfl⟩
  | shutdown => exact ⟨.shutNotify, s.log, rfl, rfl, rfl, rfl⟩

/-- `cancelActive` finds the generation active: this decides on a CANCELLED. -/
lemma replyInv_match {site : CancelSite} {generation : UInt32}
    (hs : s.reader = .cancelLoad site generation) (hactive : s.activeGeneration = generation)
    (hexclusive : Exclusive s .reader) (hinv : ReplyInv seen s) :
    ReplyInv seen { s with reader := .cancelStore site generation s.activeRequest } := by
  have hpublished : s.worker.published = generation := hinv.active.symm.trans hactive
  have hwaiting : ∀ g,
      g ∈ waiting { s with reader := .cancelStore site generation s.activeRequest } →
        g ∈ waiting s := fun g hg => by rwa [waiting, hs]
  have hnew : generation ∉ answers s ∧ (generation = 0 ∨ generation ∈ seen) ∧
      generation ∉ waiting s := by
    rcases hexclusive (by simp [hs, ReaderPc.matches?, hactive]) with ⟨hsome, hcancelling⟩ | hidle
    · -- the worker's job, for which nothing is decided yet
      obtain ⟨job, hjob⟩ := Option.isSome_iff_exists.1 hsome
      obtain ⟨hgeneration, hunpublished⟩ := WorkerPc.published_of_undecided hjob
      obtain rfl : generation = job.generation := hpublished.symm.trans hgeneration
      have hmem := mem_inGuest_of_job (WorkerPc.job?_of_undecided hjob)
      refine ⟨fun hanswered => ?_, Or.inr (hinv.present _ hmem).2, fun hwait => ?_⟩
      · rcases hinv.undecided job hjob hanswered with h | h
        · exact absurd h (by simp [hcancelling])
        · rw [hs] at h
          cases h
      · have hdistinct := hinv.distinct
        rw [inGuest_of_published (WorkerPc.job?_of_undecided hjob) hunpublished] at hdistinct
        exact (List.nodup_cons.1 hdistinct).1 hwait
    · -- no request, and nothing with generation 0 in the guest
      obtain ⟨hzero, howes⟩ := idle_of_activeRequest hidle.1
      obtain rfl : generation = 0 := hpublished.symm.trans hzero
      refine ⟨?_, Or.inl rfl, fun hwait => (hinv.present 0 (waiting_subset s hwait)).1 rfl⟩
      rw [answers, howes, hs]
      simpa [ReaderPc.owes] using hidle.2
  refine hinv.step (some generation) ?_ ?_ ?_ hwaiting (fun job hjob _ => Or.inr ?_) hinv.active
  · rintro g ⟨⟩
    exact ⟨hnew.1, hnew.2.1, fun hg => hnew.2.2 (hwaiting generation hg)⟩
  · rw [answers, answers, hs]
    rfl
  · rw [inGuest, inGuest, jobsIn, jobsIn, hs]
    exact .refl _
  · rw [← (WorkerPc.published_of_undecided hjob).1, hpublished]
    rfl

/-- A step of the reader keeps the invariant, if it does not decide behind the worker's back. -/
lemma replyInv_readerStep (h : readerStep s = some t) (hexclusive : Exclusive s .reader)
    (hinv : ReplyInv seen s) : ReplyInv seen t := by
  obtain ⟨worker, hnotify, hworker⟩ := notify_eq s
  unfold readerStep at h
  split at h
  case h_1 hpc =>
    cases h
    refine hinv.readerPass s.shuttingDown (by rw [hpc]; rfl) (by rw [hpc]; rfl) ?_ ?_ rfl
      (Or.inl rfl)
    · split <;> rfl
    · split <;> rfl
  case h_2 => cases h
  case h_3 generation hpc =>
    cases h
    refine hinv.reader (Or.inl rfl) rfl ?_ ?_ ?_
    · rw [hpc]
      exact (List.Perm.of_eq (replies_append_sent _ _ _)).trans List.perm_append_comm
    · rw [hpc]
      exact .refl _
    · rw [hpc]
      exact fun h => h.resolve_right nofun
  case h_4 job hpc =>
    split at h
    · cases h
    · cases h
      refine hinv.reader (Or.inl rfl) rfl ?_ ?_ ?_
      · rw [hpc]
        exact .refl _
      · rw [hpc]
        exact List.sublist_append_right _ _
      · rw [hpc]
        exact fun h => h.resolve_right nofun
  case h_5 hpc =>
    rw [hnotify] at h
    cases h
    exact hinv.readerPass s.shuttingDown (by rw [hpc]; rfl) (by rw [hpc]; rfl) rfl rfl rfl hworker
  case h_6 site generation hpc =>
    split at h
    · obtain ⟨pc, log, hafter, howes, hposts, hlog⟩ := exists_afterCancel s generation site
      rw [hafter] at h
      cases h
      exact hinv.readerPass s.shuttingDown (by rw [hpc]; rfl) (by rw [hpc]; rfl) howes hposts hlog
        (Or.inl rfl)
    · next heq =>
        cases h
        exact replyInv_match hpc (not_not.1 heq) hexclusive hinv
  case h_7 site generation request hpc =>
    cases h
    refine hinv.reader (Or.inl rfl) rfl ?_ ?_ fun _ => rfl
    · rw [hpc]
      exact .refl _
    · rw [hpc]
      exact .refl _
  case h_8 site generation request hpc =>
    obtain ⟨pc, log, hafter, howes, hposts, hlog⟩ :=
      exists_afterCancel (s.send .cancelled generation [] request) generation site
    rw [hafter] at h
    cases h
    refine hinv.reader (Or.inl rfl) rfl ?_ ?_ ?_
    · rw [howes, hlog, hpc]
      exact (List.Perm.of_eq (replies_append_sent _ _ _)).trans List.perm_append_comm
    · rw [hposts, hpc]
      exact .refl _
    · rw [hpc]
      exact fun h => h.resolve_right nofun
  case h_9 hpc =>
    cases h
    exact hinv.readerPass true (by rw [hpc]; rfl) (by rw [hpc]; rfl) rfl rfl rfl (Or.inl rfl)
  case h_10 hpc =>
    cases h
    exact hinv.readerPass s.shuttingDown (by rw [hpc]; rfl) (by rw [hpc]; rfl) rfl rfl rfl
      (Or.inl rfl)
  case h_11 hpc =>
    rw [hnotify] at h
    cases h
    exact hinv.readerPass s.shuttingDown (by rw [hpc]; rfl) (by rw [hpc]; rfl) rfl rfl rfl hworker
  case h_12 hpc =>
    cases h
    exact hinv.readerPass true (by rw [hpc]; rfl) (by rw [hpc]; rfl) rfl rfl rfl (Or.inl rfl)
  case h_13 hpc =>
    cases h
    exact hinv.readerPass s.shuttingDown (by rw [hpc]; rfl) (by rw [hpc]; rfl) rfl rfl rfl
      (Or.inl rfl)
  case h_14 hpc =>
    rw [hnotify] at h
    cases h
    exact hinv.readerPass s.shuttingDown (by rw [hpc]; rfl) (by rw [hpc]; rfl) rfl rfl rfl hworker
  case h_15 hpc =>
    split at h
    · cases h
      exact hinv.readerPass s.shuttingDown (by rw [hpc]; rfl) (by rw [hpc]; rfl) rfl rfl rfl
        (Or.inl rfl)
    · cases h
  case h_16 => cases h

/-! ### The worker -/

/-- The worker has published its job. -/
def Phase.Published : Phase → Prop
  | .reset | .publish => False
  | _ => True

lemma published_of_phase {phase : Phase} (h : phase.Published) (job : SpeechJob) :
    (WorkerPc.busy job phase).unpublished? = none ∧
      (WorkerPc.busy job phase).published = job.generation := by
  cases phase with
  | reset => exact h.elim
  | publish => exact h.elim
  | _ => exact ⟨rfl, rfl⟩

lemma undecided?_busy {job job' : SpeechJob} {phase : Phase}
    (h : job ∈ (WorkerPc.busy job' phase).undecided?) : job = job' ∧ phase.Undecided := by
  rw [WorkerPc.undecided?] at h
  split at h
  · next hphase => cases h; exact ⟨rfl, hphase⟩
  · cases h

lemma mem_undecided {job : SpeechJob} {phase : Phase} (h : phase.Undecided) :
    job ∈ (WorkerPc.busy job phase).undecided? := by
  rw [WorkerPc.undecided?, if_pos h]
  rfl

/-- The worker goes on with its published job, and decides at most on a reply to a job that has
none. -/
lemma ReplyInv.busy (hinv : ReplyInv seen s) {job : SpeechJob} {phase phase' : Phase}
    {synth : Option (List EngineCall)} {language model : Int32} {log : List GuestEvent}
    (hs : s.worker = .busy job phase) (hphase : phase.Published) (hphase' : phase'.Published)
    (new : Option UInt32) (hnew : ∀ g ∈ new, g = job.generation ∧ g ∉ answers s)
    (hundecided : phase'.Undecided → phase.Undecided ∧ new = none)
    (hanswers : ((WorkerPc.busy job phase').owes.toList ++ replies log).Perm
      (new.toList ++ ((WorkerPc.busy job phase).owes.toList ++ replies s.log))) :
    ReplyInv seen { s with
      worker := .busy job phase', synth := synth, currentLanguage := language
      currentModel := model, log := log } := by
  obtain ⟨hunpublished, hpublished⟩ := published_of_phase hphase job
  obtain ⟨hunpublished', hpublished'⟩ := published_of_phase hphase' job
  have hjobs : inGuest s = job.generation :: waiting s :=
    inGuest_of_published (by rw [hs]; rfl) (by rw [hs, hunpublished])
  have hall : (answers { s with
      worker := .busy job phase', synth := synth, currentLanguage := language
      currentModel := model, log := log }).Perm (new.toList ++ answers s) := by
    rw [answers, answers, hs, List.append_assoc, List.append_assoc]
    exact (hanswers.append_left _).trans (List.perm_append_comm_assoc _ _ _)
  refine hinv.step new (fun g hg => ?_) hall ?_ (fun g hg => ?_) (fun job' hjob' hmem => ?_) ?_
  · obtain ⟨rfl, hfresh⟩ := hnew g hg
    refine ⟨hfresh, Or.inr (hinv.present _ (by rw [hjobs]; simp)).2, fun hwait => ?_⟩
    have hdistinct := hinv.distinct
    rw [hjobs] at hdistinct
    rw [waiting, hunpublished', ← hunpublished, ← hs] at hwait
    exact (List.nodup_cons.1 hdistinct).1 hwait
  · rw [inGuest, inGuest, jobsIn, jobsIn, hs]
    exact .refl _
  · rwa [waiting, hunpublished', ← hunpublished, ← hs] at hg
  · obtain ⟨rfl, hphase'⟩ := undecided?_busy hjob'
    obtain ⟨hphase, rfl⟩ := hundecided hphase'
    exact hinv.undecided job' (by rw [hs]; exact mem_undecided hphase) (hall.mem_iff.1 hmem)
  · rw [hpublished', ← hpublished, ← hs]
    exact hinv.active

/-- The worker decides on a reply while the reader is not about to, and has not been. -/
lemma ReplyInv.decide (hinv : ReplyInv seen s) {job : SpeechJob} {phase : Phase}
    (hs : s.worker = .busy job phase) (hphase : phase.Undecided)
    (hcancelling : s.cancelling = false) (hreader : s.reader.cancels ≠ some job.generation) :
    job.generation ∉ answers s := by
  intro hmem
  rcases hinv.undecided job (by rw [hs]; exact mem_undecided hphase) hmem with h | h
  · exact absurd h (by simp [hcancelling])
  · cases hpc : s.reader <;> simp_all [ReaderPc.stores, ReaderPc.cancels]

lemma replyInv_inner {job : SpeechJob} {phase phase' : Phase} {synth : Option (List EngineCall)}
    {language model : Int32} (hs : s.worker = .busy job phase)
    (hmove : InnerMove job.text.length s.cancelling s.activeGeneration o phase phase')
    (hstop : ∀ job ∈ s.worker.stopping?, s.cancelling = false →
      s.reader.cancels ≠ some job.generation)
    (hinit : phase = .prepare → phase' = .sendInitError →
      s.cancelling = false ∧ s.reader.cancels ≠ some job.generation)
    (hinv : ReplyInv seen s) :
    ReplyInv seen { s with
      worker := .busy job phase', synth := synth, currentLanguage := language
      currentModel := model } := by
  cases hmove with
  | initError result options ho hfail =>
      obtain ⟨hcancelling, hreader⟩ := hinit rfl rfl
      refine hinv.busy hs trivial trivial (some job.generation) ?_ nofun (.refl _)
      rintro g ⟨⟩
      exact ⟨rfl, hinv.decide hs trivial hcancelling hreader⟩
  | completed succeeded hcancelling =>
      refine hinv.busy hs trivial trivial (some job.generation) ?_ nofun (.refl _)
      rintro g ⟨⟩
      exact ⟨rfl, hinv.decide hs trivial hcancelling (hstop job (by rw [hs]; rfl) hcancelling)⟩
  | _ => exact hinv.busy hs trivial trivial none nofun (fun _ => ⟨trivial, rfl⟩) (.refl _)

lemma idle_of_job? {pc : WorkerPc} (h : pc.job? = none) :
    pc.owes = none ∧ pc.unpublished? = none ∧ pc.published = 0 := by
  cases pc with
  | busy job phase => cases h
  | _ => exact ⟨rfl, rfl, rfl⟩

lemma WorkerMove.replyInv (h : WorkerMove s o t)
    (hstop : ∀ job ∈ s.worker.stopping?, s.cancelling = false →
      s.reader.cancels ≠ some job.generation)
    (hinit : ∀ job, s.worker = .busy job .prepare → t.worker = .busy job .sendInitError →
      s.cancelling = false ∧ s.reader.cancels ≠ some job.generation)
    (hinv : ReplyInv seen s) : ReplyInv seen t := by
  have hjobs : (inGuest t).Sublist (inGuest s) := h.jobsIn_sublist.map _
  cases h with
  | idle pc synth hidle =>
      obtain ⟨hold, hnew⟩ := hidle.job_eq
      refine hinv.keep (.of_eq ?_) hjobs (fun g hg => ?_) (fun job hjob => ?_) ?_
      · rw [answers, answers, (idle_of_job? hold).1, (idle_of_job? hnew).1]
      · rwa [waiting, (idle_of_job? hold).2.1, ← (idle_of_job? hnew).2.1]
      · exact absurd (WorkerPc.job?_of_undecided hjob) (by simp [hnew])
      · rw [(idle_of_job? hnew).2.2, ← (idle_of_job? hold).2.2]
        exact hinv.active
  | take job hs hpending =>
      refine hinv.keep (.of_eq ?_) hjobs (fun g hg => ?_) nofun ?_
      · rw [answers, answers, hs]
        rfl
      · rwa [waiting, hs, hpending]
      · rw [hinv.active, hs]
        rfl
  | reset job hs =>
      refine hinv.keep (.of_eq ?_) hjobs (fun g hg => ?_) nofun ?_
      · rw [answers, answers, hs]
        rfl
      · rwa [waiting, hs]
      · rw [hinv.active, hs]
        rfl
  | publish job hs =>
      -- the job waited until now, so it has no reply
      have hanswers : answers { s with
          activeGeneration := job.generation, worker := .busy job .prepare } = answers s := by
        rw [answers, answers, hs]
        rfl
      refine hinv.keep (.of_eq hanswers) hjobs (fun g hg => ?_) (fun job' hjob' hmem => ?_) rfl
      · rw [waiting, hs]
        exact List.mem_cons_of_mem _ hg
      · cases hjob'
        rw [hanswers] at hmem
        exact absurd hmem (hinv.unanswered _ (by rw [waiting, hs]; exact List.mem_cons_self))
  | inner job phase phase' synth language model hs hmove =>
      refine replyInv_inner hs hmove hstop (fun hphase hphase' => ?_) hinv
      exact hinit job (by rw [hs, hphase]) (by rw [hphase'])
  | play job offset synth hs =>
      refine hinv.busy hs trivial trivial none nofun (fun _ => ⟨trivial, rfl⟩) (.of_eq ?_)
      exact replies_append_of_unsent rfl _
  | message job phase phase' f hs hmessage =>
      cases hmessage with
      | audio offset next samples generation =>
          refine hinv.busy hs trivial trivial none nofun (fun _ => ⟨trivial, rfl⟩) (.of_eq ?_)
          exact (replies_append_sent _ _ _).trans (List.append_nil _)
      | _ =>
          -- what was decided on is sent
          refine hinv.busy hs trivial trivial none nofun nofun ?_
          exact (List.Perm.of_eq (replies_append_sent _ _ _)).trans List.perm_append_comm
  | clear job hs =>
      refine hinv.keep (.of_eq ?_) hjobs (fun g hg => ?_) nofun rfl
      · rw [answers, answers, hs]
        rfl
      · rwa [waiting, hs]

/-! ### Runs -/

lemma not_stopping_of_outsideStep {o : Outside} (h : outsideStep s o = some t) :
    s.worker.stopping? = none := by
  unfold outsideStep at h
  split at h
  case h_5 => cases h
  all_goals next hs => rw [hs]; rfl

/-- An initialisation takes the worker to the error message only by failing. -/
lemma initializeSynth_of_sendInitError {o : Outside} {job : SpeechJob}
    (h : outsideStep s o = some t) (hs : s.worker = .busy job .prepare)
    (ht : t.worker = .busy job .sendInitError) :
    ∃ result, o = .initResults result ∧ (initializeSynth result job.options).2 = false := by
  cases o with
  | initResults result =>
      refine ⟨result, rfl, ?_⟩
      simp only [outsideStep, hs] at h
      split at h
      · cases h
      · cases h
        by_contra hok
        rw [Bool.not_eq_false] at hok
        simp [GuestState.goOn, replaceEngine, hok] at ht
  | _ => simp [outsideStep, hs] at h

/-- A step that keeps the two decisions apart keeps the invariant. -/
lemma replyInv_guestStep {a : GuestAction} (hexclusive : Exclusive s a)
    (hnew : ∀ g ∈ a.incoming?.bind (·.generation? .speak), g ∉ seen) (hinv : ReplyInv seen s)
    (h : guestStep s a = some t) :
    ReplyInv (seen ++ (a.incoming?.bind (·.generation? .speak)).toList) t := by
  cases a with
  | receive incoming =>
      rw [guestStep] at h
      split at h
      · next hread => exact (heard h).replyInv hread hexclusive hnew hinv
      · cases h
  | reader =>
      rw [show (GuestAction.reader.incoming?.bind _).toList = ([] : List UInt32) from rfl,
        List.append_nil]
      exact replyInv_readerStep h hexclusive hinv
  | worker =>
      rw [show (GuestAction.worker.incoming?.bind _).toList = ([] : List UInt32) from rfl,
        List.append_nil]
      refine (workerMove_workerStep h).replyInv hexclusive (fun job hs ht => ?_) hinv
      -- only the engine can fail
      rw [guestStep, workerStep, hs] at h
      simp only [jobStep] at h
      split at h
      · cases h
        cases ht
      · cases h
  | outside o =>
      rw [show ((GuestAction.outside o).incoming?.bind _).toList = ([] : List UInt32) from rfl,
        List.append_nil]
      refine (workerMove_outsideStep h).replyInv (fun job hjob => ?_) (fun job hs ht => ?_) hinv
      · rw [not_stopping_of_outsideStep h] at hjob
        cases hjob
      · obtain ⟨result, rfl, hfail⟩ := initializeSynth_of_sendInitError h hs ht
        exact hexclusive job (by rw [hs]; rfl) hfail

/-- **Replies.** In every run in which the two threads keep their decisions apart, no generation
is answered twice. -/
theorem oneReply_of_run (as : List GuestAction) (hrun : run guestStep initialState as = some s)
    (hspeaks : (generationsRead .speak as).Nodup)
    (hexclusive : Along guestStep Exclusive initialState as) (generation : UInt32) :
    (replies s.log).count generation ≤ 1 := by
  have hinv : ReplyInv (generationsRead .speak as) s := by
    refine run_history_along (I := fun done s => (generationsRead .speak done).Nodup →
      ReplyInv (generationsRead .speak done) s) (fun done u a v hinv hexclusive hv hspeaks => ?_)
      (fun _ => replyInv_initial) hexclusive hrun hspeaks
    rw [generationsRead_snoc] at hspeaks ⊢
    obtain ⟨hdone, -, hnew⟩ := List.nodup_append.1 hspeaks
    refine replyInv_guestStep hexclusive (fun g hg hmem => ?_) (hinv hdone) hv
    exact hnew g hmem g (Option.mem_toList.2 hg) rfl
  refine List.nodup_iff_count_le_one.1 ?_ generation
  exact hinv.nodup.sublist (List.sublist_append_right _ _)

theorem oneReply_cancelInFirstCall :
    ∃ s, run guestStep initialState cancelInFirstCall = some s ∧ (replies s.log).count 1 ≤ 1 := by
  have hsome : (run guestStep initialState cancelInFirstCall).isSome := by decide +kernel
  obtain ⟨s, hs⟩ := Option.isSome_iff_exists.1 hsome
  exact ⟨s, hs, oneReply_of_run cancelInFirstCall hs (by decide +kernel) (by decide +kernel) 1⟩

/-- The CANCEL comes between the worker's last look at `cancelling` and its DONE. -/
def cancelBeforeDone : List GuestAction :=
  [.reader, .receive (.ofFrame twoChunkRequest), .reader, .reader, .worker, .worker, .worker,
    .worker, .worker, .outside (.initResults fun _ => 1), .worker, .worker, .worker,
    .outside (.return 1), .worker, .worker, .outside (.return 1), .worker, .worker, .reader,
    .receive (.ofFrame cancelRequest), .reader, .reader, .reader, .worker]

lemma replies_cancelBeforeDone :
    (run guestStep initialState cancelBeforeDone).map (fun s => replies s.log) = some [1, 1] := by
  decide +kernel

lemma wellBehaved_cancelBeforeDone : WellBehaved cancelBeforeDone where
  speaks := by decide +kernel
  cancels := by decide +kernel
  waits := by decide +kernel

theorem not_oneReply : ¬ ∀ (as : List GuestAction) (s : GuestState), WellBehaved as →
    run guestStep initialState as = some s →
      ∀ generation, (replies s.log).count generation ≤ 1 := by
  intro h
  obtain ⟨s, hs, hreplies⟩ := Option.map_eq_some_iff.1 replies_cancelBeforeDone
  have hone := h cancelBeforeDone s wellBehaved_cancelBeforeDone hs 1
  rw [hreplies] at hone
  exact absurd hone (by decide)

end SamsungTVVoices.Guest
