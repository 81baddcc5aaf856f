/-
A request on its way through the guest.

`Rests P` says that the guest has nothing more to do for the jobs with `P`: none of them waits, and
the worker is at most about to let go of one.  The worker adds to the log only for jobs that do not
rest, so the guest sends nothing for a generation that is `Clear`, and no audio for a request that
is `Finished`.  A request that is on its way is at one of the stages of `Stage`: on the wire behind
frames of other generations, at hand, in `pendingJob`, with the worker, or answered; every step
keeps it there or takes it to the next one.
-/
import SamsungTVVoices.Guest.Serve

namespace SamsungTVVoices.Guest

variable {s t : GuestState} {o : Option Outside} {P : SpeechJob → Prop} {g : UInt32} {k : ℕ}
  {f : Frame}

/-! ### Jobs that rest -/

/-- The worker is at most about to let go of a job with `P`. -/
def RestsWorker (P : SpeechJob → Prop) (pc : WorkerPc) : Prop :=
  ∀ job phase, pc = .busy job phase → P job → phase = .clear

/-- The guest has nothing more to do for the jobs with `P`. -/
structure Rests (P : SpeechJob → Prop) (s : GuestState) : Prop where
  pending : ∀ job, s.pendingJob = some job → ¬ P job
  worker : RestsWorker P s.worker

lemma Rests.mono {Q : SpeechJob → Prop} (h : Rests P s) (hQ : ∀ job, Q job → P job) :
    Rests Q s :=
  ⟨fun job hjob hq => h.pending job hjob (hQ job hq),
    fun job phase hworker hq => h.worker job phase hworker (hQ job hq)⟩

lemma restsWorker_of_idle {pc : WorkerPc} (h : pc.job? = none) : RestsWorker P pc := by
  rintro job phase rfl
  cases h

/-- The event is one of the worker, for a job without `P`. -/
inductive Other (P : SpeechJob → Prop) : GuestEvent → Prop
  | play (job : SpeechJob) (hjob : ¬ P job) (chunk : Bytes) : Other P (.play job.request chunk)
  | sent (job : SpeechJob) (hjob : ¬ P job) (f : Frame) (hf : f.generation = job.generation) :
      Other P (.sent f (some job.request))

/-- A move of the worker is that it takes what waits, or it is for a job that does not rest. -/
lemma WorkerMove.restsWorker (h : WorkerMove s o t) (hs : Serving s)
    (hworker : RestsWorker P s.worker) :
    (∃ job, s.pendingJob = some job ∧
        t = { s with pendingJob := none, worker := .busy job .reset }) ∨
      (t.pendingJob = s.pendingJob ∧ RestsWorker P t.worker ∧ Grows (Other P) s.log t.log) := by
  -- a job that is not about to be let go of does not rest
  have hrest {job : SpeechJob} {phase : Phase} (hpc : s.worker = .busy job phase)
      (hphase : phase ≠ .clear) : ¬ P job := fun hjob => hphase (hworker job phase hpc hjob)
  have hother {job : SpeechJob} {phase phase' : Phase} (hpc : s.worker = .busy job phase)
      (hphase : phase ≠ .clear) : RestsWorker P (.busy job phase') := by
    rintro j p ⟨⟩ hj
    exact absurd hj (hrest hpc hphase)
  cases h with
  | idle pc synth hidle =>
      exact Or.inr ⟨rfl, restsWorker_of_idle hidle.job_eq.2, .refl _⟩
  | take job hpc hpending => exact Or.inl ⟨job, hpending, rfl⟩
  | reset job hpc => exact Or.inr ⟨rfl, hother hpc nofun, .refl _⟩
  | publish job hpc => exact Or.inr ⟨rfl, hother hpc nofun, .refl _⟩
  | inner job phase phase' synth language model hpc hmove =>
      have hphase : phase ≠ .clear := by cases hmove <;> exact nofun
      exact Or.inr ⟨rfl, hother hpc hphase, .refl _⟩
  | play job offset synth hpc =>
      exact Or.inr ⟨rfl, hother hpc nofun, grows_singleton (.play job (hrest hpc nofun) _)⟩
  | message job phase phase' f hpc hmessage =>
      have hphase : phase ≠ .clear := by cases hmessage <;> exact nofun
      have hgeneration := (hmessage.size_le (hs.worker job phase hpc).2).2
      exact Or.inr ⟨rfl, hother hpc hphase,
        grows_singleton (.sent job (hrest hpc hphase) f hgeneration)⟩
  | clear job hpc => exact Or.inr ⟨rfl, nofun, .refl _⟩

/-- The worker leaves alone what rests. -/
lemma WorkerMove.rests (h : WorkerMove s o t) (hs : Serving s) (hrests : Rests P s) :
    Rests P t ∧ Grows (Other P) s.log t.log := by
  rcases h.restsWorker hs hrests.worker with ⟨job, hpending, rfl⟩ | ⟨hpending, hworker, hlog⟩
  · refine ⟨⟨nofun, ?_⟩, .refl _⟩
    rintro j p ⟨⟩ hj
    exact absurd hj (hrests.pending job hpending)
  · exact ⟨⟨by rw [hpending]; exact hrests.pending, hworker⟩, hlog⟩

/-- The reader leaves alone what rests, if it does not post it. -/
lemma ReaderTurn.rests (h : ReaderTurn s t) (hrests : Rests P s)
    (hpost : ∀ job, s.reader = .post job → ¬ P job) : Rests P t := by
  cases h with
  | post job hpc hfree =>
      refine ⟨?_, hrests.worker⟩
      rintro j ⟨⟩
      exact hpost job hpc
  | rouse hpc hworker => exact ⟨hrests.pending, nofun⟩
  | _ => exact ⟨hrests.pending, hrests.worker⟩

lemma rests_receive (hf : Legal f) (hrests : Rests P s) (h : receive s (.ofFrame f) = some t) :
    Rests P t := by
  cases hf with
  | cancel generation => obtain rfl := receive_cancel h; exact ⟨hrests.pending, hrests.worker⟩
  | speak generation payload hmin hmax =>
      obtain rfl := receive_speak hmin hmax h
      exact ⟨hrests.pending, hrests.worker⟩

/-! ### What a step adds to the log -/

/-- The messages fit the host. -/
def Small : GuestEvent → Prop
  | .sent f _ => f.payload.length ≤ Host.maxPayload
  | _ => True

lemma WorkerMove.small (h : WorkerMove s o t) (hs : Serving s) : Grows Small s.log t.log := by
  cases h with
  | play job offset synth hpc => exact grows_singleton trivial
  | message job phase phase' f hpc hmessage =>
      exact grows_singleton (hmessage.size_le (hs.worker job phase hpc).2).1
  | _ => exact .refl _

lemma ReaderTurn.small (h : ReaderTurn s t) : Grows Small s.log t.log := by
  cases h with
  | miss generation hpc => exact grows_singleton trivial
  | answer generation request hpc =>
      refine ⟨_, rfl, fun e he => ?_⟩
      rcases List.mem_pair.1 he with rfl | rfl
      · exact Nat.zero_le _
      · trivial
  | _ => exact .refl _

/-- Reading a frame sends nothing and plays nothing. -/
def Mute : GuestEvent → Prop
  | .play _ _ | .sent _ _ => False
  | _ => True

lemma mute_receive (hf : Legal f) (h : receive s (.ofFrame f) = some t) :
    Grows Mute s.log t.log := by
  cases hf with
  | cancel generation => obtain rfl := receive_cancel h; exact grows_singleton trivial
  | speak generation payload hmin hmax =>
      obtain rfl := receive_speak hmin hmax h
      exact grows_singleton trivial

lemma Serving.grows_below {R : GuestEvent → Prop} {log : List GuestEvent} (ht : Serving t)
    (h : Grows R log t.log) : Grows (fun e => R e ∧ Below t.requests e) log t.log := by
  obtain ⟨new, hlog, hnew⟩ := h
  exact ⟨new, hlog, fun e he =>
    ⟨hnew e he, ht.issued e (hlog ▸ List.mem_append_right _ he)⟩⟩

/-! ### A generation that is clear -/

/-- Nothing that the reader has at hand is of this generation. -/
def ReaderClear (g : UInt32) : ReaderPc → Prop
  | .post job => job.generation ≠ g
  | .cancelLoad _ generation | .cancelStore _ generation _ | .cancelSend _ generation _ =>
      generation ≠ g
  | _ => True

/-- The guest does nothing for this generation until a frame of it comes. -/
structure Clear (g : UInt32) (s : GuestState) : Prop where
  reader : ReaderClear g s.reader
  rests : Rests (·.generation = g) s

/-- The event sends no message of this generation. -/
def Strange (g : UInt32) : GuestEvent → Prop
  | .sent f _ => f.generation ≠ g
  | _ => True

lemma Other.strange {e : GuestEvent} (h : Other (·.generation = g) e) : Strange g e := by
  cases h with
  | play job hjob chunk => trivial
  | sent job hjob f hf =>
      show f.generation ≠ g
      rwa [hf]

lemma Clear.workerMove (h : WorkerMove s o t) (hs : Serving s) (hclear : Clear g s) :
    Clear g t ∧ Grows (Strange g) s.log t.log := by
  obtain ⟨hrests, hlog⟩ := h.rests hs hclear.rests
  exact ⟨⟨by rw [h.reader.1]; exact hclear.reader, hrests⟩, hlog.mono fun _ => Other.strange⟩

lemma Clear.readerTurn (h : ReaderTurn s t) (hclear : Clear g s) :
    Clear g t ∧ Grows (Strange g) s.log t.log := by
  have hreader := hclear.reader
  have hrests := h.rests hclear.rests fun job hpc => by rwa [hpc] at hreader
  cases h with
  | read hpc => exact ⟨⟨trivial, hrests⟩, .refl _⟩
  | post job hpc hfree => exact ⟨⟨trivial, hrests⟩, .refl _⟩
  | notify hpc hworker => exact ⟨⟨trivial, hrests⟩, .refl _⟩
  | rouse hpc hworker => exact ⟨⟨trivial, hrests⟩, .refl _⟩
  | miss generation hpc => exact ⟨⟨trivial, hrests⟩, grows_singleton trivial⟩
  | hit generation hpc => rw [hpc] at hreader; exact ⟨⟨hreader, hrests⟩, .refl _⟩
  | store generation request hpc => rw [hpc] at hreader; exact ⟨⟨hreader, hrests⟩, .refl _⟩
  | answer generation request hpc =>
      rw [hpc] at hreader
      refine ⟨⟨trivial, hrests⟩, _, rfl, fun e he => ?_⟩
      rcases List.mem_pair.1 he with rfl | rfl
      · exact hreader
      · trivial

lemma Clear.receive (hf : Legal f) (hne : f.generation ≠ g) (hclear : Clear g s)
    (h : receive s (.ofFrame f) = some t) : Clear g t := by
  have hrests := rests_receive hf hclear.rests h
  cases hf with
  | cancel generation => obtain rfl := receive_cancel h; exact ⟨hne, hrests⟩
  | speak generation payload hmin hmax =>
      obtain rfl := receive_speak hmin hmax h
      exact ⟨hne, hrests⟩

/-! ### A request that is finished -/

/-- The guest plays no more of the request and sends no more audio for it. -/
structure Finished (k : ℕ) (s : GuestState) : Prop where
  issued : k < s.requests
  reader : ∀ job, s.reader = .post job → job.request ≠ k
  rests : Rests (·.request = k) s

/-- The event plays nothing of the request and sends no audio for it. -/
def Past (k : ℕ) : GuestEvent → Prop
  | .play request _ => request ≠ k
  | .sent f request => request = some k → isAudio f = false
  | _ => True

lemma Other.past {e : GuestEvent} (h : Other (·.request = k) e) : Past k e := by
  cases h with
  | play job hjob chunk => exact hjob
  | sent job hjob f hf => exact fun heq => absurd (Option.some.inj heq) hjob

lemma Mute.past {e : GuestEvent} (h : Mute e) : Past k e := by
  cases e <;> trivial

lemma Finished.workerMove (h : WorkerMove s o t) (hs : Serving s) (hk : Finished k s) :
    Finished k t ∧ Grows (Past k) s.log t.log := by
  obtain ⟨hrests, hlog⟩ := h.rests hs hk.rests
  exact ⟨⟨by rw [h.reader.2]; exact hk.issued, by rw [h.reader.1]; exact hk.reader, hrests⟩,
    hlog.mono fun _ => Other.past⟩

lemma Finished.readerTurn (h : ReaderTurn s t) (hk : Finished k s) :
    Finished k t ∧ Grows (Past k) s.log t.log := by
  have hrests := h.rests hk.rests hk.reader
  cases h with
  | miss generation hpc => exact ⟨⟨hk.issued, nofun, hrests⟩, grows_singleton trivial⟩
  | answer generation request hpc =>
      refine ⟨⟨hk.issued, nofun, hrests⟩, _, rfl, fun e he => ?_⟩
      rcases List.mem_pair.1 he with rfl | rfl
      · exact fun _ => rfl
      · trivial
  | _ => exact ⟨⟨hk.issued, nofun, hrests⟩, .refl _⟩

lemma Finished.receive (hf : Legal f) (hk : Finished k s) (h : receive s (.ofFrame f) = some t) :
    Finished k t := by
  have hrests := rests_receive hf hk.rests h
  cases hf with
  | cancel generation => obtain rfl := receive_cancel h; exact ⟨hk.issued, nofun, hrests⟩
  | speak generation payload hmin hmax =>
      obtain rfl := receive_speak hmin hmax h
      refine ⟨hk.issued.trans (Nat.lt_succ_self _), ?_, hrests⟩
      rintro job ⟨⟩
      exact hk.issued.ne'

/-! ### Chunks -/

lemma backToStart_bounds (text : Bytes) (start e : ℕ) (h : start ≤ e) :
    start ≤ backToStart text start e ∧ backToStart text start e ≤ e := by
  induction e with
  | zero => simpa [backToStart] using h
  | succ e ih =>
      rw [backToStart]
      split
      · next hback =>
          have := ih (Nat.lt_succ_iff.1 hback.1)
          omega
      · exact ⟨h, le_rfl⟩

lemma lastBreak_bounds {text : Bytes} {minimumBreak position next : ℕ}
    (h : lastBreak text minimumBreak position = some next) :
    minimumBreak < next ∧ next ≤ position := by
  induction position with
  | zero => cases h
  | succ position ih =>
      rw [lastBreak] at h
      split at h
      · next hlt =>
          split at h
          · cases h; exact ⟨hlt, le_rfl⟩
          · have := ih h
            omega
      · cases h

/-- A chunk does not end before it starts, nor behind the text. -/
lemma nextChunkEnd_bounds {text : Bytes} {start : ℕ} (h : start ≤ text.length) :
    start ≤ nextChunkEnd text start ∧ nextChunkEnd text start ≤ text.length := by
  rw [nextChunkEnd]
  split
  · exact ⟨h, le_rfl⟩
  · next hlong =>
      have hback := backToStart_bounds text start (start + targetBytes) (Nat.le_add_right _ _)
      dsimp only
      cases hbreak : lastBreak text (start + targetBytes / 2)
          (backToStart text start (start + targetBytes)) with
      | none =>
          rw [Option.getD_none]
          omega
      | some next =>
          have := lastBreak_bounds hbreak
          rw [Option.getD_some]
          omega

/-! ### The stages of a request -/

/-- The job is the one of the request, or one of its generation. -/
def Mine (k : ℕ) (f : Frame) (job : SpeechJob) : Prop :=
  job.request = k ∨ job.generation = f.generation

/-- The reader has nothing at hand. -/
def Resting : ReaderPc → Prop
  | .head | .read | .notifyOne => True
  | _ => False

/-- An AUDIO message, with whole samples. -/
def Spoken (f : Frame) : Prop :=
  f.type = SamsungMessage.audio.code ∧ ∃ samples, f.payload = sampleBytes samples

/-- Nothing has been played or sent for the request. -/
structure Untouched (k : ℕ) (log : List GuestEvent) : Prop where
  chunks : chunksFor k log = []
  sent : sentFor k log = []

/-- The worker has played these chunks of the text, and is not cancelled. -/
def Played (text : Bytes) (cancelling : Bool) (chunks : List Bytes) : Phase → Prop
  | .reset => chunks = []
  | .publish | .prepare | .control => cancelling = false ∧ chunks = []
  | .loop offset | .call offset =>
      cancelling = false ∧ offset ≤ text.length ∧ chunks.flatten = text.take offset
  | .playing _ next | .callback _ next _ _ =>
      cancelling = false ∧ next ≤ text.length ∧ chunks.flatten = text.take next
  | .stop true | .reply true => cancelling = false ∧ chunks.flatten = text
  | _ => False

/-- All of the text has been played, and DONE has been sent behind the audio. -/
structure Answered (k : ℕ) (f : Frame) (s : GuestState) : Prop where
  reader : Resting s.reader
  rests : Rests (Mine k f) s
  played : (chunksFor k s.log).flatten = speakText f
  sent : sentFor k s.log =
    audioFor k s.log ++ [(⟨SamsungMessage.done.code, f.generation, []⟩, some k)]
  audio : ∀ p ∈ audioFor k s.log, Spoken p.1

/-- Where a request is, with what is on the wire.  Whatever else is on its way is of another
generation, and a CANCEL is ahead of it. -/
inductive Stage (k : ℕ) (f : Frame) (s : GuestState) : List Frame → Prop
  | wire (before : List Frame) (hbefore : ∀ e ∈ before, e.generation ≠ f.generation)
      (hspeak : isSpeak f) (hclear : Clear f.generation s) : Stage k f s (before ++ [f])
  | post (hreader : s.reader = .post (jobOf k f)) (hrests : Rests (Mine k f) s)
      (hlog : Untouched k s.log) : Stage k f s []
  | pending (hreader : Resting s.reader) (hpending : s.pendingJob = some (jobOf k f))
      (hworker : RestsWorker (Mine k f) s.worker) (hlog : Untouched k s.log) : Stage k f s []
  | busy (phase : Phase) (hreader : Resting s.reader)
      (hpending : ∀ job, s.pendingJob = some job → ¬ Mine k f job)
      (hworker : s.worker = .busy (jobOf k f) phase)
      (hplayed : Played (speakText f) s.cancelling (chunksFor k s.log) phase)
      (haudio : ∀ p ∈ sentFor k s.log, Spoken p.1) : Stage k f s []
  | done (hanswered : Answered k f s) : Stage k f s []

/-- A message is of the generation exactly when it is for the request. -/
def Owned (k : ℕ) (g : UInt32) : GuestEvent → Prop
  | .sent f request => f.generation = g ↔ request = some k
  | _ => True

/-- The event is about another request, of another generation. -/
def Foreign (k : ℕ) (g : UInt32) : GuestEvent → Prop
  | .play request _ => request ≠ k
  | .sent f request => f.generation ≠ g ∧ request ≠ some k
  | _ => True

lemma Foreign.owned {e : GuestEvent} (h : Foreign k g e) : Owned k g e := by
  cases e with
  | sent f request => exact iff_of_false h.1 h.2
  | _ => trivial

lemma Other.foreign {e : GuestEvent} (h : Other (Mine k f) e) : Foreign k f.generation e := by
  cases h with
  | play job hjob chunk => exact fun heq => hjob (Or.inl heq)
  | sent job hjob f' hf =>
      exact ⟨fun heq => hjob (Or.inr (hf ▸ heq)), fun heq => hjob (Or.inl (Option.some.inj heq))⟩

lemma Mute.foreign {e : GuestEvent} (h : Mute e) : Foreign k g e := by
  cases e <;> trivial

/-- What is strange to the generation and below the request is about another one. -/
lemma Strange.foreign {n : ℕ} {e : GuestEvent} (h : Strange g e) (hbelow : Below n e)
    (hn : n ≤ k) : Foreign k g e := by
  cases e with
  | play request chunk => exact (lt_of_lt_of_le hbelow hn).ne
  | sent f request =>
      refine ⟨h, ?_⟩
      rintro rfl
      exact (hbelow k rfl).not_ge hn
  | _ => trivial

lemma sentFor_eq_nil {new : List GuestEvent} (h : ∀ e ∈ new, Foreign k g e) :
    sentFor k new = [] := by
  refine List.filter_eq_nil_iff.2 fun p hp => ?_
  simpa using (h _ (mem_sentFrames.1 hp)).2

lemma chunksFor_eq_nil {new : List GuestEvent} (h : ∀ e ∈ new, Foreign k g e) :
    chunksFor k new = [] := by
  refine List.filterMap_eq_nil_iff.2 fun e he => ?_
  cases e with
  | play request chunk => exact if_neg (h _ he)
  | _ => rfl

/-- Events about other requests leave what the guest has done for this one. -/
lemma Grows.eq_of_foreign {log log' : List GuestEvent} (h : Grows (Foreign k g) log log') :
    sentFor k log' = sentFor k log ∧ chunksFor k log' = chunksFor k log := by
  obtain ⟨new, rfl, hnew⟩ := h
  rw [sentFor_append, chunksFor_append, sentFor_eq_nil hnew, chunksFor_eq_nil hnew]
  simp

lemma Untouched.of_grows {log log' : List GuestEvent} (h : Untouched k log)
    (hlog : Grows (Foreign k g) log log') : Untouched k log' := by
  obtain ⟨hsent, hchunks⟩ := hlog.eq_of_foreign
  exact ⟨hchunks.trans h.chunks, hsent.trans h.sent⟩

lemma Answered.of_grows (h : Answered k f s) (hreader : Resting t.reader)
    (hrests : Rests (Mine k f) t) (hlog : Grows (Foreign k g) s.log t.log) : Answered k f t := by
  obtain ⟨hsent, hchunks⟩ := hlog.eq_of_foreign
  have haudio : audioFor k t.log = audioFor k s.log := by rw [audioFor, hsent, audioFor]
  exact ⟨hreader, hrests, by rw [hchunks, h.played], by rw [hsent, haudio]; exact h.sent,
    by rw [haudio]; exact h.audio⟩

/-- Nothing has been done for a request that has not been read. -/
lemma Serving.untouched (hs : Serving s) (hk : s.requests ≤ k) : Untouched k s.log := by
  constructor
  · refine List.filterMap_eq_nil_iff.2 fun e he => ?_
    cases e with
    | play request chunk => exact if_neg ((hs.issued _ he : request < s.requests).trans_le hk).ne
    | _ => rfl
  · refine List.filter_eq_nil_iff.2 fun p hp hrequest => ?_
    have hbelow := hs.issued _ (mem_sentFrames.1 hp)
    exact (hbelow k (by simpa using hrequest)).not_ge hk

/-! ### What a step does to a stage -/

/-- Between the calls nothing is played, and a worker that is not cancelled loses nothing. -/
lemma Played.inner {text : Bytes} {cancelling : Bool} {active : UInt32} {chunks : List Bytes}
    {phase phase' : Phase} (hplayed : Played text cancelling chunks phase)
    (hmove : InnerMove text.length cancelling active o phase phase') (ho : Succeeds o) :
    Played text cancelling chunks phase' := by
  cases hmove with
  | fits => exact hplayed
  | initError result options ho' h => simp [ho.not_initFailed ho' options] at h
  | start =>
      refine ⟨hplayed.1, Nat.zero_le _, ?_⟩
      rw [hplayed.2]
      rfl
  | enter offset hlt h => exact hplayed
  | endLoop offset h =>
      -- the worker is not cancelled, so it has come to the end of the text
      obtain ⟨hcancelling, -, hchunks⟩ := hplayed
      refine ⟨hcancelling, hchunks.trans (List.take_of_length_le ?_)⟩
      exact h.resolve_right (by simp [hcancelling])
  | call offset next samples ho' => exact hplayed
  | loaded offset next samples h => exact hplayed
  | pass offset next samples generation h => exact hplayed
  | leave offset next samples pc => exact hplayed
  | played offset next => exact hplayed
  | failed offset next result ho' h => exact absurd (ho.not_failed ho') h
  | cancelled succeeded h =>
      cases succeeded with
      | true => simp [hplayed.1] at h
      | false => exact hplayed.elim
  | completed succeeded h => cases succeeded <;> exact hplayed

/-- The worker goes on with the request: it plays the next chunk, passes audio on, or is done. -/
lemma Stage.workerMove_busy {phase : Phase} (h : WorkerMove s o t) (ho : Succeeds o)
    (hs : Serving s) (hreader : Resting s.reader)
    (hpending : ∀ job, s.pendingJob = some job → ¬ Mine k f job)
    (hworker : s.worker = .busy (jobOf k f) phase)
    (hplayed : Played (speakText f) s.cancelling (chunksFor k s.log) phase)
    (haudio : ∀ p ∈ sentFor k s.log, Spoken p.1) :
    Stage k f t [] ∧ Grows (Owned k f.generation) s.log t.log := by
  cases h with
  | idle pc synth hidle =>
      have hjob := hidle.job_eq.1
      rw [hworker] at hjob
      cases hjob
  | take job hpc hpending' => rw [hworker] at hpc; cases hpc
  | reset job hpc =>
      rw [hworker] at hpc
      cases hpc
      exact ⟨.busy .publish hreader hpending rfl ⟨rfl, hplayed⟩ haudio, .refl _⟩
  | publish job hpc =>
      rw [hworker] at hpc
      cases hpc
      exact ⟨.busy .prepare hreader hpending rfl hplayed haudio, .refl _⟩
  | inner job phase₁ phase₂ synth language model hpc hmove =>
      rw [hworker] at hpc
      cases hpc
      exact ⟨.busy phase₂ hreader hpending rfl (hplayed.inner hmove ho) haudio, .refl _⟩
  | play job offset synth hpc =>
      rw [hworker] at hpc
      cases hpc
      obtain ⟨hcancelling, hle, hchunks⟩ := hplayed
      obtain ⟨hstart, hend⟩ := nextChunkEnd_bounds hle
      have hsent (chunk : Bytes) : sentFor k (s.log ++ [.play k chunk]) = sentFor k s.log := by
        simp [sentFor, sentFrames, sent?]
      refine ⟨.busy _ hreader hpending rfl ⟨hcancelling, hend, ?_⟩
          (by rw [jobOf, hsent]; exact haudio),
        grows_singleton trivial⟩
      -- what has been played so far, and the next chunk
      have hnext : offset + (nextChunkEnd (speakText f) offset - offset) =
          nextChunkEnd (speakText f) offset := Nat.add_sub_of_le hstart
      simp only [jobOf, chunksFor_append, List.flatten_append, hchunks]
      simp [chunksFor, chunk?, ← List.take_add, hnext]
  | message job phase₁ phase₂ f' hpc hmessage =>
      have hphase := (hs.worker _ _ hworker).2
      rw [hworker] at hpc
      cases hpc
      have hgeneration := (hmessage.size_le hphase).2
      have hchunks : chunksFor k (s.log ++ [.sent f' (some k)]) = chunksFor k s.log := by
        simp [chunksFor, chunk?]
      have hsent : sentFor k (s.log ++ [.sent f' (some k)]) =
          sentFor k s.log ++ [(f', some k)] := by
        simp [sentFor, sentFrames, sent?]
      refine ⟨?_, grows_singleton (iff_of_true hgeneration rfl)⟩
      cases hmessage with
      | initError => exact hplayed.elim
      | audio offset next samples generation =>
          refine .busy _ hreader hpending rfl (by rw [jobOf, hchunks]; exact hplayed) fun p hp => ?_
          rw [jobOf, hsent, List.mem_append, List.mem_singleton] at hp
          rcases hp with hp | rfl
          · exact haudio p hp
          · exact ⟨rfl, _, rfl⟩
      | done =>
          change sentFor k (s.log ++ [.sent ⟨SamsungMessage.done.code, f.generation, []⟩ _]) = _
            at hsent
          have haudio' : audioFor k (s.log ++ [.sent ⟨SamsungMessage.done.code, f.generation, []⟩
              (some k)]) = sentFor k s.log := by
            rw [audioFor, hsent, List.filter_append, List.filter_eq_self.2]
            · exact List.append_nil _
            · exact fun p hp => beq_iff_eq.2 (haudio p hp).1
          refine .done ⟨hreader, ⟨hpending, ?_⟩, (congrArg List.flatten hchunks).trans hplayed.2,
            ?_, ?_⟩
          · rintro job phase ⟨⟩ -
            rfl
          · exact hsent.trans (congrArg (· ++ _) haudio'.symm)
          · exact fun p hp => haudio p (haudio' ▸ hp)
      | error => exact hplayed.elim
  | clear job hpc =>
      rw [hworker] at hpc
      cases hpc
      exact hplayed.elim

lemma Stage.workerMove {wire : List Frame} (h : WorkerMove s o t) (ho : Succeeds o) (hs : Serving s)
    (hcount : s.requests + wire.countP isSpeak = k + 1) (hstage : Stage k f s wire) :
    Stage k f t wire ∧ Grows (Owned k f.generation) s.log t.log := by
  have hreader' := h.reader.1
  cases hstage with
  | wire before hbefore hspeak hclear =>
      obtain ⟨hclear', hlog⟩ := hclear.workerMove h hs
      have hk : t.requests ≤ k := by
        rw [h.reader.2]
        rw [List.countP_append, List.countP_singleton, if_pos hspeak] at hcount
        omega
      exact ⟨.wire before hbefore hspeak hclear', ((h.serving ho hs).grows_below hlog).mono
        fun e he => (he.1.foreign he.2 hk).owned⟩
  | post hreader hrests huntouched =>
      obtain ⟨hrests', hlog⟩ := h.rests hs hrests
      have hforeign := hlog.mono fun _ => Other.foreign
      exact ⟨.post (hreader'.trans hreader) hrests' (huntouched.of_grows hforeign),
        hforeign.mono fun _ => Foreign.owned⟩
  | pending hreader hpending hworker huntouched =>
      rcases h.restsWorker hs hworker with ⟨job, hjob, rfl⟩ | ⟨hpending', hworker', hlog⟩
      · -- the worker takes the request
        obtain rfl : jobOf k f = job := Option.some.inj (hpending.symm.trans hjob)
        refine ⟨.busy .reset hreader nofun rfl huntouched.chunks ?_, .refl _⟩
        simp [huntouched.sent]
      · have hforeign := hlog.mono fun _ => Other.foreign
        exact ⟨.pending (hreader' ▸ hreader) (hpending'.trans hpending) hworker'
          (huntouched.of_grows hforeign), hforeign.mono fun _ => Foreign.owned⟩
  | busy phase hreader hpending hworker hplayed haudio =>
      exact Stage.workerMove_busy h ho hs hreader hpending hworker hplayed haudio
  | done hanswered =>
      obtain ⟨hrests', hlog⟩ := h.rests hs hanswered.rests
      have hforeign := hlog.mono fun _ => Other.foreign
      exact ⟨.done (hanswered.of_grows (hreader' ▸ hanswered.reader) hrests' hforeign),
        hforeign.mono fun _ => Foreign.owned⟩

/-- The turns of a reader that has nothing at hand. -/
lemma ReaderTurn.of_resting (h : ReaderTurn s t) (hreader : Resting s.reader) :
    Resting t.reader ∧ t.pendingJob = s.pendingJob ∧ t.log = s.log ∧ t.cancelling = s.cancelling ∧
      (t.worker = s.worker ∨ s.worker = .asleep ∧ t.worker = .predicate) := by
  cases h with
  | read hpc => exact ⟨trivial, rfl, rfl, rfl, Or.inl rfl⟩
  | notify hpc hworker => exact ⟨trivial, rfl, rfl, rfl, Or.inl rfl⟩
  | rouse hpc hworker => exact ⟨trivial, rfl, rfl, rfl, Or.inr ⟨hworker, rfl⟩⟩
  | post job hpc hfree => rw [hpc] at hreader; exact hreader.elim
  | miss generation hpc => rw [hpc] at hreader; exact hreader.elim
  | hit generation hpc => rw [hpc] at hreader; exact hreader.elim
  | store generation request hpc => rw [hpc] at hreader; exact hreader.elim
  | answer generation request hpc => rw [hpc] at hreader; exact hreader.elim

lemma Stage.readerTurn {wire : List Frame} (h : ReaderTurn s t) (hs : Serving s)
    (hcount : s.requests + wire.countP isSpeak = k + 1) (hstage : Stage k f s wire) :
    Stage k f t wire ∧ Grows (Owned k f.generation) s.log t.log := by
  -- a reader with nothing at hand touches the worker at most when it sleeps
  have hresting (hreader : Resting s.reader) (hworker : RestsWorker (Mine k f) s.worker) :
      RestsWorker (Mine k f) t.worker := by
    rcases (h.of_resting hreader).2.2.2.2 with heq | ⟨-, heq⟩
    · rwa [heq]
    · rw [heq]
      exact nofun
  cases hstage with
  | wire before hbefore hspeak hclear =>
      obtain ⟨hclear', hlog⟩ := hclear.readerTurn h
      have hrequests : t.requests = s.requests := by cases h <;> rfl
      have hk : t.requests ≤ k := by
        rw [hrequests]
        rw [List.countP_append, List.countP_singleton, if_pos hspeak] at hcount
        omega
      exact ⟨.wire before hbefore hspeak hclear', ((h.serving hs).grows_below hlog).mono
        fun e he => (he.1.foreign he.2 hk).owned⟩
  | post hreader hrests huntouched =>
      cases h with
      | post job hpc hfree =>
          obtain rfl : jobOf k f = job := ReaderPc.post.inj (hreader.symm.trans hpc)
          exact ⟨.pending trivial rfl hrests.worker huntouched, .refl _⟩
      | read hpc => rw [hreader] at hpc; cases hpc
      | notify hpc hworker => rw [hreader] at hpc; cases hpc
      | rouse hpc hworker => rw [hreader] at hpc; cases hpc
      | miss generation hpc => rw [hreader] at hpc; cases hpc
      | hit generation hpc => rw [hreader] at hpc; cases hpc
      | store generation request hpc => rw [hreader] at hpc; cases hpc
      | answer generation request hpc => rw [hreader] at hpc; cases hpc
  | pending hreader hpending hworker huntouched =>
      obtain ⟨hreader', hpending', hlog, -, -⟩ := h.of_resting hreader
      rw [hlog]
      exact ⟨.pending hreader' (hpending'.trans hpending) (hresting hreader hworker)
        (hlog ▸ huntouched), .refl _⟩
  | busy phase hreader hpending hworker hplayed haudio =>
      obtain ⟨hreader', hpending', hlog, hcancelling, hworker'⟩ := h.of_resting hreader
      have hbusy : t.worker = .busy (jobOf k f) phase := by
        rcases hworker' with heq | ⟨hasleep, -⟩
        · rw [heq, hworker]
        · rw [hworker] at hasleep
          cases hasleep
      rw [hlog]
      exact ⟨.busy phase hreader' (by rw [hpending']; exact hpending) hbusy
        (by rw [hcancelling, hlog]; exact hplayed) (by rw [hlog]; exact haudio), .refl _⟩
  | done hanswered =>
      have hrests := hanswered.rests
      obtain ⟨hreader', hpending', hlog, -, -⟩ := h.of_resting hanswered.reader
      have hrests' : Rests (Mine k f) t :=
        ⟨by rw [hpending']; exact hrests.pending, hresting hanswered.reader hrests.worker⟩
      have hgrows : Grows (Foreign k f.generation) s.log t.log := hlog ▸ .refl _
      exact ⟨.done (hanswered.of_grows hreader' hrests' hgrows), hgrows.mono fun _ => Foreign.owned⟩

/-- The next frame is read: one that is ahead of the request, or the request itself. -/
lemma Stage.receive {e : Frame} {rest : List Frame} (he : Legal e) (hs : Serving s)
    (hcount : s.requests + (e :: rest).countP isSpeak = k + 1) (hstage : Stage k f s (e :: rest))
    (h : receive s (.ofFrame e) = some t) :
    Stage k f t rest ∧ Grows (Owned k f.generation) s.log t.log := by
  refine ⟨?_, (mute_receive he h).mono fun _ hmute => hmute.foreign.owned⟩
  generalize hwire : e :: rest = wire at hstage hcount
  cases hstage with
  | wire before hbefore hspeak hclear =>
      cases before with
      | cons e' before =>
          obtain ⟨rfl, rfl⟩ : e = e' ∧ rest = before ++ [f] := by simpa using hwire
          exact .wire before (fun d hd => hbefore d (List.mem_cons_of_mem _ hd)) hspeak
            (hclear.receive he (hbefore e List.mem_cons_self) h)
      | nil =>
          obtain ⟨rfl, rfl⟩ : e = f ∧ rest = [] := by simpa using hwire
          have hk : s.requests = k := by
            rw [List.nil_append, List.countP_singleton, if_pos hspeak] at hcount
            omega
          subst hk
          cases he with
          | cancel generation => cases hspeak
          | speak generation payload hmin hmax =>
              have hforeign := (mute_receive (.speak generation payload hmin hmax) h).mono
                fun _ (hmute : Mute _) => hmute.foreign (k := s.requests) (g := generation)
              obtain rfl := receive_speak hmin hmax h
              refine .post rfl ⟨?_, ?_⟩ ((hs.untouched le_rfl).of_grows hforeign)
              · rintro job hjob (hmine | hmine)
                · exact (hs.pending job hjob).ne hmine
                · exact hclear.rests.pending job hjob hmine
              · rintro job phase hworker (hmine | hmine)
                · exact absurd hmine (hs.worker job phase hworker).1.ne
                · exact hclear.rests.worker job phase hworker hmine
  | _ => cases hwire

end SamsungTVVoices.Guest
