/-
The guest as it serves the driver: what every frame and every step leaves true.

`Serving` is what holds of a guest that reads only frames of the driver and whose engine never
fails.  `Rests P` says that the guest has nothing more to do for the jobs with `P`: none of them
waits, and the worker is at most about to let go of one.  The worker adds to the log only for jobs
that do not rest (`WorkerMove.rests`), so the messages for a generation, or for a request, are those
of the job that the guest is on.
-/
import SamsungTVVoices.Guest.Machine
import SamsungTVVoices.Host.Reader

namespace SamsungTVVoices.Guest

/-! ### What the guest has done for a request -/

/-- The message that an event sends, and the request that it answers. -/
def sent? : GuestEvent → Option (Frame × Option ℕ)
  | .sent f request => some (f, request)
  | _ => none

/-- The messages that the guest has sent. -/
def sentFrames (log : List GuestEvent) : List (Frame × Option ℕ) := log.filterMap sent?

/-- The messages that the guest has sent for a request. -/
def sentFor (k : ℕ) (log : List GuestEvent) : List (Frame × Option ℕ) :=
  (sentFrames log).filter (·.2 = some k)

def isAudio (f : Frame) : Bool := f.type == SamsungMessage.audio.code

/-- The message ends its request. -/
def isTerminal (f : Frame) : Bool :=
  f.type == SamsungMessage.done.code || f.type == SamsungMessage.error.code ||
    f.type == SamsungMessage.cancelled.code

/-- The AUDIO messages that the guest has sent for a request. -/
def audioFor (k : ℕ) (log : List GuestEvent) : List (Frame × Option ℕ) :=
  (sentFor k log).filter fun p => isAudio p.1

/-- The messages that the guest has sent for a request and that end it. -/
def terminalsFor (k : ℕ) (log : List GuestEvent) : List Frame :=
  ((sentFor k log).map (·.1)).filter isTerminal

/-- The chunk that an event plays for a request. -/
def chunk? (k : ℕ) : GuestEvent → Option Bytes
  | .play request chunk => if request = k then some chunk else none
  | _ => none

/-- The chunks of a request that the engine was called for. -/
def chunksFor (k : ℕ) (log : List GuestEvent) : List Bytes := log.filterMap (chunk? k)

/-- The text of a SPEAK. -/
def speakText (f : Frame) : Bytes := f.payload.drop SamsungSpeakOptions.byteSize

/-! ### Logs that grow -/

/-- The log has grown by events with `R`. -/
def Grows (R : GuestEvent → Prop) (log log' : List GuestEvent) : Prop :=
  ∃ new, log' = log ++ new ∧ ∀ e ∈ new, R e

section Grows

variable {R R' : GuestEvent → Prop} {log log' : List GuestEvent} {e : GuestEvent}

lemma Grows.refl (log : List GuestEvent) : Grows R log log := ⟨[], by simp, by simp⟩

lemma grows_singleton (h : R e) : Grows R log (log ++ [e]) := ⟨[e], rfl, by simpa using h⟩

lemma Grows.mono (h : Grows R log log') (hR : ∀ e, R e → R' e) : Grows R' log log' := by
  obtain ⟨new, hlog, hnew⟩ := h
  exact ⟨new, hlog, fun e he => hR e (hnew e he)⟩

lemma Grows.and (h : Grows R log log') (h' : Grows R' log log') :
    Grows (fun e => R e ∧ R' e) log log' := by
  obtain ⟨new, rfl, hnew⟩ := h
  obtain ⟨new', hlog, hnew'⟩ := h'
  obtain rfl := List.append_cancel_left hlog
  exact ⟨new, rfl, fun e he => ⟨hnew e he, hnew' e he⟩⟩

end Grows

@[simp] lemma sentFrames_append (log new : List GuestEvent) :
    sentFrames (log ++ new) = sentFrames log ++ sentFrames new := List.filterMap_append

@[simp] lemma sentFor_append (k : ℕ) (log new : List GuestEvent) :
    sentFor k (log ++ new) = sentFor k log ++ sentFor k new := by simp [sentFor]

@[simp] lemma audioFor_append (k : ℕ) (log new : List GuestEvent) :
    audioFor k (log ++ new) = audioFor k log ++ audioFor k new := by simp [audioFor]

@[simp] lemma chunksFor_append (k : ℕ) (log new : List GuestEvent) :
    chunksFor k (log ++ new) = chunksFor k log ++ chunksFor k new := List.filterMap_append

lemma mem_sentFrames {log : List GuestEvent} {p : Frame × Option ℕ} :
    p ∈ sentFrames log ↔ .sent p.1 p.2 ∈ log := by
  constructor
  · intro h
    obtain ⟨e, he, hsent⟩ := List.mem_filterMap.1 h
    cases e <;> cases hsent
    exact he
  · exact fun h => List.mem_filterMap.2 ⟨_, h, rfl⟩

/-! ### The frames of the driver -/

/-- A frame that the driver writes, with a text that the guest accepts. -/
inductive Legal : Frame → Prop
  | cancel (generation : UInt32) : Legal ⟨SamsungMessage.cancel.code, generation, []⟩
  | speak (generation : UInt32) (payload : Bytes)
      (hmin : SamsungSpeakOptions.byteSize < payload.length)
      (hmax : payload.length ≤ samsungProtocolMaxPayload) :
      Legal ⟨SamsungMessage.speak.code, generation, payload⟩

def isSpeak (f : Frame) : Bool := f.type == SamsungMessage.speak.code

/-- The job that the guest makes of a SPEAK. -/
def jobOf (k : ℕ) (f : Frame) : SpeechJob := ⟨k, f.generation, .ofBytes f.payload, speakText f⟩

variable {s t : GuestState} {o : Option Outside}

lemma receive_cancel {generation : UInt32}
    (h : receive s (.ofFrame ⟨SamsungMessage.cancel.code, generation, []⟩) = some t) :
    t = { s with
      reader := .cancelLoad .frame generation, log := s.log ++ [.cancelRead generation] } := by
  cases h
  rfl

lemma receive_speak {generation : UInt32} {payload : Bytes}
    (hmin : SamsungSpeakOptions.byteSize < payload.length)
    (hmax : payload.length ≤ samsungProtocolMaxPayload)
    (h : receive s (.ofFrame ⟨SamsungMessage.speak.code, generation, payload⟩) = some t) :
    t = { s with
      reader := .post (jobOf s.requests ⟨SamsungMessage.speak.code, generation, payload⟩)
      requests := s.requests + 1
      log := s.log ++ [.speak s.requests generation] } := by
  have hsize : (UInt32.ofNat payload.length).toNat = payload.length := by
    have hlt : payload.length < 2 ^ 32 := hmax.trans_lt (by decide)
    simpa using Nat.mod_eq_of_lt hlt
  have hlegal : ¬ (samsungProtocolMagic ≠ samsungProtocolMagic ∨
      samsungProtocolMaxPayload < (UInt32.ofNat payload.length).toNat) := by
    rw [hsize]
    simpa using hmax
  rw [Incoming.ofFrame, receive, Frame.header] at h
  dsimp only at h
  rw [if_neg hlegal, if_neg (not_not.2 hsize.symm), if_pos rfl, if_neg (not_le.2 hmin)] at h
  cases h
  rfl

lemma exists_receive (s : GuestState) {f : Frame} (hf : Legal f) :
    ∃ t, receive s (.ofFrame f) = some t := by
  cases hf with
  | cancel generation => exact ⟨_, rfl⟩
  | speak generation payload hmin hmax =>
      have hsize : (UInt32.ofNat payload.length).toNat = payload.length := by
        have hlt : payload.length < 2 ^ 32 := hmax.trans_lt (by decide)
        simpa using Nat.mod_eq_of_lt hlt
      rw [Incoming.ofFrame, receive, Frame.header]
      dsimp only
      rw [hsize, if_neg (by simpa using hmax), if_neg (by simp), if_pos rfl,
        if_neg (not_le.2 hmin)]
      exact ⟨_, rfl⟩

/-- The guest counts the requests that it reads. -/
lemma requests_receive {f : Frame} (hf : Legal f) (h : receive s (.ofFrame f) = some t) :
    t.requests = s.requests + if isSpeak f then 1 else 0 := by
  cases hf with
  | cancel generation => obtain rfl := receive_cancel h; rfl
  | speak generation payload hmin hmax => obtain rfl := receive_speak hmin hmax h; rfl

/-! ### A guest that serves -/

/-- The event is for one of the first `n` requests. -/
def Below (n : ℕ) : GuestEvent → Prop
  | .play k _ => k < n
  | .sent _ request => ∀ k ∈ request, k < n
  | _ => True

/-- The reader is in its loop, and what it has at hand is for one of the first `n` requests. -/
def ReaderServes (n : ℕ) : ReaderPc → Prop
  | .head | .read | .notifyOne | .cancelLoad .frame _ => True
  | .post job => job.request < n
  | .cancelStore .frame _ request | .cancelSend .frame _ request => ∀ k ∈ request, k < n
  | _ => False

/-- No call of the engine has failed, and what is to be sent carries the generation of the job. -/
def PhaseServes (generation active : UInt32) : Phase → Prop
  | .reset | .publish => True
  | .callback _ _ samples pc => active = generation ∧
      (sampleBytes (samples.getD [])).length ≤ Host.maxPayload ∧
      ∀ g, pc = .loadCancelling g ∨ pc = .send g → g = generation
  | .sendInitError | .stop false | .reply false => False
  | _ => active = generation

/-- What holds of a guest that reads only frames of the driver and whose engine never fails. -/
structure Serving (s : GuestState) : Prop where
  running : s.shuttingDown = false
  reader : ReaderServes s.requests s.reader
  pending : ∀ job, s.pendingJob = some job → job.request < s.requests
  worker : ∀ job phase, s.worker = .busy job phase →
    job.request < s.requests ∧ PhaseServes job.generation s.activeGeneration phase
  alive : s.worker ≠ .exited
  /-- A job that waits is seen: by the predicate of the wait, or by a notification to come. -/
  woken : s.worker = .woken → s.pendingJob ≠ none
  dozing : s.worker = .sleepy → s.pendingJob = none
  asleep : s.worker = .asleep → s.pendingJob ≠ none → s.reader = .notifyOne
  issued : ∀ e ∈ s.log, Below s.requests e

lemma serving_initialState : Serving initialState where
  running := rfl
  reader := trivial
  pending := nofun
  worker := nofun
  alive := nofun
  woken := nofun
  dozing := nofun
  asleep := nofun
  issued := by
    rintro e he
    obtain rfl := List.mem_singleton.1 he
    exact nofun

/-- What the engine and the condition variable of the guest do. -/
inductive Engine where
  /-- The calls of an initialisation return. -/
  | init
  | callback (samples : Option (List UInt16))
  | return
  /-- The wait ends without a notification. -/
  | wake
deriving DecidableEq, Repr

def Engine.outside : Engine → Outside
  | .init => .initResults fun _ => 1
  | .callback samples => .callback samples
  | .return => .return 1
  | .wake => .wake

/-- What the engine hands to the callback fits the host. -/
def Engine.Fits : Engine → Prop
  | .callback samples => (sampleBytes (samples.getD [])).length ≤ Host.maxPayload
  | _ => True

lemma makeCalls_of_one (calls : List (EngineCall × Bool)) :
    (makeCalls (fun _ => 1) calls).2 = true := by
  induction calls with
  | nil => rfl
  | cons call calls ih => simpa [makeCalls] using ih

/-- The engine does not fail. -/
def Succeeds (o : Option Outside) : Prop := o = none ∨ ∃ e : Engine, e.Fits ∧ o = some e.outside

lemma Succeeds.not_failed {result : Int32} (h : Succeeds o) (ho : o = some (.return result)) :
    result = 1 := by
  rcases h with rfl | ⟨e, -, rfl⟩
  · cases ho
  · cases e <;> cases ho
    rfl

lemma Succeeds.not_initFailed {result : EngineCall → Int32} (h : Succeeds o)
    (ho : o = some (.initResults result)) (options : SamsungSpeakOptions) :
    (initializeSynth result options).2 = true := by
  rcases h with rfl | ⟨e, -, rfl⟩
  · cases ho
  · cases e <;> cases ho
    exact makeCalls_of_one _

lemma Succeeds.fits {samples : Option (List UInt16)} (h : Succeeds o)
    (ho : o = some (.callback samples)) :
    (sampleBytes (samples.getD [])).length ≤ Host.maxPayload := by
  rcases h with rfl | ⟨e, he, rfl⟩
  · cases ho
  · cases e <;> cases ho
    exact he

/-- A move within a job keeps it well served, if the engine does not fail. -/
lemma InnerMove.phaseServes {length : ℕ} {cancelling : Bool} {active generation : UInt32}
    {phase phase' : Phase} (h : InnerMove length cancelling active o phase phase')
    (ho : Succeeds o) (hphase : PhaseServes generation active phase) :
    PhaseServes generation active phase' := by
  cases h with
  | fits => exact hphase
  | initError result options ho' h => simp [ho.not_initFailed ho' options] at h
  | start => exact hphase
  | enter offset hlt h => exact hphase
  | endLoop offset h => exact hphase
  | call offset next samples ho' => exact ⟨hphase, ho.fits ho', by simp⟩
  | loaded offset next samples h =>
      refine ⟨hphase.1, hphase.2.1, ?_⟩
      rintro g (hg | hg)
      · cases hg; exact hphase.1
      · cases hg
  | pass offset next samples g h =>
      refine ⟨hphase.1, hphase.2.1, ?_⟩
      rintro g' (hg | hg)
      · cases hg
      · cases hg; exact hphase.2.2 g (Or.inl rfl)
  | leave offset next samples pc => exact hphase.1
  | played offset next => exact hphase
  | failed offset next result ho' h => exact absurd (ho.not_failed ho') h
  | cancelled succeeded h => cases succeeded <;> first | exact hphase | exact hphase.elim
  | completed succeeded h => cases succeeded <;> exact hphase

lemma JobMessage.phaseServes {job : SpeechJob} {active : UInt32} {phase phase' : Phase} {f : Frame}
    (h : JobMessage job phase phase' f) (hphase : PhaseServes job.generation active phase) :
    PhaseServes job.generation active phase' := by
  cases h with
  | initError => exact hphase.elim
  | audio offset next samples generation => exact hphase.1
  | done => exact hphase
  | error => exact hphase.elim

lemma JobMessage.size_le {job : SpeechJob} {active : UInt32} {phase phase' : Phase} {f : Frame}
    (h : JobMessage job phase phase' f) (hphase : PhaseServes job.generation active phase) :
    f.payload.length ≤ Host.maxPayload ∧ f.generation = job.generation := by
  cases h with
  | initError => exact hphase.elim
  | audio offset next samples generation => exact ⟨hphase.2.1, hphase.2.2 _ (Or.inr rfl)⟩
  | done => exact ⟨Nat.zero_le _, rfl⟩
  | error => exact hphase.elim

lemma Below.mono {n m : ℕ} (hnm : n ≤ m) {e : GuestEvent} (h : Below n e) : Below m e := by
  cases e with
  | play k chunk => exact lt_of_lt_of_le h hnm
  | sent f request => exact fun k hk => (h k hk).trans_le hnm
  | _ => trivial

/-- The worker serves on. -/
lemma WorkerMove.serving (h : WorkerMove s o t) (ho : Succeeds o) (hs : Serving s) : Serving t := by
  -- a job that the worker is on, and the log, with what the move changes
  have hbusy (job : SpeechJob) (phase phase' : Phase) (hworker : s.worker = .busy job phase)
      (active : UInt32) (hphase : PhaseServes job.generation active phase') :
      ∀ j p, WorkerPc.busy job phase' = .busy j p →
        j.request < s.requests ∧ PhaseServes j.generation active p := by
    rintro j p ⟨⟩
    exact ⟨(hs.worker job phase hworker).1, hphase⟩
  have hlog (e : GuestEvent) (he : Below s.requests e) :
      ∀ d ∈ s.log ++ [e], Below s.requests d := by
    intro d hd
    rcases List.mem_append.1 hd with hd | hd
    · exact hs.issued d hd
    · exact List.mem_singleton.1 hd ▸ he
  cases h with
  | idle pc synth hidle =>
      refine ⟨hs.running, hs.reader, hs.pending, fun job phase hpc => ?_, fun hpc => ?_,
        fun hpc => ?_, fun hpc => ?_, fun hpc => ?_, hs.issued⟩
      · obtain rfl : pc = .busy job phase := hpc
        exact absurd hidle.job_eq.2 (by simp [WorkerPc.job?])
      · obtain rfl : pc = .exited := hpc
        generalize s.worker = pc' at hidle
        cases hidle with
        | exit pc' hpc' hdown => simp [hs.running] at hdown
      · obtain rfl : pc = .woken := hpc
        generalize hworker : s.worker = pc' at hidle
        cases hidle with
        | pass hpass => simpa [hs.running, Option.isSome_iff_ne_none] using hpass
      · obtain rfl : pc = .sleepy := hpc
        generalize hworker : s.worker = pc' at hidle
        cases hidle with
        | fail hfail => exact hfail
      · obtain rfl : pc = .asleep := hpc
        generalize hworker : s.worker = pc' at hidle
        cases hidle with
        | sleep => exact fun hne => absurd (hs.dozing hworker) hne
  | take job hworker hpending =>
      refine ⟨hs.running, hs.reader, nofun, ?_, nofun, nofun, nofun, nofun, hs.issued⟩
      rintro j p ⟨⟩
      exact ⟨hs.pending job hpending, trivial⟩
  | reset job hworker =>
      exact ⟨hs.running, hs.reader, hs.pending, hbusy job _ _ hworker _ trivial, nofun, nofun,
        nofun, nofun, hs.issued⟩
  | publish job hworker =>
      exact ⟨hs.running, hs.reader, hs.pending, hbusy job _ _ hworker _ rfl, nofun, nofun, nofun,
        nofun, hs.issued⟩
  | inner job phase phase' synth language model hworker hmove =>
      have hphase := hmove.phaseServes ho (hs.worker job phase hworker).2
      exact ⟨hs.running, hs.reader, hs.pending, hbusy job _ _ hworker _ hphase, nofun, nofun, nofun,
        nofun, hs.issued⟩
  | play job offset synth hworker =>
      obtain ⟨hrequest, hphase⟩ := hs.worker job _ hworker
      exact ⟨hs.running, hs.reader, hs.pending, hbusy job _ _ hworker _ hphase, nofun, nofun, nofun,
        nofun, hlog _ hrequest⟩
  | message job phase phase' f hworker hmessage =>
      obtain ⟨hrequest, hphase⟩ := hs.worker job _ hworker
      refine ⟨hs.running, hs.reader, hs.pending,
        hbusy job _ _ hworker _ (hmessage.phaseServes hphase),
        nofun, nofun, nofun, nofun, hlog _ ?_⟩
      rintro k ⟨⟩
      exact hrequest
  | clear job hworker =>
      exact ⟨hs.running, hs.reader, hs.pending, nofun, nofun, nofun, nofun, nofun, hs.issued⟩

/-! ### The turns of the reader -/

/-- What the reader of a serving guest does when it reads nothing. -/
inductive ReaderTurn (s : GuestState) : GuestState → Prop
  | read (hs : s.reader = .head) : ReaderTurn s { s with reader := .read }
  | post (job : SpeechJob) (hs : s.reader = .post job) (hfree : ¬ s.locked) :
      ReaderTurn s { s with pendingJob := some job, reader := .notifyOne }
  | notify (hs : s.reader = .notifyOne) (hworker : s.worker ≠ .asleep) :
      ReaderTurn s { s with reader := .head }
  | rouse (hs : s.reader = .notifyOne) (hworker : s.worker = .asleep) :
      ReaderTurn s { s with worker := .predicate, reader := .head }
  | miss (generation : UInt32) (hs : s.reader = .cancelLoad .frame generation) :
      ReaderTurn s { s with reader := .head, log := s.log ++ [.cancelHandled generation] }
  | hit (generation : UInt32) (hs : s.reader = .cancelLoad .frame generation) :
      ReaderTurn s { s with reader := .cancelStore .frame generation s.activeRequest }
  | store (generation : UInt32) (request : Option ℕ)
      (hs : s.reader = .cancelStore .frame generation request) :
      ReaderTurn s { s with cancelling := true, reader := .cancelSend .frame generation request }
  | answer (generation : UInt32) (request : Option ℕ)
      (hs : s.reader = .cancelSend .frame generation request) :
      ReaderTurn s { s with
        reader := .head
        log := s.log ++ [.sent ⟨SamsungMessage.cancelled.code, generation, []⟩ request,
          .cancelHandled generation] }

lemma exists_of_activeRequest {k : ℕ} (h : s.activeRequest = some k) :
    ∃ job phase, s.worker = .busy job phase ∧ job.request = k := by
  unfold GuestState.activeRequest at h
  split at h
  · next job phase hworker =>
      split at h
      · cases h
      · exact ⟨job, phase, hworker, Option.some.inj h⟩
  · cases h

lemma readerTurn (hs : Serving s) (h : readerStep s = some t) : ReaderTurn s t := by
  have hreader := hs.reader
  unfold readerStep at h
  split at h
  case h_1 hpc =>
    rw [if_neg (by simp [hs.running])] at h
    cases h
    exact .read hpc
  case h_2 => cases h
  case h_4 job hpc =>
    split at h
    · cases h
    · next hfree => cases h; exact .post job hpc hfree
  case h_5 hpc =>
    cases h
    rw [GuestState.notify]
    split
    · next hworker => exact .rouse hpc hworker
    · next hworker => exact .notify hpc hworker
  case h_6 site generation hpc =>
    rw [hpc] at hreader
    cases site with
    | frame =>
        split at h
        · cases h; exact .miss generation hpc
        · cases h; exact .hit generation hpc
    | quit => exact hreader.elim
    | shutdown => exact hreader.elim
  case h_7 site generation request hpc =>
    rw [hpc] at hreader
    cases site with
    | frame => cases h; exact .store generation request hpc
    | quit => exact hreader.elim
    | shutdown => exact hreader.elim
  case h_8 site generation request hpc =>
    rw [hpc] at hreader
    cases site with
    | frame =>
        cases h
        have hlog : s.log ++ [.sent ⟨SamsungMessage.cancelled.code, generation, []⟩ request,
            .cancelHandled generation] =
              s.log ++ [.sent ⟨SamsungMessage.cancelled.code, generation, []⟩ request] ++
                [.cancelHandled generation] := by simp
        have hturn := ReaderTurn.answer generation request hpc
        rw [hlog] at hturn
        exact hturn
    | quit => exact hreader.elim
    | shutdown => exact hreader.elim
  all_goals
    rename_i hpc
    rw [hpc] at hreader
    exact hreader.elim

lemma ReaderTurn.serving (h : ReaderTurn s t) (hs : Serving s) : Serving t := by
  have hreader := hs.reader
  -- the worker is only told of a job that waits when the reader is at `notifyOne`
  have hasleep (hpc : s.reader ≠ .notifyOne) : s.worker = .asleep → s.pendingJob ≠ none → False :=
    fun hworker hpending => hpc (hs.asleep hworker hpending)
  have hlog (e : GuestEvent) (he : Below s.requests e) :
      ∀ d ∈ s.log ++ [e], Below s.requests d := by
    intro d hd
    rcases List.mem_append.1 hd with hd | hd
    · exact hs.issued d hd
    · exact List.mem_singleton.1 hd ▸ he
  cases h with
  | read hpc =>
      exact ⟨hs.running, trivial, hs.pending, hs.worker, hs.alive, hs.woken, hs.dozing,
        fun hworker hpending => (hasleep (by simp [hpc]) hworker hpending).elim, hs.issued⟩
  | post job hpc hfree =>
      rw [hpc] at hreader
      refine ⟨hs.running, trivial, ?_, hs.worker, hs.alive, fun _ => nofun, fun hworker => ?_,
        fun _ _ => rfl, hs.issued⟩
      · rintro j ⟨⟩
        exact hreader
      · exact absurd (Or.inl hworker) hfree
  | notify hpc hworker =>
      exact ⟨hs.running, trivial, hs.pending, hs.worker, hs.alive, hs.woken, hs.dozing,
        fun hworker' => absurd hworker' hworker, hs.issued⟩
  | rouse hpc hworker =>
      exact ⟨hs.running, trivial, hs.pending, nofun, nofun, nofun, nofun, nofun, hs.issued⟩
  | miss generation hpc =>
      exact ⟨hs.running, trivial, hs.pending, hs.worker, hs.alive, hs.woken, hs.dozing,
        fun hworker hpending => (hasleep (by simp [hpc]) hworker hpending).elim, hlog _ trivial⟩
  | hit generation hpc =>
      refine ⟨hs.running, ?_, hs.pending, hs.worker, hs.alive, hs.woken, hs.dozing,
        fun hworker hpending => (hasleep (by simp [hpc]) hworker hpending).elim, hs.issued⟩
      intro k hk
      obtain ⟨job, phase, hworker, rfl⟩ := exists_of_activeRequest hk
      exact (hs.worker job phase hworker).1
  | store generation request hpc =>
      rw [hpc] at hreader
      exact ⟨hs.running, hreader, hs.pending, hs.worker, hs.alive, hs.woken, hs.dozing,
        fun hworker hpending => (hasleep (by simp [hpc]) hworker hpending).elim, hs.issued⟩
  | answer generation request hpc =>
      rw [hpc] at hreader
      refine ⟨hs.running, trivial, hs.pending, hs.worker, hs.alive, hs.woken, hs.dozing,
        fun hworker hpending => (hasleep (by simp [hpc]) hworker hpending).elim, fun d hd => ?_⟩
      rcases List.mem_append.1 hd with hd | hd
      · exact hs.issued d hd
      · rcases List.mem_pair.1 hd with rfl | rfl
        · exact hreader
        · trivial

/-- A frame of the driver is served. -/
lemma serving_receive {f : Frame} (hf : Legal f) (hpc : s.reader = .read) (hs : Serving s)
    (h : receive s (.ofFrame f) = some t) : Serving t := by
  have hasleep : s.worker = .asleep → s.pendingJob ≠ none → False := fun hworker hpending => by
    simp [hs.asleep hworker hpending] at hpc
  have hlog (n : ℕ) (hn : s.requests ≤ n) (e : GuestEvent) (he : Below n e) :
      ∀ d ∈ s.log ++ [e], Below n d := by
    intro d hd
    rcases List.mem_append.1 hd with hd | hd
    · exact (hs.issued d hd).mono hn
    · exact List.mem_singleton.1 hd ▸ he
  cases hf with
  | cancel generation =>
      obtain rfl := receive_cancel h
      exact ⟨hs.running, trivial, hs.pending, hs.worker, hs.alive, hs.woken, hs.dozing,
        fun hworker hpending => (hasleep hworker hpending).elim, hlog _ le_rfl _ trivial⟩
  | speak generation payload hmin hmax =>
      obtain rfl := receive_speak hmin hmax h
      have hle : s.requests ≤ s.requests + 1 := Nat.le_succ _
      exact ⟨hs.running, Nat.lt_succ_self _, fun job hjob => (hs.pending job hjob).trans_le hle,
        fun job phase hworker => ⟨(hs.worker job phase hworker).1.trans_le hle,
          (hs.worker job phase hworker).2⟩, hs.alive, hs.woken, hs.dozing,
        fun hworker hpending => (hasleep hworker hpending).elim, hlog _ hle _ trivial⟩

end SamsungTVVoices.Guest
