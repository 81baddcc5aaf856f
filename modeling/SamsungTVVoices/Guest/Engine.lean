/-
Which engine the guest speaks with (`synthesisWorker`, `initializeSynth`, `releaseSynth`).

The worker keeps one engine object from job to job, with the language and the model that it was
initialised for.  `EngineInv` ties the object to the last initialisation of the run, and the
worker past `SMTVoiceControl` to the controls of its job.  So each call for a chunk is made on an
engine that was initialised for its request, with the controls of its request
(`spokenRight_of_run`), and a failed initialisation leaves no engine behind.
-/
import SamsungTVVoices.Guest.Jobs
import SamsungTVVoices.Guest.Serve

open StepSystem

namespace SamsungTVVoices.Guest

/-! ### The property -/

/-- The pitch, the head size and the rate that a call of `SMTVoiceControl` passes. -/
def EngineCall.controls? : EngineCall → Option (Int32 × Int32 × Int32)
  | .voiceControl pitch headSize rate => some (pitch, headSize, rate)
  | _ => none

/-- What the latest call of `SMTVoiceControl` has passed. -/
def lastControls (calls : List EngineCall) : Option (Int32 × Int32 × Int32) :=
  (calls.filterMap EngineCall.controls?).getLast?

def EngineCall.language? : EngineCall → Option Int32
  | .setLanguage language _ => some language
  | _ => none

def EngineCall.model? : EngineCall → Option Int32
  | .modelSelect model => some model
  | _ => none

/-- These calls have set an engine up for the language and the model: each is set once, and every
call but that of `SMTSetMemory`, whose result the guest ignores, has returned 1. -/
structure SetUp (result : EngineCall → Int32) (language model : Int32)
    (calls : List EngineCall) : Prop where
  language : calls.filterMap EngineCall.language? = [language]
  model : calls.filterMap EngineCall.model? = [model]
  started : ∃ rootPath libraryPath, .init rootPath libraryPath ∈ calls
  streams : .setStreamCallback ∈ calls
  succeeded : ∀ call ∈ calls, result call = 1 ∨ ∃ size count, call = .setMemory size count

/-- The step is an initialisation. -/
def GuestAction.Initialises : GuestAction → Prop
  | .outside (.initResults _) => True
  | _ => False

/-- The last initialisation of the run has set the object up for this language and this model, and
it has not been set to others since; `calls` are what has been called on it since it was made. -/
def Initialised (done : List GuestAction) (language model : Int32) (calls : List EngineCall) :
    Prop :=
  ∃ before result rest u job setup more, done = before ++ .outside (.initResults result) :: rest ∧
    (∀ a ∈ rest, ¬ a.Initialises) ∧ run guestStep initialState before = some u ∧
    u.worker = .busy job .prepare ∧ calls = setup ++ more ∧ SetUp result language model setup ∧
    ∀ call ∈ more, call.language? = none ∧ call.model? = none

/-- The event is heard as part of the request. -/
def GuestEvent.Sounds (request : ℕ) : GuestEvent → Prop
  | .play r _ => r = request
  | .sent f r => r = some request ∧ f.type = SamsungMessage.audio.code
  | _ => False

/-- The answer to a request whose initialisation fails. -/
def initErrorEvent (job : SpeechJob) : GuestEvent :=
  .sent ⟨SamsungMessage.error.code, job.generation,
    utf8 "The Samsung voice could not be initialized."⟩ (some job.request)

/-- Every request is spoken with its own voice and controls, and one whose initialisation fails is
answered with ERROR and not spoken. -/
structure SpokenRight (requests : List (SamsungSpeakOptions × Bytes)) (as : List GuestAction)
    (s : GuestState) : Prop where
  /-- In a call of `SMTStartStreamingPlayUtf8`. -/
  playing : ∀ job offset next, s.worker = .busy job (.playing offset next) →
    ∃ options text calls, requests[job.request]? = some (options, text) ∧ s.synth = some calls ∧
      Initialised as options.language options.model calls ∧
      lastControls calls = some (options.pitch, options.headSize, options.rate)
  failed : ∀ before result rest u job, as = before ++ .outside (.initResults result) :: rest →
    run guestStep initialState before = some u → u.worker = .busy job .prepare →
    (initializeSynth result job.options).2 = false →
      (s.worker = .busy job .sendInitError ∨ initErrorEvent job ∈ s.log) ∧
      (∀ e ∈ s.log, ¬ e.Sounds job.request) ∧
      -- the next job that needs an engine has to initialise one, for whatever voice
      ((∀ a ∈ rest, ¬ a.Initialises) →
        ∀ job', s.worker = .busy job' .prepare → engineFits s job'.options = false)

variable {s t : GuestState} {o : Option Outside}

/-! ### An initialisation -/

/-- An initialisation succeeds if every call whose result is checked returns 1, and then all its
calls are made. -/
lemma makeCalls_succeeds_iff {result : EngineCall → Int32} {calls : List (EngineCall × Bool)} :
    (makeCalls result calls).2 = true ↔ ∀ p ∈ calls, p.2 = true → result p.1 = 1 := by
  induction calls with
  | nil => simp [makeCalls]
  | cons p calls ih =>
      rw [makeCalls, List.forall_mem_cons, ← ih]
      split
      · next hfail => simp [hfail.1, hfail.2]
      · next hok => exact ⟨fun h => ⟨fun hp => not_not.1 fun hne => hok ⟨hp, hne⟩, h⟩, And.right⟩

lemma makeCalls_of_succeeds {result : EngineCall → Int32} {calls : List (EngineCall × Bool)}
    (h : (makeCalls result calls).2 = true) :
    (makeCalls result calls).1 = calls.map Prod.fst := by
  induction calls with
  | nil => rfl
  | cons p calls ih =>
      rw [makeCalls] at h ⊢
      split at h
      · cases h
      · next hok =>
          rw [if_neg hok]
          exact congrArg (p.1 :: ·) (ih h)

lemma setUp_initializeSynth {result : EngineCall → Int32} {options : SamsungSpeakOptions}
    (h : (initializeSynth result options).2 = true) :
    SetUp result options.language options.model (initializeSynth result options).1 := by
  have hresults := makeCalls_succeeds_iff.1 h
  rw [initializeSynth, makeCalls_of_succeeds h]
  have hinit : .init "/opt/smt/runtime/" "/opt/smt/runtime/Lib/" ∈
      (initCalls options).map Prod.fst := by simp [initCalls]
  refine ⟨rfl, rfl, ⟨_, _, hinit⟩, by simp [initCalls], fun call hcall => ?_⟩
  obtain ⟨⟨call, checked⟩, hp, rfl⟩ := List.mem_map.1 hcall
  cases checked with
  | true => exact Or.inl (hresults _ hp rfl)
  | false =>
      have hmemory : call = .setMemory 12000 8 := by simpa [initCalls] using hp
      exact Or.inr ⟨_, _, hmemory⟩

/-! ### The engine -/

/-- What a step does to the engine. -/
inductive EngineMove (s : GuestState) (a : GuestAction) (t : GuestState) : Prop
  /-- There are only more calls. -/
  | calls (more : List EngineCall) (ha : ¬ a.Initialises)
      (hmore : ∀ call ∈ more, call.language? = none ∧ call.model? = none)
      (hsynth : t.synth = s.synth.map (· ++ more))
      (hlanguage : t.currentLanguage = s.currentLanguage) (hmodel : t.currentModel = s.currentModel)
  | release (ha : ¬ a.Initialises) (hsynth : t.synth = none)
  | replace (result : EngineCall → Int32) (job : SpeechJob)
      (ha : a = .outside (.initResults result)) (hs : s.worker = .busy job .prepare)
      (ht : t = (replaceEngine s job.options result).goOn job
        (if (initializeSynth result job.options).2 then .control else .sendInitError))

lemma map_append_nil (synth : Option (List EngineCall)) : synth = synth.map (· ++ []) := by
  cases synth <;> simp

lemma engineMove_jobStep {job : SpeechJob} {phase : Phase} {a : GuestAction}
    (ha : ¬ a.Initialises) (h : jobStep s job phase = some t) : EngineMove s a t := by
  have hkeep {u : GuestState} (hsynth : u.synth = s.synth)
      (hlanguage : u.currentLanguage = s.currentLanguage)
      (hmodel : u.currentModel = s.currentModel) : EngineMove s a u :=
    .calls [] ha (List.forall_mem_nil _) (hsynth.trans (map_append_nil _)) hlanguage hmodel
  cases phase with
  | prepare =>
      rw [jobStep] at h
      split at h
      · cases h; exact hkeep rfl rfl rfl
      · cases h
  | control =>
      cases h
      refine .calls [.voiceControl job.options.pitch job.options.headSize job.options.rate,
        .setControlStart] ha (by simp [EngineCall.language?, EngineCall.model?]) ?_ rfl rfl
      cases hsynth : s.synth <;> simp [callEngine, GuestState.goOn, hsynth]
  | call offset =>
      cases h
      exact .calls [_] ha (by simp [EngineCall.language?, EngineCall.model?]) rfl rfl rfl
  | playing offset next => cases h
  | callback offset next samples pc =>
      cases pc <;> cases h <;> exact hkeep rfl rfl rfl
  | stop succeeded =>
      cases h
      exact .calls [_] ha (by simp [EngineCall.language?, EngineCall.model?]) rfl rfl rfl
  | reply succeeded => cases succeeded <;> cases h <;> exact hkeep rfl rfl rfl
  | _ => cases h; exact hkeep rfl rfl rfl

lemma engineMove_workerStep {a : GuestAction} (ha : ¬ a.Initialises)
    (h : workerStep s = some t) : EngineMove s a t := by
  have hkeep {u : GuestState} (hsynth : u.synth = s.synth)
      (hlanguage : u.currentLanguage = s.currentLanguage)
      (hmodel : u.currentModel = s.currentModel) : EngineMove s a u :=
    .calls [] ha (List.forall_mem_nil _) (hsynth.trans (map_append_nil _)) hlanguage hmodel
  unfold workerStep at h
  split at h
  case h_1 =>
    split at h
    · cases h; exact .release ha rfl
    · cases h; exact hkeep rfl rfl rfl
  case h_5 =>
    split at h
    · cases h; exact .release ha rfl
    · obtain ⟨job, hjob, rfl⟩ := Option.map_eq_some_iff.1 h
      exact hkeep rfl rfl rfl
  case h_6 job phase hs => exact engineMove_jobStep ha h
  all_goals cases h
  all_goals exact hkeep rfl rfl rfl

lemma engineMove_outsideStep {o : Outside} (h : outsideStep s o = some t) :
    EngineMove s (.outside o) t := by
  unfold outsideStep at h
  split at h
  case h_1 => cases h; exact .calls [] id (List.forall_mem_nil _) (map_append_nil _) rfl rfl
  case h_2 _ job result hs =>
    split at h
    · cases h
    · cases h
      refine .replace result job rfl hs ?_
      rw [replaceEngine]
      cases hok : (initializeSynth result job.options).2 <;> simp
  case h_3 => cases h; exact .calls [] id (List.forall_mem_nil _) (map_append_nil _) rfl rfl
  case h_4 => cases h; exact .calls [] id (List.forall_mem_nil _) (map_append_nil _) rfl rfl
  case h_5 => cases h

/-- The reader has nothing to do with the engine. -/
lemma engine_readerStep (h : readerStep s = some t) :
    t.synth = s.synth ∧ t.currentLanguage = s.currentLanguage ∧
      t.currentModel = s.currentModel := by
  cases readerMove h <;> exact ⟨rfl, rfl, rfl⟩

lemma engineMove_guestStep {a : GuestAction} (h : guestStep s a = some t) : EngineMove s a t := by
  cases a with
  | receive incoming =>
      rw [guestStep] at h
      split at h
      · cases receiveMove h <;> exact .calls [] id (List.forall_mem_nil _) (map_append_nil _) rfl rfl
      · cases h
  | reader =>
      obtain ⟨hsynth, hlanguage, hmodel⟩ := engine_readerStep h
      exact .calls [] id (List.forall_mem_nil _) (hsynth.trans (map_append_nil _)) hlanguage hmodel
  | worker => exact engineMove_workerStep id h
  | outside o => exact engineMove_outsideStep h

/-! ### The invariant of the cache -/

/-- The engine is the one for the job, and has the controls of the job. -/
def Voiced (s : GuestState) (options : SamsungSpeakOptions) : Prop :=
  engineFits s options = true ∧
    s.synth.bind lastControls = some (options.pitch, options.headSize, options.rate)

/-- The engine is ready for what the worker does next for the job. -/
def EngineReady (s : GuestState) (options : SamsungSpeakOptions) : Phase → Prop
  | .control => engineFits s options = true
  | .loop _ | .call _ | .playing _ _ | .callback _ _ _ _ | .stop _ => Voiced s options
  | _ => True

structure EngineInv (done : List GuestAction) (s : GuestState) : Prop where
  run : run guestStep initialState done = some s
  jobs : JobsInv done s
  /-- The engine is what `currentLanguage` and `currentModel` say. -/
  engine : ∀ calls, s.synth = some calls →
    Initialised done s.currentLanguage s.currentModel calls
  ready : ∀ job phase, s.worker = .busy job phase → EngineReady s job.options phase

lemma engineInv_initial : EngineInv [] initialState := ⟨rfl, jobsInv_initial, nofun, nofun⟩

/-- Other steps leave the last initialisation the last one. -/
lemma Initialised.snoc {done : List GuestAction} {language model : Int32}
    {calls : List EngineCall} (h : Initialised done language model calls) {a : GuestAction}
    (ha : ¬ a.Initialises) {more : List EngineCall}
    (hmore : ∀ call ∈ more, call.language? = none ∧ call.model? = none) :
    Initialised (done ++ [a]) language model (calls ++ more) := by
  obtain ⟨before, result, rest, u, job, setup, late, rfl, hrest, hu, hjob, rfl, hsetup, hlate⟩ := h
  refine ⟨before, result, rest ++ [a], u, job, setup, late ++ more, by simp, fun b hb => ?_, hu,
    hjob, List.append_assoc _ _ _, hsetup, fun call hcall => ?_⟩
  · rcases List.mem_append.1 hb with hb | hb
    · exact hrest b hb
    · rwa [List.mem_singleton.1 hb]
  · exact (List.mem_append.1 hcall).elim (hlate call) (hmore call)

lemma EngineMove.engine {a : GuestAction} {done : List GuestAction} (h : EngineMove s a t)
    (hinv : EngineInv done s) : ∀ calls, t.synth = some calls →
      Initialised (done ++ [a]) t.currentLanguage t.currentModel calls := by
  intro calls hcalls
  cases h with
  | calls more ha hmore hsynth hlanguage hmodel =>
      rw [hsynth] at hcalls
      obtain ⟨old, hold, rfl⟩ := Option.map_eq_some_iff.1 hcalls
      rw [hlanguage, hmodel]
      exact (hinv.engine old hold).snoc ha hmore
  | release ha hsynth =>
      rw [hsynth] at hcalls
      cases hcalls
  | replace result job ha hs ht =>
      subst ha ht
      rw [replaceEngine] at hcalls ⊢
      cases hok : (initializeSynth result job.options).2 with
      | true =>
          simp only [hok, if_true, GuestState.goOn, Option.some.injEq] at hcalls ⊢
          subst hcalls
          exact ⟨done, result, [], s, job, _, [], rfl, by rintro _ ⟨⟩, hinv.run, hs,
            (List.append_nil _).symm, setUp_initializeSynth hok, List.forall_mem_nil _⟩
      | false => simp [hok, GuestState.goOn] at hcalls

/-! ### The controls -/

lemma engineFits_callEngine (s : GuestState) (call : EngineCall) (options : SamsungSpeakOptions) :
    engineFits (callEngine s call) options = engineFits s options := by
  rw [engineFits, engineFits, callEngine, Option.isSome_map]

lemma lastControls_append (calls more : List EngineCall) :
    lastControls (calls ++ more) = (lastControls more).or (lastControls calls) := by
  rw [lastControls, List.filterMap_append, List.getLast?_append]
  rfl

/-- Another call leaves the controls alone. -/
lemma Voiced.callEngine {options : SamsungSpeakOptions} (h : Voiced s options) {call : EngineCall}
    (hcall : call.controls? = none) : Voiced (callEngine s call) options := by
  refine ⟨(engineFits_callEngine s call options).trans h.1, ?_⟩
  obtain ⟨calls, hcalls, hlast⟩ := Option.bind_eq_some_iff.1 h.2
  rw [Guest.callEngine, hcalls]
  have hnone : lastControls [call] = none := by simp [lastControls, hcall]
  simp [lastControls_append, hnone, hlast]

/-- The controls of the job. -/
lemma voiced_voiceControl {options : SamsungSpeakOptions} (h : engineFits s options = true) :
    Voiced (callEngine s (.voiceControl options.pitch options.headSize options.rate)) options := by
  refine ⟨(engineFits_callEngine _ _ _).trans h, ?_⟩
  rw [engineFits, Bool.and_eq_true, Bool.and_eq_true] at h
  obtain ⟨calls, hcalls⟩ := Option.isSome_iff_exists.1 h.1.1
  rw [callEngine, hcalls, Option.map_some, Option.bind_some, lastControls_append]
  rfl

lemma engineReady_jobStep {job job' : SpeechJob} {phase phase' : Phase}
    (h : jobStep s job phase = some t) (hready : EngineReady s job.options phase)
    (ht : t.worker = .busy job' phase') : EngineReady t job'.options phase' := by
  cases phase with
  | prepare =>
      rw [jobStep] at h
      split at h
      · next hfits => cases h; cases ht; exact hfits
      · cases h
  | control =>
      cases h
      cases ht
      exact (voiced_voiceControl hready).callEngine rfl
  | loop offset =>
      cases h
      dsimp only [GuestState.goOn] at ht
      split at ht <;> cases ht <;> exact hready
  | call offset =>
      cases h
      cases ht
      exact Voiced.callEngine hready rfl
  | playing offset next => cases h
  | callback offset next samples pc =>
      cases pc with
      | loadGeneration =>
          cases h
          dsimp only [GuestState.goOn] at ht
          split at ht <;> cases ht <;> exact hready
      | loadCancelling generation =>
          cases h
          dsimp only [GuestState.goOn] at ht
          split at ht <;> cases ht <;> exact hready
      | send generation => cases h; cases ht; exact hready
  | stop succeeded =>
      cases h
      dsimp only [GuestState.goOn] at ht
      split at ht <;> cases ht <;> trivial
  | reply succeeded => cases succeeded <;> cases h <;> cases ht <;> trivial
  | clear => cases h; cases ht
  | _ => cases h; cases ht; trivial

lemma engineReady_workerStep {job : SpeechJob} {phase : Phase} (h : workerStep s = some t)
    (hready : ∀ job phase, s.worker = .busy job phase → EngineReady s job.options phase)
    (ht : t.worker = .busy job phase) : EngineReady t job.options phase := by
  unfold workerStep at h
  split at h
  case h_1 =>
    split at h <;> cases h <;> cases ht
  case h_2 =>
    cases h
    dsimp only at ht
    split at ht <;> cases ht
  case h_3 => cases h; cases ht
  case h_4 => cases h
  case h_5 =>
    split at h
    · cases h; cases ht
    · obtain ⟨job', -, rfl⟩ := Option.map_eq_some_iff.1 h
      cases ht
      trivial
  case h_6 job' phase' hs => exact engineReady_jobStep h (hready job' phase' hs) ht
  case h_7 => cases h

lemma engineReady_outsideStep {o : Outside} {job : SpeechJob} {phase : Phase}
    (h : outsideStep s o = some t)
    (hready : ∀ job phase, s.worker = .busy job phase → EngineReady s job.options phase)
    (ht : t.worker = .busy job phase) : EngineReady t job.options phase := by
  unfold outsideStep at h
  split at h
  case h_1 => cases h; cases ht
  case h_2 _ job' result hs =>
    split at h
    · cases h
    · cases h
      rw [replaceEngine] at ht ⊢
      cases hok : (initializeSynth result job'.options).2 with
      | true =>
          simp only [hok, if_true, Option.isSome_some, GuestState.goOn] at ht ⊢
          cases ht
          simp [EngineReady, engineFits]
      | false =>
          simp only [hok, Bool.false_eq_true, if_false, Option.isSome_none, GuestState.goOn] at ht ⊢
          cases ht
          trivial
  case h_3 _ job' offset next samples hs =>
    cases h
    cases ht
    exact hready _ _ hs
  case h_4 _ job' offset next result hs =>
    cases h
    dsimp only [GuestState.goOn] at ht
    split at ht <;> cases ht <;> exact hready _ _ hs
  case h_5 => cases h

lemma EngineInv.step {done : List GuestAction} {a : GuestAction} (hinv : EngineInv done s)
    (h : guestStep s a = some t) : EngineInv (done ++ [a]) t := by
  refine ⟨run_append.2 ⟨s, hinv.run, run_cons_eq_some.2 ⟨t, h, rfl⟩⟩, jobsInv_guestStep hinv.jobs h,
    (engineMove_guestStep h).engine hinv, fun job phase ht => ?_⟩
  cases a with
  | receive incoming =>
      rw [guestStep] at h
      split at h
      · cases receiveMove h <;> exact hinv.ready job phase ht
      · cases h
  | reader =>
      cases readerMove h with
      | pass pc shuttingDown worker hpc hworker =>
          rcases hworker with rfl | ⟨-, rfl⟩
          · exact hinv.ready job phase ht
          · cases ht
      | _ => exact hinv.ready job phase ht
  | worker => exact engineReady_workerStep h hinv.ready ht
  | outside o => exact engineReady_outsideStep h hinv.ready ht

/-! ### Where a request can be -/

/-- A set of phases that the worker leaves only by letting go of the job. -/
structure ClosedPhases (Φ : Phase → Prop) : Prop where
  reset : ¬ Φ .reset
  publish : ¬ Φ .publish
  inner : ∀ {length cancelling active} {o : Option Outside} {phase phase'},
    InnerMove length cancelling active o phase phase' → Φ phase → Φ phase'
  play : ∀ offset next, Φ (.call offset) → Φ (.playing offset next)
  message : ∀ {job phase phase' f}, JobMessage job phase phase' f → Φ phase → Φ phase'

/-- The request has been read, and if its job is in the guest, the worker is on it, at one of
these phases. -/
structure OnlyAt (Φ : Phase → Prop) (k : ℕ) (s : GuestState) : Prop where
  issued : k < s.requests
  worker : ∀ job ∈ jobsIn s, job.request = k → ∃ phase, s.worker = .busy job phase ∧ Φ phase

variable {Φ : Phase → Prop} {k : ℕ}

/-- The worker's job is the only one of its request. -/
lemma eq_of_request {job job' : SpeechJob} (horder : (jobsIn s).Pairwise (·.request < ·.request))
    (hjob : s.worker.job? = some job) (hjob' : job' ∈ jobsIn s)
    (heq : job'.request = job.request) : job' = job := by
  rw [jobsIn, hjob, List.append_assoc] at horder hjob'
  rcases List.mem_cons.1 hjob' with rfl | hrest
  · rfl
  · exact absurd ((List.pairwise_cons.1 horder).1 job' hrest) (by omega)

lemma OnlyAt.workerMove (hΦ : ClosedPhases Φ) (h : WorkerMove s o t)
    (horder : (jobsIn s).Pairwise (·.request < ·.request)) (hk : OnlyAt Φ k s) : OnlyAt Φ k t := by
  refine ⟨by rw [h.reader.2]; exact hk.issued, fun job hjob hrequest => ?_⟩
  obtain ⟨phase, hpc, hphase⟩ := hk.worker job (h.jobsIn_sublist.subset hjob) hrequest
  cases h with
  | idle pc synth hidle =>
      rw [hpc] at hidle
      cases hidle.job_eq.1
  | take job' hs hpending => rw [hs] at hpc; cases hpc
  | reset job' hs => rw [hs] at hpc; cases hpc; exact absurd hphase hΦ.reset
  | publish job' hs => rw [hs] at hpc; cases hpc; exact absurd hphase hΦ.publish
  | inner job' phase₁ phase₂ synth language model hs hmove =>
      rw [hs] at hpc
      cases hpc
      exact ⟨_, rfl, hΦ.inner hmove hphase⟩
  | play job' offset synth hs =>
      rw [hs] at hpc
      cases hpc
      exact ⟨_, rfl, hΦ.play _ _ hphase⟩
  | message job' phase₁ phase₂ f hs hmessage =>
      rw [hs] at hpc
      cases hpc
      exact ⟨_, rfl, hΦ.message hmessage hphase⟩
  | clear job' hs =>
      -- the other jobs are of later requests
      rw [hs] at hpc
      cases hpc
      rw [jobsIn, hs, List.append_assoc] at horder
      exact absurd ((List.pairwise_cons.1 horder).1 job hjob) (lt_irrefl _)

lemma OnlyAt.guestStep (hΦ : ClosedPhases Φ) {a : GuestAction} (h : guestStep s a = some t)
    (horder : (jobsIn s).Pairwise (·.request < ·.request)) (hk : OnlyAt Φ k s) : OnlyAt Φ k t := by
  cases a with
  | receive incoming =>
      rw [Guest.guestStep] at h
      split at h
      · have hheard := heard h
        refine ⟨hk.issued.trans_le hheard.worker.2, fun job hjob hrequest => ?_⟩
        rw [hheard.worker.1]
        rcases hheard.mem_jobsIn hjob with hjob | hnew
        · exact hk.worker job hjob hrequest
        · exact absurd hk.issued (by omega)
      · cases h
  | reader =>
      have hmove := readerMove h
      have hrequests : t.requests = s.requests := by cases hmove <;> rfl
      refine ⟨by rw [hrequests]; exact hk.issued, fun job hjob hrequest => ?_⟩
      obtain ⟨phase, hpc, hphase⟩ := hk.worker job (hmove.jobsIn_sublist.subset hjob) hrequest
      refine ⟨phase, ?_, hphase⟩
      cases hmove with
      | pass pc shuttingDown worker hplain hworker =>
          rcases hworker with rfl | ⟨hasleep, -⟩
          · exact hpc
          · rw [hasleep] at hpc
            cases hpc
      | _ => exact hpc
  | worker => exact hk.workerMove hΦ (workerMove_workerStep h) horder
  | outside o => exact hk.workerMove hΦ (workerMove_outsideStep h) horder

/-! ### What is heard -/

/-- The worker has come to the controls. -/
def Phase.Speaking : Phase → Prop
  | .loop _ | .call _ | .playing _ _ | .callback _ _ _ _ | .stop _ | .reply _ | .clear => True
  | _ => False

lemma closedPhases_speaking : ClosedPhases Phase.Speaking where
  reset := id
  publish := id
  inner := fun hmove hphase => by cases hmove <;> first | exact hphase.elim | trivial
  play := fun _ _ _ => trivial
  message := fun hmessage hphase => by cases hmessage <;> first | exact hphase.elim | trivial

/-- The worker has failed to initialise the engine. -/
def Phase.Refusing : Phase → Prop
  | .sendInitError | .clear => True
  | _ => False

lemma closedPhases_refusing : ClosedPhases Phase.Refusing where
  reset := id
  publish := id
  inner := fun hmove hphase => by cases hmove <;> exact hphase.elim
  play := fun _ _ h => h
  message := fun hmessage hphase => by cases hmessage <;> first | exact hphase.elim | trivial

lemma not_sounds (type : SamsungMessage) (htype : type ≠ .audio) (generation : UInt32)
    (payload : Bytes) (request : Option ℕ) (k : ℕ) :
    ¬ (GuestEvent.sent ⟨type.code, generation, payload⟩ request).Sounds k :=
  fun hk => htype (SamsungMessage.code_injective hk.2)

/-- The event is heard as part of a request only if the worker is at it before and after the
step. -/
def HeardFrom (pc pc' : WorkerPc) (e : GuestEvent) : Prop :=
  ∀ k, e.Sounds k → ∃ job phase phase', pc = .busy job phase ∧ pc' = .busy job phase' ∧
    job.request = k ∧ ¬ phase.Refusing ∧ phase'.Speaking

lemma WorkerMove.heardFrom (h : WorkerMove s o t) :
    Grows (HeardFrom s.worker t.worker) s.log t.log := by
  cases h with
  | play job offset synth hs =>
      refine grows_singleton fun k hk => ?_
      exact ⟨job, _, _, hs, rfl, hk, id, trivial⟩
  | message job phase phase' f hs hmessage =>
      refine grows_singleton fun k hk => ?_
      cases hmessage with
      | audio offset next samples generation =>
          cases hk.1
          exact ⟨job, _, _, hs, rfl, rfl, id, trivial⟩
      | initError => exact absurd hk (not_sounds .error nofun _ _ _ k)
      | done => exact absurd hk (not_sounds .done nofun _ _ _ k)
      | error => exact absurd hk (not_sounds .error nofun _ _ _ k)
  | _ => exact .refl _

/-- The reader sends no audio. -/
lemma grows_readerStep (h : readerStep s = some t) :
    Grows (fun e => ∀ k, ¬ e.Sounds k) s.log t.log := by
  obtain ⟨worker, hnotify, -⟩ := notify_eq s
  rw [readerStep, hnotify] at h
  split at h
  case h_3 generation hpc =>
    cases h
    exact grows_singleton (not_sounds .error nofun _ _ _)
  case h_6 site generation hpc =>
    split at h
    · cases h
      cases site with
      | frame => exact grows_singleton fun _ => id
      | _ => exact .refl _
    · cases h; exact .refl _
  case h_8 site generation request hpc =>
    cases h
    cases site with
    | frame =>
        refine ⟨_, List.append_assoc _ _ _, fun e he => ?_⟩
        rcases List.mem_pair.1 he with rfl | rfl
        · exact not_sounds .cancelled nofun _ _ _
        · exact fun _ => id
    | _ => exact grows_singleton (not_sounds .cancelled nofun _ _ _)
  case h_4 => split at h <;> cases h; exact .refl _
  case h_15 => split at h <;> cases h; exact .refl _
  all_goals cases h
  all_goals exact .refl _

lemma grows_receive {incoming : Incoming} (h : receive s incoming = some t) :
    Grows (fun e => ∀ k, ¬ e.Sounds k) s.log t.log := by
  cases receiveMove h with
  | pass pc hpc => exact .refl _
  | speak generation options text => exact grows_singleton fun _ => id
  | cancel generation => exact grows_singleton fun _ => id

lemma heardFrom_guestStep {a : GuestAction} (h : guestStep s a = some t) :
    Grows (HeardFrom s.worker t.worker) s.log t.log := by
  cases a with
  | receive incoming =>
      rw [guestStep] at h
      split at h
      · exact (grows_receive h).mono fun e he k hk => absurd hk (he k)
      · cases h
  | reader => exact (grows_readerStep h).mono fun e he k hk => absurd hk (he k)
  | worker => exact (workerMove_workerStep h).heardFrom
  | outside o => exact (workerMove_outsideStep h).heardFrom

/-- What has been heard is of requests whose jobs have come to the controls. -/
def HeardRight (s : GuestState) : Prop :=
  ∀ e ∈ s.log, ∀ k, e.Sounds k → OnlyAt Phase.Speaking k s

lemma heardRight_guestStep {done : List GuestAction} {a : GuestAction} (hinv : JobsInv done s)
    (hs : HeardRight s) (h : guestStep s a = some t) : HeardRight t := by
  intro e he k hk
  obtain ⟨new, hlog, hnew⟩ := heardFrom_guestStep h
  rw [hlog] at he
  rcases List.mem_append.1 he with he | he
  · exact (hs e he k hk).guestStep closedPhases_speaking h hinv.order
  · obtain ⟨job, phase, phase', hpc, hpc', rfl, -, hphase'⟩ := hnew e he k hk
    have hinv' := jobsInv_guestStep hinv h
    have hjob' : job ∈ jobsIn t := by simp [jobsIn, hpc', WorkerPc.job?]
    obtain ⟨payload, hpayload, -⟩ := hinv'.madeOf job hjob'
    refine ⟨?_, fun j hj hrequest => ?_⟩
    · rw [hinv'.requests]
      exact (List.getElem?_eq_some_iff.1 hpayload).1
    · obtain rfl := eq_of_request hinv'.order (by rw [hpc']; rfl) hj hrequest
      exact ⟨phase', hpc', hphase'⟩

/-! ### Failed initialisations -/

/-- The initialisation for this job has failed. -/
structure Refused (job : SpeechJob) (s : GuestState) : Prop where
  answered : s.worker = .busy job .sendInitError ∨ initErrorEvent job ∈ s.log
  silent : ∀ e ∈ s.log, ¬ e.Sounds job.request
  only : OnlyAt Phase.Refusing job.request s

lemma WorkerMove.answered {job : SpeechJob} (h : WorkerMove s o t)
    (hs : s.worker = .busy job .sendInitError) : initErrorEvent job ∈ t.log := by
  cases h with
  | idle pc synth hidle =>
      rw [hs] at hidle
      cases hidle.job_eq.1
  | inner job' phase phase' synth language model hs' hmove =>
      rw [hs] at hs'
      cases hs'
      cases hmove
  | message job' phase phase' f hs' hmessage =>
      rw [hs] at hs'
      cases hs'
      cases hmessage
      exact List.mem_append_right _ List.mem_cons_self
  | take job' hs' => rw [hs] at hs'; cases hs'
  | reset job' hs' => rw [hs] at hs'; cases hs'
  | publish job' hs' => rw [hs] at hs'; cases hs'
  | play job' offset synth hs' => rw [hs] at hs'; cases hs'
  | clear job' hs' => rw [hs] at hs'; cases hs'

lemma Refused.guestStep {job : SpeechJob} {done : List GuestAction} {a : GuestAction}
    (hinv : JobsInv done s) (hs : Refused job s) (h : guestStep s a = some t) : Refused job t := by
  obtain ⟨new, hlog, hnew⟩ := heardFrom_guestStep h
  refine ⟨?_, fun e he hsounds => ?_, hs.only.guestStep closedPhases_refusing h hinv.order⟩
  · rcases hs.answered with hpc | hmem
    · cases a with
      | receive incoming =>
          rw [Guest.guestStep] at h
          split at h
          · exact Or.inl ((heard h).worker.1.trans hpc)
          · cases h
      | reader =>
          left
          cases readerMove h with
          | pass pc shuttingDown worker hplain hworker =>
              rcases hworker with rfl | ⟨hasleep, -⟩
              · exact hpc
              · rw [hasleep] at hpc
                cases hpc
          | _ => exact hpc
      | worker => exact Or.inr ((workerMove_workerStep h).answered hpc)
      | outside o => exact Or.inr ((workerMove_outsideStep h).answered hpc)
    · exact Or.inr (hlog ▸ List.mem_append_left _ hmem)
  · rw [hlog] at he
    rcases List.mem_append.1 he with he | he
    · exact hs.silent e he hsounds
    · -- the worker would be at this request, and not where it has failed
      obtain ⟨job', phase, phase', hpc, -, hrequest, hphase, -⟩ := hnew e he _ hsounds
      obtain ⟨phase'', hpc', hrefusing⟩ := hs.only.worker job'
        (by simp [jobsIn, hpc, WorkerPc.job?]) hrequest
      rw [hpc] at hpc'
      cases hpc'
      exact hphase hrefusing

/-- A step that is not an initialisation brings no engine. -/
lemma EngineMove.none_of_none {a : GuestAction} (h : EngineMove s a t) (ha : ¬ a.Initialises)
    (hs : s.synth = none) : t.synth = none := by
  cases h with
  | calls more _ _ hsynth => rw [hsynth, hs]; rfl
  | release _ hsynth => exact hsynth
  | replace result job heq => subst heq; exact absurd trivial ha

/-- The step in which the initialisation fails. -/
lemma refused_of_initResults {job : SpeechJob} {done : List GuestAction}
    {result : EngineCall → Int32} (hinv : JobsInv done s) (hheard : HeardRight s)
    (hs : s.worker = .busy job .prepare) (hfail : (initializeSynth result job.options).2 = false)
    (h : guestStep s (.outside (.initResults result)) = some t) :
    Refused job t ∧ t.synth = none := by
  have hjob : job ∈ jobsIn s := by simp [jobsIn, hs, WorkerPc.job?]
  have hjobs := (workerMove_outsideStep h).jobsIn_sublist
  obtain ⟨payload, hpayload, -⟩ := hinv.madeOf job hjob
  simp only [guestStep, outsideStep, hs] at h
  split at h
  · cases h
  · rw [replaceEngine] at h
    simp only [hfail, Bool.false_eq_true, if_false, Option.isSome_none, GuestState.goOn] at h
    cases h
    refine ⟨⟨Or.inl rfl, fun e he hsounds => ?_, ?_, fun j hj hrequest => ?_⟩, rfl⟩
    · obtain ⟨phase, hpc, hphase⟩ := (hheard e he _ hsounds).worker job hjob rfl
      rw [hs] at hpc
      cases hpc
      exact hphase
    · rw [hinv.requests]
      exact (List.getElem?_eq_some_iff.1 hpayload).1
    · obtain rfl := eq_of_request hinv.order (by rw [hs]; rfl) (hjobs.subset hj) hrequest
      exact ⟨.sendInitError, rfl, trivial⟩

/-! ### Runs -/

lemma heardRight_initial : HeardRight initialState := by
  intro e he k hk
  obtain rfl := List.mem_singleton.1 he
  exact absurd hk (not_sounds .ready nofun _ _ _ k)

lemma engineInv_of_run {as : List GuestAction} (hrun : run guestStep initialState as = some s) :
    EngineInv as s ∧ HeardRight s :=
  run_history (I := fun done s => EngineInv done s ∧ HeardRight s)
    (fun _ _ _ _ hinv h => ⟨hinv.1.step h, heardRight_guestStep hinv.1.jobs hinv.2 h⟩)
    ⟨engineInv_initial, heardRight_initial⟩ hrun

/-- The request of a job, where every payload is packed by the driver. -/
lemma exists_request {requests : List (SamsungSpeakOptions × Bytes)} {as : List GuestAction}
    (hpacked : requestsRead as = requests.map fun r => r.1.toBytes ++ r.2) (hinv : JobsInv as s)
    {job : SpeechJob} (hjob : job ∈ jobsIn s) :
    ∃ text, requests[job.request]? = some (job.options, text) := by
  obtain ⟨payload, hpayload, hoptions, -⟩ := hinv.madeOf job hjob
  rw [hpacked, List.getElem?_map] at hpayload
  obtain ⟨⟨options, text⟩, hrequest, rfl⟩ := Option.map_eq_some_iff.1 hpayload
  rw [SamsungSpeakOptions.ofBytes_toBytes_append] at hoptions
  exact ⟨text, hoptions ▸ hrequest⟩

/-- **Voices.** Every call for a chunk is made on an engine that was initialised for its request
and has the controls of its request; a request whose initialisation fails is answered with ERROR
and not heard, and the next job initialises an engine again. -/
theorem spokenRight_of_run (requests : List (SamsungSpeakOptions × Bytes)) (as : List GuestAction)
    (hrun : run guestStep initialState as = some s)
    (hpacked : requestsRead as = requests.map fun r => r.1.toBytes ++ r.2) :
    SpokenRight requests as s where
  playing := by
    intro job offset next hpc
    obtain ⟨hinv, -⟩ := engineInv_of_run hrun
    obtain ⟨text, hrequest⟩ := exists_request hpacked hinv.jobs
      (show job ∈ jobsIn s by simp [jobsIn, hpc, WorkerPc.job?])
    obtain ⟨hfits, hcontrols⟩ : Voiced s job.options := hinv.ready job _ hpc
    obtain ⟨calls, hcalls, hlast⟩ := Option.bind_eq_some_iff.1 hcontrols
    have hengine := hinv.engine calls hcalls
    simp only [engineFits, Bool.and_eq_true, beq_iff_eq] at hfits
    rw [hfits.1.2, hfits.2] at hengine
    exact ⟨job.options, text, calls, hrequest, hcalls, hengine, hlast⟩
  failed := by
    rintro before result rest u job rfl hu hpc hfail
    obtain ⟨hinv, hheard⟩ := engineInv_of_run hu
    obtain ⟨u', hu', hrest⟩ := run_append.1 hrun
    obtain rfl : u = u' := Option.some.inj (hu.symm.trans hu')
    obtain ⟨v, hv, hrest⟩ := run_cons_eq_some.1 hrest
    obtain ⟨hrefused, hnone⟩ := refused_of_initResults hinv.jobs hheard hpc hfail hv
    have hfinal := (run_history_from (G := fun _ _ => True)
      (I := fun done w => JobsInv done w ∧ Refused job w)
      (fun done w a w' hw _ h => ⟨jobsInv_guestStep hw.1 h, hw.2.guestStep hw.1 h⟩)
      ⟨jobsInv_guestStep hinv.jobs hv, hrefused⟩ (along_true v rest) hrest).2
    refine ⟨hfinal.answered, hfinal.silent, fun hrestless job' _ => ?_⟩
    have hempty : s.synth = none :=
      run_invariant_along (G := fun _ a => ¬ a.Initialises)
        (fun w a w' hw ha h => (engineMove_guestStep h).none_of_none ha hw) hnone
        (along_of_forall hrestless v) hrest
    rw [engineFits, hempty]
    rfl

/-- Two requests for the same voice, whose first initialisation fails. -/
def failedThenSpoken : List GuestAction :=
  let frame (generation : UInt32) : Frame := ⟨SamsungMessage.speak.code, generation,
    (⟨1, 2, 3, 4, -5⟩ : SamsungSpeakOptions).toBytes ++ [97]⟩
  [.reader, .receive (.ofFrame (frame 1)), .reader, .reader, .worker, .worker, .worker, .worker,
    .worker, .outside (.initResults fun _ => 0), .worker, .worker, .reader,
    .receive (.ofFrame (frame 2)), .reader, .reader, .worker, .worker, .worker, .worker, .worker,
    .outside (.initResults fun _ => 1), .worker, .worker, .worker]

theorem spokenRight_failedThenSpoken : ∃ s,
    run guestStep initialState failedThenSpoken = some s ∧
      s.worker.job?.isSome ∧
        SpokenRight [(⟨1, 2, 3, 4, -5⟩, [97]), (⟨1, 2, 3, 4, -5⟩, [97])] failedThenSpoken s := by
  have hsome : ∃ s ∈ run guestStep initialState failedThenSpoken, s.worker.job?.isSome := by
    decide +kernel
  obtain ⟨s, hs, hjob⟩ := hsome
  exact ⟨s, hs, hjob, spokenRight_of_run _ failedThenSpoken hs (by decide +kernel)⟩

end SamsungTVVoices.Guest
