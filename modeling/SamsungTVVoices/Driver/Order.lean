/-
The order of the driver's speech.

In every run in which every text can be sent and a new generation is one that nothing in flight
still carries, the driver's speech is in order (`speechInOrder_of_run`).  A text with a lone
surrogate makes `encode` raise, and its job is cut short without having been superseded.
-/
import SamsungTVVoices.Driver.Track
import SamsungTVVoices.Lib.StepSystem

open SamsungTVVoices.Host (Message)
open StepSystem

namespace SamsungTVVoices.Driver

variable {settings : Settings} {scaleSample : ℤ → UInt16 → UInt16}
  {audio : ℕ → ℕ → List (List UInt16)}
variable {s t : DriverState} {job : Job} {pc : WorkerPc}

/-! ### The invariant -/

section Inv

variable (settings scaleSample audio)

/-- The worker is on track with a current job, and cut short with another. -/
structure TrackInv (s : DriverState) : Prop where
  typed : ∀ m ∈ s.inbox, m.message.messageType ≠ none
  silence : (∀ job ∈ s.worker.job?, job.generation ≠ s.currentGeneration) →
    toCome audio s.currentGeneration s.inbox s.requests = []
  onTrack : ∀ job ∈ s.worker.job?, job.generation = s.currentGeneration →
    OnTrack settings scaleSample audio (part s.trace job.call)
      (toCome audio s.currentGeneration s.inbox s.requests) s.worker
  cut : ∀ job ∈ s.worker.job?, job.generation ≠ s.currentGeneration →
    Cut settings scaleSample audio job (part s.trace job.call) s.worker

/-- The traces of the calls that the worker is not on. -/
structure SettledInv (s : DriverState) : Prop where
  prefixes : ∀ i c, s.calls[i]? = some c → (∀ job ∈ s.worker.job?, job.call ≠ i) →
    part s.trace i <+: fullTrace settings scaleSample audio i c.events
  full : ∀ i c, s.calls[i]? = some c → (∀ job ∈ line s, job.call ≠ i) → c.superseded = false →
    part s.trace i = fullTrace settings scaleSample audio i c.events
  /-- A stale job whose call is not superseded has had its trace. -/
  ended : ∀ job ∈ line s, job.generation ≠ s.currentGeneration → ∀ c, s.calls[job.call]? = some c →
    c.superseded = false →
      part s.trace job.call = fullTrace settings scaleSample audio job.call c.events
  removed : ∀ i ∈ s.removed, ∃ c, s.calls[i]? = some c ∧ c.superseded = true

structure WorkInv (s : DriverState) : Prop where
  track : TrackInv settings scaleSample audio s
  settled : SettledInv settings scaleSample audio s

structure OrderInv (s : DriverState) : Prop where
  order : LineInv SpeechEvent.Sendable s
  worker : WorkerInv SpeechEvent.Sendable s
  work : WorkInv settings scaleSample audio s

end Inv

lemma SettledInv.of_same (h : SettledInv settings scaleSample audio s)
    (hcurrent : t.currentGeneration = s.currentGeneration) (hjob : t.worker.job? = s.worker.job?)
    (hjobs : t.jobs = s.jobs) (hmain : t.main.job? = s.main.job?) (htrace : t.trace = s.trace)
    (hcalls : t.calls = s.calls) (hremoved : t.removed = s.removed) :
    SettledInv settings scaleSample audio t := by
  have hline : Driver.line t = Driver.line s := by
    rw [Driver.line, Driver.line, waiting, waiting, hjobs, hmain, hjob]
  refine ⟨?_, ?_, ?_, ?_⟩
  · rw [hcalls, htrace, hjob]
    exact h.prefixes
  · rw [hcalls, htrace, hline]
    exact h.full
  · rw [hcalls, htrace, hline, hcurrent]
    exact h.ended
  · rw [hcalls, hremoved]
    exact h.removed

/-- Whether its job is current or not, what the worker has added is a prefix of the full trace. -/
lemma TrackInv.prefix_full (h : TrackInv settings scaleSample audio s)
    (hjob : s.worker.job? = some job) :
    part s.trace job.call <+: fullTrace settings scaleSample audio job.call job.events := by
  by_cases hcurrent : job.generation = s.currentGeneration
  · exact ((h.onTrack job hjob hcurrent).cut hjob).le
  · exact (h.cut job hjob hcurrent).le

/-- The worker lets go of a job that is superseded, or has its full trace. -/
lemma OrderInv.release (h : OrderInv settings scaleSample audio s)
    (hjob : s.worker.job? = some job) (hpc : pc.job? = none)
    (hfull : job.generation = s.currentGeneration →
      part s.trace job.call = fullTrace settings scaleSample audio job.call job.events) :
    SettledInv settings scaleSample audio { s with worker := pc } := by
  have hmem := mem_line_of_worker hjob
  have hline : line s = job :: line { s with worker := pc } := by
    simp [line, waiting, hjob, hpc]
  refine ⟨fun i c hc _ => ?_, fun i c hc hi hsuperseded => ?_, fun j hj => ?_,
    h.work.settled.removed⟩
  · by_cases hcall : job.call = i
    · subst hcall
      rw [h.order.events_eq hmem hc]
      exact h.work.track.prefix_full hjob
    · refine h.work.settled.prefixes i c hc ?_
      rw [hjob]
      rintro j ⟨⟩
      exact hcall
  · by_cases hcall : job.call = i
    · subst hcall
      by_cases hcurrent : job.generation = s.currentGeneration
      · rw [h.order.events_eq hmem hc]
        exact hfull hcurrent
      · exact h.work.settled.ended job hmem hcurrent c hc hsuperseded
    · refine h.work.settled.full i c hc ?_ hsuperseded
      rw [hline]
      intro j hj
      rcases List.mem_cons.1 hj with rfl | hj
      · exact hcall
      · exact hi j hj
  · refine h.work.settled.ended j ?_
    rw [hline]
    exact List.mem_cons_of_mem _ hj

/-- The worker adds to the trace for its job what keeps it a prefix of the full one. -/
lemma OrderInv.emit (h : OrderInv settings scaleSample audio s)
    (hjob : s.worker.job? = some job) (hpc : pc.job? = some job) {e : TraceEvent}
    (hpre : part s.trace job.call ++ [e] <+:
      fullTrace settings scaleSample audio job.call job.events) :
    SettledInv settings scaleSample audio (s.emit job e pc) := by
  have hmem := mem_line_of_worker hjob
  have hline : line (s.emit job e pc) = line s := by
    rw [line, line, hjob, ← hpc]
    rfl
  have hpart {i : ℕ} (hi : job.call ≠ i) : part (s.trace ++ [(job.call, e)]) i = part s.trace i :=
    part_append_of_ne hi s.trace e
  refine ⟨fun i c hc hi => ?_, fun i c hc hi hsuperseded => ?_, fun j hj hcurrent c hc hs => ?_,
    h.work.settled.removed⟩
  · have hcall : job.call ≠ i := hi job hpc
    show part (s.trace ++ [(job.call, e)]) i <+: _
    rw [hpart hcall]
    exact h.work.settled.prefixes i c hc (by rw [hjob]; rintro j ⟨⟩; exact hcall)
  · rw [hline] at hi
    show part (s.trace ++ [(job.call, e)]) i = _
    rw [hpart (hi job hmem)]
    exact h.work.settled.full i c hc hi hsuperseded
  · rw [hline] at hj
    have hended := h.work.settled.ended j hj hcurrent c hc hs
    show part (s.trace ++ [(job.call, e)]) j.call = _
    by_cases hcall : job.call = j.call
    · -- a full trace cannot grow
      rw [← hcall] at hended hc
      rw [h.order.events_eq hmem hc] at hended
      have hlength := hpre.length_le
      rw [hended, List.length_append, List.length_singleton] at hlength
      omega
    · rw [hpart hcall]
      exact hended

/-- A worker that stays on its job, with the trace as it is. -/
lemma OrderInv.stay (h : OrderInv settings scaleSample audio s)
    (hcurrent : t.currentGeneration = s.currentGeneration) (hjob : t.worker.job? = s.worker.job?)
    (hjobs : t.jobs = s.jobs) (hmain : t.main = s.main) (htrace : t.trace = s.trace)
    (hcalls : t.calls = s.calls) (hremoved : t.removed = s.removed)
    (htrack : TrackInv settings scaleSample audio t) : WorkInv settings scaleSample audio t :=
  ⟨htrack, h.work.settled.of_same hcurrent hjob hjobs (congrArg _ hmain) htrace hcalls hremoved⟩

/-! ### The steps of the worker -/

/-- A silent move keeps the worker on track, or lets go of a superseded job. -/
lemma Silent.workInv (h : Silent settings scaleSample s s.worker pc)
    (hinv : OrderInv settings scaleSample audio s) :
    WorkInv settings scaleSample audio { s with worker := pc } := by
  have htrack := hinv.work.track
  rcases h.job_eq with hjob | ⟨job, hjob, hpc, hstale⟩
  · refine hinv.stay rfl hjob rfl rfl rfl rfl rfl ?_
    refine ⟨htrack.typed, ?_, fun job hj hcurrent => ?_, fun job hj hcurrent => ?_⟩
    · show (∀ job ∈ pc.job?, _) → _
      rw [hjob]
      exact htrack.silence
    · have hj' : s.worker.job? = some job := hjob ▸ hj
      refine h.onTrack ?_ hinv.worker.events hinv.worker.running (htrack.onTrack job hj' hcurrent)
      rw [hj']
      rintro j ⟨⟩
      exact isCurrent_iff.2 hcurrent
    · have hj' : s.worker.job? = some job := hjob ▸ hj
      exact h.keepsCut hj' (isCurrent_eq_false_iff.2 hcurrent) (htrack.cut job hj' hcurrent)
  · refine ⟨?_, hinv.release hjob hpc fun h => absurd h hstale⟩
    refine ⟨htrack.typed, fun _ => htrack.silence ?_, fun j hj => ?_, fun j hj => ?_⟩
    · rw [hjob]
      rintro j ⟨⟩
      exact hstale
    · exact absurd (hpc.symm.trans hj) nofun
    · exact absurd (hpc.symm.trans hj) nofun

/-- A move that adds to the trace. -/
lemma OrderInv.shown {e : TraceEvent} (hinv : OrderInv settings scaleSample audio s)
    (h : Shown s.worker job e pc) : WorkInv settings scaleSample audio (s.emit job e pc) := by
  have htrack := hinv.work.track
  obtain ⟨hjob, hpc⟩ := h.job_eq
  have hcut : Cut settings scaleSample audio job (part s.trace job.call ++ [e]) pc := by
    by_cases hcurrent : job.generation = s.currentGeneration
    · exact h.keepsCut ((htrack.onTrack job hjob hcurrent).cut hjob)
    · exact h.keepsCut (htrack.cut job hjob hcurrent)
  refine ⟨?_, hinv.emit hjob hpc hcut.le⟩
  refine ⟨htrack.typed, ?_, fun j hj hcurrent => ?_, fun j hj hcurrent => ?_⟩
  · show (∀ j ∈ pc.job?, _) → _
    rw [hpc, ← hjob]
    exact htrack.silence
  · obtain rfl : job = j := Option.some.inj (hpc.symm.trans hj)
    show OnTrack settings scaleSample audio (part (s.trace ++ [(job.call, e)]) job.call) _ pc
    rw [part_append_self]
    exact h.onTrack (htrack.onTrack job hjob hcurrent)
  · obtain rfl : job = j := Option.some.inj (hpc.symm.trans hj)
    show Cut settings scaleSample audio job (part (s.trace ++ [(job.call, e)]) job.call) pc
    rw [part_append_self]
    exact hcut

/-- A request that is sent for a current job has its answer to come, and nothing else. -/
lemma TrackInv.send (h : TrackInv settings scaleSample audio s) {text : PyString}
    {rest : List SpeechEvent} {frame : Frame} (hs : s.worker = .send job text rest)
    (hframe : speakFrame settings job.generation text = some frame) :
    TrackInv settings scaleSample audio { s with
      outgoing := s.outgoing ++ [frame]
      requests := s.requests ++ [⟨job.call, rest.length, frame, [], [], none, !s.isCurrent job⟩]
      worker := .wait job rest false .head } := by
  have hgeneration : frame.generation = job.generation := generation_of_speakFrame hframe
  have hjob : s.worker.job? = some job := by rw [hs]; rfl
  set r : Request := ⟨job.call, rest.length, frame, [], [], none, !s.isCurrent job⟩ with hr
  have howed : owed audio (s.requests ++ [r]) =
      if s.isCurrent job then answers audio r else [] := by
    rw [owed_append]
    cases hcurrent : s.isCurrent job <;> simp [hr, hcurrent]
  refine ⟨h.typed, fun hstale => ?_, ?_, ?_⟩
  · have hcurrent : s.isCurrent job = false := isCurrent_eq_false_iff.2 (hstale job rfl)
    have hsilence := h.silence (by rw [hjob]; rintro j ⟨⟩; exact hstale job rfl)
    show toCome audio s.currentGeneration s.inbox (s.requests ++ [r]) = []
    rw [toCome, howed, hcurrent, (List.append_eq_nil_iff.1 hsilence).1]
    rfl
  · rintro j ⟨⟩ hcurrent
    have hcurrent' : s.isCurrent job = true := isCurrent_iff.2 hcurrent
    have htrack := h.onTrack job hjob hcurrent
    rw [hs] at htrack
    obtain ⟨hmail, hfull⟩ := htrack
    refine ⟨rfl, audio job.call rest.length, ?_, hfull⟩
    show toCome audio s.currentGeneration s.inbox (s.requests ++ [r]) = _
    rw [toCome, howed, hcurrent', (List.append_eq_nil_iff.1 hmail).1, if_pos rfl, List.nil_append,
      answers, hgeneration]
  · rintro j ⟨⟩ hcurrent
    refine cut_of_le ?_ rfl
    exact (h.cut job hjob hcurrent).le

/-- A message that does not end the loop. -/
lemma TrackInv.pass (h : TrackInv settings scaleSample audio s) {rest : List SpeechEvent}
    {cancelled : Bool} {m : Mail} {inbox : List Mail} {w : WaitPc}
    (hs : s.worker = .wait job rest cancelled .getMessage) (hinbox : s.inbox = m :: inbox)
    (hpassed : Passed job m w) : TrackInv settings scaleSample audio { s with
      inbox := inbox, worker := .wait job rest cancelled w } := by
  have hjob : s.worker.job? = some job := by rw [hs]; rfl
  have htyped := h.typed
  rw [hinbox] at htyped
  refine ⟨fun m' hm' => htyped m' (List.mem_cons_of_mem _ hm'), fun hstale => ?_, ?_, ?_⟩
  · have hsilence := h.silence (by rw [hjob]; rintro j ⟨⟩; exact hstale job rfl)
    rw [hinbox] at hsilence
    by_cases hm : m.message.generation = s.currentGeneration
    · rw [toCome_cons_of_eq hm] at hsilence
      exact absurd hsilence (List.cons_ne_nil _ _)
    · rwa [toCome_cons_of_ne hm] at hsilence
  · rintro j ⟨⟩ hcurrent
    have htrack := h.onTrack job hjob hcurrent
    rw [hs, hinbox] at htrack
    obtain ⟨hcancelled, hawaits⟩ := htrack
    by_cases hm : m.message.generation = s.currentGeneration
    · rw [toCome_cons_of_eq hm] at hawaits
      rcases hawaits.cons with ⟨samples, hmessage, hrest⟩ | ⟨hmessage, -⟩
      · cases hpassed with
        | stopped htype => exact absurd htype (htyped m List.mem_cons_self)
        | stale hne => exact absurd (hm.trans hcurrent.symm) hne
        | audio _ htype => exact ⟨hcancelled, samples, hmessage, hrest⟩
        | unknown _ haudio hdone => exact absurd (by rw [hmessage]; rfl) haudio
      · cases hpassed with
        | stopped htype => exact absurd htype (htyped m List.mem_cons_self)
        | stale hne => exact absurd (hm.trans hcurrent.symm) hne
        | audio _ htype =>
            rw [hmessage, doneMessage_messageType] at htype
            exact absurd htype (by decide)
        | unknown _ haudio hdone => exact absurd (by rw [hmessage]; rfl) hdone
    · rw [toCome_cons_of_ne hm] at hawaits
      rw [← hcurrent] at hm
      cases hpassed with
      | stopped htype => exact absurd htype (htyped m List.mem_cons_self)
      | stale hne => exact ⟨hcancelled, hawaits⟩
      | audio heq _ => exact absurd heq hm
      | unknown heq _ _ => exact absurd heq hm
  · rintro j ⟨⟩ hcurrent
    refine cut_of_le (h.cut job hjob hcurrent).le ?_
    cases hpassed <;> rfl

/-- A message that ends the loop; a current job is given only DONE. -/
lemma TrackInv.ended (h : TrackInv settings scaleSample audio s) {rest : List SpeechEvent}
    {cancelled : Bool} {m : Mail} {inbox : List Mail}
    (hs : s.worker = .wait job rest cancelled .getMessage) (hinbox : s.inbox = m :: inbox)
    (hended : Ended job rest m pc) : TrackInv settings scaleSample audio
      { s.record (fun r => { r with returned := some m }) with inbox := inbox, worker := pc } := by
  have hjob : s.worker.job? = some job := by rw [hs]; rfl
  have hpc := hended.job_eq
  have howed : owed audio (s.record fun r => { r with returned := some m }).requests =
      owed audio s.requests := owed_record s fun r => ⟨rfl, rfl, rfl⟩
  have htyped := h.typed
  rw [hinbox] at htyped
  refine ⟨fun m' hm' => htyped m' (List.mem_cons_of_mem _ hm'), fun hstale => ?_,
    fun j hj hcurrent => ?_, fun j hj hcurrent => ?_⟩
  · have hstale' : job.generation ≠ s.currentGeneration := hstale job hpc
    have hsilence := h.silence (by rw [hjob]; rintro j ⟨⟩; exact hstale')
    rw [toCome, howed]
    rw [hinbox] at hsilence
    by_cases hm : m.message.generation = s.currentGeneration
    · rw [toCome_cons_of_eq hm] at hsilence
      exact absurd hsilence (List.cons_ne_nil _ _)
    · rwa [toCome_cons_of_ne hm] at hsilence
  · obtain rfl : job = j := Option.some.inj (hpc.symm.trans hj)
    have hcurrent' : job.generation = s.currentGeneration := hcurrent
    have htrack := h.onTrack job hjob hcurrent
    rw [hs, hinbox] at htrack
    obtain ⟨-, hawaits⟩ := htrack
    have hgeneration : m.message.generation = job.generation := by cases hended <;> assumption
    rw [toCome_cons_of_eq (hgeneration.trans hcurrent')] at hawaits
    rcases hawaits.cons with ⟨samples, hmessage, -⟩ | ⟨hmessage, hmail, hfull⟩
    · cases hended with
      | done _ htype =>
          rw [hmessage, audioMessage_messageType] at htype
          exact absurd htype (by decide)
      | failed _ htype =>
          rw [hmessage, audioMessage_messageType] at htype
          exact absurd htype (by decide)
    · cases hended with
      | done _ htype =>
          refine ⟨?_, hfull⟩
          rw [toCome, howed]
          exact hmail
      | failed _ htype =>
          rw [hmessage, doneMessage_messageType] at htype
          exact absurd htype (by decide)
  · obtain rfl : job = j := Option.some.inj (hpc.symm.trans hj)
    refine cut_of_le (h.cut job hjob hcurrent).le ?_
    cases hended <;> rfl

lemma TrackInv.record {f : Request → Request} (h : TrackInv settings scaleSample audio s)
    (hf : ∀ r, answers audio (f r) = answers audio r ∧ (f r).superseded = r.superseded ∧
      (f r).arrived = r.arrived) : TrackInv settings scaleSample audio (s.record f) := by
  have hcome : toCome audio s.currentGeneration s.inbox (s.record f).requests =
      toCome audio s.currentGeneration s.inbox s.requests := by
    rw [toCome, toCome, owed_record s hf]
  refine ⟨h.typed, ?_, ?_, h.cut⟩
  · show _ → toCome audio s.currentGeneration s.inbox (s.record f).requests = []
    rw [hcome]
    exact h.silence
  · show ∀ job ∈ s.worker.job?, _ → OnTrack _ _ _ _
      (toCome audio s.currentGeneration s.inbox (s.record f).requests) _
    rw [hcome]
    exact h.onTrack

/-- The worker feeds what it has decided to feed. -/
lemma OrderInv.feed (h : OrderInv settings scaleSample audio s) {rest : List SpeechEvent}
    {cancelled : Bool} {m : Mail} {data : Bytes}
    (hs : s.worker = .wait job rest cancelled (.feed m))
    (hdata : scaleVolume scaleSample m.message.payload settings.volume = some data) :
    WorkInv settings scaleSample audio
      ((s.record fun r => { r with fed := r.fed ++ [m] }).emit job (.feed data)
        (.wait job rest cancelled .head)) := by
  have hjob : s.worker.job? = some job := by rw [hs]; rfl
  have hfeed : feedOf settings scaleSample m.message.payload = [.feed data] := by
    rw [feedOf, hdata]
    rfl
  have hcut : part s.trace job.call ++ [.feed data] <+:
      fullTrace settings scaleSample audio job.call job.events := by
    have hcut : Cut settings scaleSample audio job (part s.trace job.call) s.worker := by
      by_cases hcurrent : job.generation = s.currentGeneration
      · exact (h.work.track.onTrack job hjob hcurrent).cut hjob
      · exact h.work.track.cut job hjob hcurrent
    rwa [hs, Cut, WorkerPc.decided, hfeed] at hcut
  have hrecord : TrackInv settings scaleSample audio
      (s.record fun r => { r with fed := r.fed ++ [m] }) :=
    h.work.track.record fun r => ⟨rfl, rfl, rfl⟩
  have hemit : SettledInv settings scaleSample audio
      (s.emit job (.feed data) (.wait job rest cancelled .head)) :=
    h.emit hjob rfl hcut
  refine ⟨?_, hemit.of_same rfl rfl rfl rfl rfl rfl rfl⟩
  refine ⟨hrecord.typed, fun hstale => ?_, ?_, ?_⟩
  · exact hrecord.silence (by rw [DriverState.record, hjob]; exact hstale)
  · rintro j ⟨⟩ hcurrent
    have htrack := hrecord.onTrack job hjob hcurrent
    change OnTrack _ _ _ (part s.trace job.call) _ s.worker at htrack
    rw [hs] at htrack
    obtain ⟨hcancelled, samples, hmessage, hawaits⟩ := htrack
    have hpayload : m.message.payload = sampleBytes samples := by rw [hmessage]; rfl
    rw [← hpayload, hfeed] at hawaits
    refine ⟨hcancelled, ?_⟩
    show Awaits _ _ _ job rest (part (s.trace ++ [(job.call, .feed data)]) job.call) _
    rw [part_append_self]
    exact hawaits
  · rintro j ⟨⟩ hcurrent
    show Cut _ _ _ job (part (s.trace ++ [(job.call, .feed data)]) job.call) _
    rw [part_append_self]
    exact cut_of_le hcut rfl

/-- A worker that only moves on within a superseded job, with the same requests. -/
lemma TrackInv.stale (h : TrackInv settings scaleSample audio s)
    (hjob : s.worker.job? = some job) (hstale : job.generation ≠ s.currentGeneration)
    (hpc : pc.job? = some job) (hdecided : pc.decided settings scaleSample = []) {inbox : List Mail}
    {running : Bool} {outgoing : List Frame} (hinbox : inbox = s.inbox ∨ inbox = []) :
    TrackInv settings scaleSample audio { s with
      running := running, outgoing := outgoing, inbox := inbox, worker := pc } := by
  have hsilence := h.silence (by rw [hjob]; rintro j ⟨⟩; exact hstale)
  refine ⟨?_, fun _ => ?_, fun j hj hcurrent => ?_, fun j hj _ => ?_⟩
  · rcases hinbox with rfl | rfl
    · exact h.typed
    · exact nofun
  · rcases hinbox with rfl | rfl
    · exact hsilence
    · exact (List.append_eq_nil_iff.1 hsilence).2
  · obtain rfl : job = j := Option.some.inj (hpc.symm.trans hj)
    exact absurd hcurrent hstale
  · obtain rfl : job = j := Option.some.inj (hpc.symm.trans hj)
    exact cut_of_le (h.cut job hjob hstale).le hdecided

/-- Every step of the worker keeps the invariant. -/
lemma WorkerMove.workInv (hmove : WorkerMove settings scaleSample s t)
    (h : OrderInv settings scaleSample audio s) : WorkInv settings scaleSample audio t := by
  have htrack := h.work.track
  cases hmove with
  | silent pc hsilent => exact hsilent.workInv h
  | shown job e pc hshown => exact h.shown hshown
  | take job jobs hs hjobs =>
      have hmem : job ∈ waiting s := by simp [waiting, hjobs]
      have hline : line { s with jobs := jobs, worker := .check job } = line s := by
        simp [line, waiting, hs, hjobs, WorkerPc.job?]
      have hpart : part s.trace job.call = [] :=
        part_eq_nil fun e he => ((h.order.behind e he).1 job hmem).ne
      have hnojob : ∀ j ∈ s.worker.job?, False := by
        rw [hs]
        rintro j ⟨⟩
      have hsilence := htrack.silence fun j hj => (hnojob j hj).elim
      refine ⟨?_, ?_⟩
      · refine ⟨htrack.typed, fun _ => hsilence, ?_, ?_⟩
        · rintro j ⟨⟩ -
          exact ⟨hsilence, hpart⟩
        · rintro j ⟨⟩ -
          rw [hpart]
          exact cut_of_le List.nil_prefix rfl
      · refine ⟨fun i c hc _ => ?_, ?_, ?_, h.work.settled.removed⟩
        · exact h.work.settled.prefixes i c hc fun j hj => (hnojob j hj).elim
        · rw [hline]
          exact h.work.settled.full
        · rw [hline]
          exact h.work.settled.ended
  | enter job hs hcurrent =>
      have hjob : s.worker.job? = some job := by rw [hs]; rfl
      have hcurrent' := isCurrent_iff.1 hcurrent
      obtain ⟨hmail, hcur⟩ : _ ∧ _ := hs ▸ htrack.onTrack job hjob hcurrent'
      refine h.stay rfl hjob.symm rfl rfl rfl rfl rfl ?_
      refine ⟨htrack.typed, fun hstale => absurd hcurrent' (hstale job rfl), ?_, ?_⟩
      · rintro j ⟨⟩ -
        refine ⟨hmail, ?_⟩
        show part s.trace job.call ++ _ = _
        rw [hcur, List.nil_append]
      · rintro j ⟨⟩ hstale
        exact absurd hcurrent' hstale
  | send job text rest frame hs hframe hrunning =>
      exact h.stay rfl (by rw [hs]; rfl) rfl rfl rfl rfl rfl (htrack.send hs hframe)
  | pass job rest cancelled m inbox w hs hinbox hpassed =>
      exact h.stay rfl (by rw [hs]; rfl) rfl rfl rfl rfl rfl (htrack.pass hs hinbox hpassed)
  | ended job rest cancelled m inbox pc hs hinbox hended =>
      refine h.stay rfl ?_ rfl rfl rfl rfl rfl (htrack.ended hs hinbox hended)
      rw [hs]
      exact hended.job_eq
  | feed job rest cancelled m data hs hdata => exact h.feed hs hdata
  | stop job rest cancelled hs =>
      have hjob : s.worker.job? = some job := by rw [hs]; rfl
      refine h.stay rfl hjob.symm rfl rfl rfl rfl rfl ?_
      by_cases hcurrent : job.generation = s.currentGeneration
      · have hfalse := htrack.onTrack job hjob hcurrent
        rw [hs] at hfalse
        exact hfalse.elim
      · exact htrack.stale hjob hcurrent rfl rfl (Or.inr rfl)
  | leave job hs =>
      have hjob : s.worker.job? = some job := by rw [hs]; rfl
      have hfull : job.generation = s.currentGeneration →
          toCome audio s.currentGeneration s.inbox s.requests = [] ∧
            part s.trace job.call = fullTrace settings scaleSample audio job.call job.events := by
        intro hcurrent
        have hleave := htrack.onTrack job hjob hcurrent
        rw [hs] at hleave
        exact hleave
      have hget : SettledInv settings scaleSample audio { s with worker := .get } :=
        h.release hjob rfl fun hcurrent => (hfull hcurrent).2
      refine ⟨?_, hget.of_same rfl rfl rfl rfl rfl rfl rfl⟩
      refine ⟨htrack.typed, fun _ => ?_, by rintro j ⟨⟩, by rintro j ⟨⟩⟩
      by_cases hcurrent : job.generation = s.currentGeneration
      · exact (hfull hcurrent).1
      · exact htrack.silence (by rw [hjob]; rintro j ⟨⟩; exact hcurrent)

/-! ### The other steps -/

/-- Unless the worker waits for an answer, none is owed. -/
lemma TrackInv.owed_eq_nil (h : TrackInv settings scaleSample audio s)
    (hwait : ∀ job rest cancelled w, s.worker ≠ .wait job rest cancelled w) :
    owed audio s.requests = [] := by
  have hnil : toCome audio s.currentGeneration s.inbox s.requests = [] := by
    by_cases hstale : ∀ job ∈ s.worker.job?, job.generation ≠ s.currentGeneration
    · exact h.silence hstale
    · push Not at hstale
      obtain ⟨job, hjob, hcurrent⟩ := hstale
      have htrack := h.onTrack job hjob hcurrent
      cases hs : s.worker with
      | starting => rw [hs] at hjob; cases hjob
      | get => rw [hs] at hjob; cases hjob
      | wait j rest cancelled w => exact absurd hs (hwait j rest cancelled w)
      | _ =>
          rw [hs] at htrack
          exact htrack.1
  exact (List.append_eq_nil_iff.1 hnil).2

/-- What is owed has the current generation. -/
lemma OrderInv.generation_of_owed (h : OrderInv settings scaleSample audio s) {r : Request}
    (hr : r ∈ s.requests.getLast?) (howed : owed audio s.requests ≠ []) :
    r.frame.generation = s.currentGeneration := by
  by_cases hwait : ∀ job rest cancelled w, s.worker ≠ .wait job rest cancelled w
  · exact absurd (h.work.track.owed_eq_nil hwait) howed
  · push Not at hwait
    obtain ⟨job, rest, cancelled, w, hs⟩ := hwait
    obtain ⟨r', hr', -, hgeneration, hsuperseded⟩ := h.worker.asked job rest cancelled w hs
    obtain rfl : r = r' := Option.some.inj (hr.symm.trans hr')
    rw [hgeneration]
    by_contra hne
    exact howed (owed_of_superseded hr (hsuperseded.2 hne))

lemma OrderInv.hostStart (h : OrderInv settings scaleSample audio s) {ok : Bool}
    (hok : ok = true) (ht : hostStart s ok = some t) : WorkInv settings scaleSample audio t := by
  have htrack := h.work.track
  subst hok
  unfold Driver.hostStart at ht
  split at ht
  case h_1 hs =>
    cases ht
    have hjob : s.worker.job? = none := by rw [hs]; rfl
    refine h.stay rfl hjob.symm rfl rfl rfl rfl rfl ?_
    exact ⟨htrack.typed, fun _ => htrack.silence (by rw [hjob]; exact nofun), nofun, nofun⟩
  case h_2 job text rest hs =>
    split at ht
    · cases ht
    · cases ht
      have hjob : s.worker.job? = some job := by rw [hs]; rfl
      refine h.stay rfl hjob.symm rfl rfl rfl rfl rfl ?_
      refine ⟨htrack.typed, fun hstale => htrack.silence ?_, ?_, ?_⟩
      · rw [hjob]
        exact hstale
      · rintro j ⟨⟩ hcurrent
        have hensure := htrack.onTrack job hjob hcurrent
        rw [hs] at hensure
        exact hensure
      · rintro j ⟨⟩ hstale
        exact cut_of_le (htrack.cut job hjob hstale).le rfl
  case h_3 job rest cancelled hs =>
    cases ht
    have hjob : s.worker.job? = some job := by rw [hs]; rfl
    refine h.stay rfl hjob.symm rfl rfl rfl rfl rfl ?_
    by_cases hcurrent : job.generation = s.currentGeneration
    · have hfalse := htrack.onTrack job hjob hcurrent
      rw [hs] at hfalse
      exact hfalse.elim
    · exact htrack.stale hjob hcurrent rfl rfl (Or.inl rfl)
  case h_4 => cases ht

lemma OrderInv.emptyQueue (h : OrderInv settings scaleSample audio s) {cancelledLong stalled : Bool}
    (hhelper : HelperAnswers audio s (.empty cancelledLong stalled))
    (ht : emptyQueue s cancelledLong stalled = some t) :
    WorkInv settings scaleSample audio t := by
  have htrack := h.work.track
  obtain ⟨job, rest, cancelled, w, hs, hinbox, rfl, hpolled, hstalled⟩ := exists_polled ht
  have hjob : s.worker.job? = some job := by rw [hs]; rfl
  refine h.stay rfl hjob.symm rfl rfl rfl rfl rfl ?_
  by_cases hcurrent : job.generation = s.currentGeneration
  · have hwait := htrack.onTrack job hjob hcurrent
    rw [hs] at hwait
    obtain ⟨hcancelled, hawaits⟩ := hwait
    -- a current job only polls: it is not cancelled, and the helper does not stall
    obtain rfl : w = .head := by
      cases hpolled with
      | poll => rfl
      | giveUp hlong => rw [hcancelled] at hlong; exact absurd hlong (by simp)
      | stalled => exact absurd hcurrent (hhelper (hstalled rfl) job hjob)
    refine ⟨htrack.typed, fun hstale => absurd hcurrent (hstale job rfl), ?_, ?_⟩
    · rintro j ⟨⟩ -
      exact ⟨hcancelled, hawaits⟩
    · rintro j ⟨⟩ hstale
      exact absurd hcurrent hstale
  · refine htrack.stale hjob hcurrent rfl ?_ (Or.inl rfl)
    cases hpolled <;> rfl

/-- A message that the helper may send changes nothing of what is to come. -/
lemma OrderInv.toCome_arrive (h : OrderInv settings scaleSample audio s) {m : Mail}
    (hhelper : HelperAnswers audio s (.arrive m)) :
    toCome audio s.currentGeneration (s.inbox ++ [m]) (s.record fun r =>
      if m.message.generation = r.frame.generation then { r with arrived := r.arrived ++ [m] }
      else r).requests = toCome audio s.currentGeneration s.inbox s.requests := by
  by_cases hm : m.message.generation = s.currentGeneration
  · -- the message is the first of those that are owed
    obtain ⟨r, hr, hsuperseded, hnext⟩ := hhelper.2 hm
    obtain ⟨hlt, hget⟩ := List.getElem?_eq_some_iff.1 hnext
    have hdrop : (answers audio r).drop r.arrived.length =
        m.message :: (answers audio r).drop (r.arrived.length + 1) := by
      rw [List.drop_eq_getElem_cons hlt, hget]
    have howed : owed audio s.requests =
        m.message :: (answers audio r).drop (r.arrived.length + 1) := by
      rw [owed, hr, ← hdrop]
      simp only [hsuperseded, Bool.false_eq_true, if_false]
    have hgeneration : m.message.generation = r.frame.generation := by
      rw [hm, h.generation_of_owed hr (by rw [howed]; exact List.cons_ne_nil _ _)]
    have howed' : owed audio (s.record fun r =>
        if m.message.generation = r.frame.generation then { r with arrived := r.arrived ++ [m] }
        else r).requests = (answers audio r).drop (r.arrived.length + 1) := by
      rw [owed, getLast?_record, hr]
      simp only [Option.map_some, if_pos hgeneration, hsuperseded, Bool.false_eq_true, if_false]
      show (answers audio r).drop (r.arrived ++ [m]).length = _
      rw [List.length_append, List.length_singleton]
    rw [toCome, toCome, howed, howed']
    simp [hm]
  · have howed' : owed audio (s.record fun r =>
        if m.message.generation = r.frame.generation then { r with arrived := r.arrived ++ [m] }
        else r).requests = owed audio s.requests := by
      by_cases hnil : owed audio s.requests = []
      · rw [hnil]
        rw [owed] at hnil ⊢
        rw [getLast?_record]
        cases hr : s.requests.getLast? with
        | none => rfl
        | some r =>
            rw [hr] at hnil
            simp only [Option.map_some]
            split
            · split
              · rfl
              · next hsuperseded =>
                  have hsuperseded' : ¬ r.superseded = true := hsuperseded
                  have hdrop : (answers audio r).drop r.arrived.length = [] :=
                    (if_neg hsuperseded').symm.trans hnil
                  show (answers audio r).drop (r.arrived ++ [m]).length = []
                  rw [List.length_append, ← List.drop_drop, hdrop, List.drop_nil]
            · exact hnil
      · rw [owed, getLast?_record]
        cases hr : s.requests.getLast? with
        | none => rw [owed, hr]; rfl
        | some r =>
            have hne : m.message.generation ≠ r.frame.generation := by
              rw [h.generation_of_owed hr hnil]
              exact hm
            rw [owed, hr, Option.map_some, if_neg hne]
    rw [toCome, toCome, howed']
    simp [hm]

lemma OrderInv.arrive (h : OrderInv settings scaleSample audio s) {m : Mail}
    (hhelper : HelperAnswers audio s (.arrive m)) (ht : arrive s m = some t) :
    WorkInv settings scaleSample audio t := by
  have htrack := h.work.track
  have hcome := h.toCome_arrive hhelper
  unfold Driver.arrive at ht
  split at ht
  · cases ht
    refine h.stay rfl rfl rfl rfl rfl rfl rfl ?_
    refine ⟨fun m' hm' => ?_, fun hstale => ?_, fun job hjob hcurrent => ?_, htrack.cut⟩
    · rcases List.mem_append.1 hm' with hm' | hm'
      · exact htrack.typed m' hm'
      · obtain rfl := List.mem_singleton.1 hm'
        exact hhelper.1
    · exact hcome.trans (htrack.silence hstale)
    · have hwait := htrack.onTrack job hjob hcurrent
      rw [← hcome] at hwait
      exact hwait
  · cases ht

/-- After a `cancel` the helper owes nothing. -/
lemma OrderInv.owed_supersede (h : OrderInv settings scaleSample audio s) :
    owed audio (s.requests.map Request.supersede) = [] := by
  rw [owed, List.getLast?_map]
  cases hr : s.requests.getLast? with
  | none => rfl
  | some r =>
      simp only [Option.map_some]
      split
      · rfl
      · next hlive =>
          -- the answer to a request that has returned is complete
          simp only [Request.supersede, Bool.or_eq_true, not_or, Bool.not_eq_true,
            Option.isNone_eq_false_iff] at hlive
          have hwait : ∀ job rest cancelled w, s.worker ≠ .wait job rest cancelled w := by
            intro job rest cancelled w hs
            obtain ⟨r', hr', hreturned, -⟩ := h.worker.asked job rest cancelled w hs
            obtain rfl : r = r' := Option.some.inj (hr.symm.trans hr')
            rw [hreturned] at hlive
            exact absurd hlive.2 (by simp)
          have hnil := h.work.track.owed_eq_nil hwait
          rw [owed, hr] at hnil
          have hlive' : ¬ r.superseded = true := by simp [hlive.1]
          exact (if_neg hlive').symm.trans hnil

lemma OrderInv.cancel (h : OrderInv settings scaleSample audio s)
    (horderly : Orderly SpeechEvent.Sendable s .cancel)
    (ht : cancel s = some t) : WorkInv settings scaleSample audio t := by
  obtain ⟨hmain, rfl⟩ := exists_cancel ht
  have htrack := h.work.track
  refine ⟨?_, ?_⟩
  · have hinbox : (s.inbox.map (·.message)).filter (·.generation = nextGeneration s.generation) =
        [] := by
      rw [List.filter_eq_nil_iff]
      intro m hm
      obtain ⟨mail, hmail, rfl⟩ := List.mem_map.1 hm
      simpa using horderly.2 mail hmail
    refine ⟨htrack.typed, fun _ => ?_, fun job hjob hcurrent => ?_, fun job hjob hcurrent => ?_⟩
    · show toCome audio (nextGeneration s.generation) s.inbox
        (s.requests.map Request.supersede) = []
      rw [toCome, hinbox, h.owed_supersede]
      rfl
    · exact absurd hcurrent (horderly.1 job hjob)
    · by_cases hbefore : job.generation = s.currentGeneration
      · exact (htrack.onTrack job hjob hbefore).cut hjob
      · exact htrack.cut job hjob hbefore
  · have hcall {i : ℕ} {c : Call} (hc : (s.calls.mapIdx (Call.supersede s.trace))[i]? = some c) :
        ∃ c', s.calls[i]? = some c' ∧ c = c'.supersede s.trace i := by
      rw [List.getElem?_mapIdx] at hc
      obtain ⟨c', hc', rfl⟩ := Option.map_eq_some_iff.1 hc
      exact ⟨c', hc', rfl⟩
    have hkept : ∀ {i : ℕ} {c : Call}, (c.supersede s.trace i).superseded = false →
        c.superseded = false ∧ .doneSpeaking ∈ part s.trace i := by
      intro i c hc
      simp only [Call.supersede, Bool.or_eq_false_iff, decide_eq_false_iff_not, not_not] at hc
      exact ⟨hc.1, mem_part.2 hc.2⟩
    have hwaiting : waiting { s with main := .hostCancel s.activeGeneration } = waiting s := by
      simp [waiting, hmain, MainPc.job?]
    refine ⟨fun i c hc hi => ?_, fun i c hc hi hsuperseded => ?_,
      fun job hjob _ c hc hsuperseded => ?_, fun i hi => ?_⟩
    · obtain ⟨c, hc', rfl⟩ := hcall hc
      exact h.work.settled.prefixes i c hc' hi
    · obtain ⟨c, hc', rfl⟩ := hcall hc
      refine h.work.settled.full i c hc' (fun job hjob => hi job ?_) (hkept hsuperseded).1
      rw [line] at hjob ⊢
      rw [← hwaiting] at hjob
      exact hjob
    · obtain ⟨c, hc', rfl⟩ := hcall hc
      obtain ⟨hlive, hdone⟩ := hkept hsuperseded
      have hmem : job ∈ line s := by
        rw [line, ← hwaiting]
        exact hjob
      by_cases hbefore : job.generation = s.currentGeneration
      · rcases List.mem_append.1 hmem with hworker | hwait
        · have hworker' : s.worker.job? = some job := Option.mem_toList.1 hworker
          show part s.trace job.call = fullTrace _ _ _ job.call c.events
          rw [h.order.events_eq hmem hc']
          exact (htrack.onTrack job hworker' hbefore).full_of_done hworker' hdone
        · have hnil : part s.trace job.call = [] :=
            part_eq_nil fun e he => ((h.order.behind e he).1 job hwait).ne
          rw [hnil] at hdone
          exact absurd hdone List.not_mem_nil
      · exact h.work.settled.ended job hmem hbefore c hc' hlive
    · obtain ⟨c, hc, hsuperseded⟩ := h.work.settled.removed i hi
      refine ⟨c.supersede s.trace i, ?_, by simp [Call.supersede, hsuperseded]⟩
      show (s.calls.mapIdx _)[i]? = _
      rw [List.getElem?_mapIdx, hc]
      rfl

lemma OrderInv.speak (h : OrderInv settings scaleSample audio s) {items : List SpeechItem}
    (ht : speak s items = some t) : WorkInv settings scaleSample audio t := by
  obtain ⟨hmain, rfl | rfl⟩ := exists_speak ht
  · exact h.work
  have htrack := h.work.track
  set job : Job := ⟨s.calls.length, s.currentGeneration, speechEvents items⟩
  have hline : line { s with main := .put job, calls := s.calls ++ [⟨speechEvents items, false⟩] } =
      line s ++ [job] := by
    simp [line, waiting, hmain, MainPc.job?]
  have hold {i : ℕ} {c : Call} (hi : i ≠ s.calls.length)
      (hc : (s.calls ++ [⟨speechEvents items, false⟩])[i]? = some c) : s.calls[i]? = some c := by
    have hlt : i < s.calls.length := by
      have hlength := (List.getElem?_eq_some_iff.1 hc).1
      rw [List.length_append, List.length_singleton] at hlength
      omega
    rwa [List.getElem?_append_left hlt] at hc
  refine ⟨⟨htrack.typed, htrack.silence, htrack.onTrack, htrack.cut⟩, ?_⟩
  · refine ⟨fun i c hc hi => ?_, fun i c hc hi hsuperseded => ?_, fun j hj hstale c hc hs => ?_,
      fun i hi => ?_⟩
    · by_cases hnew : i = s.calls.length
      · have hnil : part s.trace i = [] :=
          part_eq_nil fun e he => (hnew ▸ h.order.bounded e he).ne
        show part s.trace i <+: _
        rw [hnil]
        exact List.nil_prefix
      · exact h.work.settled.prefixes i c (hold hnew hc) hi
    · rw [hline] at hi
      have hnew : i ≠ s.calls.length := (hi job (by simp)).symm
      exact h.work.settled.full i c (hold hnew hc) (fun j hj => hi j (List.mem_append_left _ hj))
        hsuperseded
    · rw [hline, List.mem_append, List.mem_singleton] at hj
      rcases hj with hj | rfl
      · exact h.work.settled.ended j hj hstale c (hold (h.order.call_lt hj).ne hc) hs
      · exact absurd rfl hstale
    · obtain ⟨c, hc, hsuperseded⟩ := h.work.settled.removed i hi
      refine ⟨c, ?_, hsuperseded⟩
      show (s.calls ++ _)[i]? = _
      rw [List.getElem?_append_left (List.getElem?_eq_some_iff.1 hc).1, hc]

lemma OrderInv.mainStep (h : OrderInv settings scaleSample audio s) (ht : mainStep s = some t) :
    WorkInv settings scaleSample audio t := by
  have htrack := h.work.track
  have hsame (main : MainPc) (jobs : List Job) (outgoing : List Frame) (removed : List ℕ) :
      TrackInv settings scaleSample audio { s with
        main := main, jobs := jobs, outgoing := outgoing, removed := removed } :=
    ⟨htrack.typed, htrack.silence, htrack.onTrack, htrack.cut⟩
  unfold Driver.mainStep at ht
  split at ht
  case h_1 => cases ht
  case h_2 job hmain =>
    cases ht
    have hline : line { s with jobs := s.jobs ++ [job], main := .ready } = line s := by
      simp [line, waiting, hmain, MainPc.job?]
    refine ⟨hsame _ _ _ _, h.work.settled.prefixes, ?_, ?_, h.work.settled.removed⟩
    · rw [hline]
      exact h.work.settled.full
    · rw [hline]
      exact h.work.settled.ended
  case h_3 active hmain =>
    cases ht
    exact ⟨hsame _ _ _ _,
      h.work.settled.of_same rfl rfl rfl (by rw [hmain]; rfl) rfl rfl rfl⟩
  case h_4 hmain =>
    split at ht
    · next hjobs =>
        cases ht
        exact ⟨hsame _ _ _ _,
          h.work.settled.of_same rfl rfl rfl (by rw [hmain]; rfl) rfl rfl rfl⟩
    · next job jobs hjobs =>
        cases ht
        have hwait : job ∈ waiting s := by simp [waiting, hjobs]
        have hmem : job ∈ line s := List.mem_append_right _ hwait
        have hstale : job.generation ≠ s.currentGeneration :=
          h.order.stale (by rw [hmain]; trivial) job hmem
        have hline (j : Job) : j ∈ line s ↔
            j = job ∨ j ∈ line { s with jobs := jobs, removed := s.removed ++ [job.call] } := by
          simp [line, waiting, hjobs]
          tauto
        refine ⟨hsame _ _ _ _, h.work.settled.prefixes, fun i c hc hi hsuperseded => ?_,
          fun j hj => h.work.settled.ended j ((hline j).2 (Or.inr hj)), fun i hi => ?_⟩
        · by_cases hcall : job.call = i
          · subst hcall
            exact h.work.settled.ended job hmem hstale c hc hsuperseded
          · refine h.work.settled.full i c hc (fun j hj => ?_) hsuperseded
            rcases (hline j).1 hj with rfl | hj
            · exact hcall
            · exact hi j hj
        · rcases List.mem_append.1 hi with hi | hi
          · exact h.work.settled.removed i hi
          · -- a job that waits has no trace yet, so a stale one is superseded
            obtain rfl := List.mem_singleton.1 hi
            obtain ⟨c, hc, -⟩ := h.order.known job hmem
            refine ⟨c, hc, Bool.eq_false_or_eq_true c.superseded |>.resolve_right fun hlive => ?_⟩
            have hended := h.work.settled.ended job hmem hstale c hc hlive
            rw [part_eq_nil fun e he => ((h.order.behind e he).1 job hwait).ne] at hended
            obtain ⟨earlier, hearlier, -⟩ :=
              exists_fullTrace_eq settings scaleSample audio job.call c.events
            rw [hearlier] at hended
            exact absurd hended (by simp)
  case h_5 hmain =>
    cases ht
    exact ⟨hsame _ _ _ _,
      h.work.settled.of_same rfl rfl rfl (by rw [hmain]; rfl) rfl rfl rfl⟩

/-! ### Runs -/

lemma orderInv_initialState (generation : UInt32) :
    OrderInv settings scaleSample audio (initialState generation) where
  order := lineInv_initialState generation
  worker := workerInv_initialState generation
  work := ⟨⟨nofun, fun _ => rfl, nofun, nofun⟩, ⟨nofun, nofun, nofun, nofun⟩⟩

lemma workInv_driverStep {a : DriverAction} (h : OrderInv settings scaleSample audio s)
    (hhelper : HelperAnswers audio s a) (horderly : Orderly SpeechEvent.Sendable s a)
    (ht : driverStep settings scaleSample s a = some t) : WorkInv settings scaleSample audio t := by
  cases a with
  | speak items => exact h.speak ht
  | cancel => exact h.cancel horderly ht
  | main => exact h.mainStep ht
  | worker => exact (workerMove_workerStep ht).workInv h
  | hostStart ok => exact h.hostStart hhelper ht
  | empty cancelledLong stalled => exact h.emptyQueue hhelper ht
  | arrive mail => exact h.arrive hhelper ht

lemma orderInv_driverStep {a : DriverAction} (h : OrderInv settings scaleSample audio s)
    (hhelper : HelperAnswers audio s a) (horderly : Orderly SpeechEvent.Sendable s a)
    (ht : driverStep settings scaleSample s a = some t) : OrderInv settings scaleSample audio t :=
  ⟨h.order.driverStep horderly ht, h.worker.driverStep h.order horderly ht,
    workInv_driverStep h hhelper horderly ht⟩

/-- While the worker waits for messages of a current job, the helper owes the next one. -/
lemma OrderInv.exists_arrive (h : OrderInv settings scaleSample audio s) {job : Job}
    {rest : List SpeechEvent} {cancelled : Bool}
    (hs : s.worker = .wait job rest cancelled .getMessage) (hinbox : s.inbox = [])
    (hcurrent : job.generation = s.currentGeneration) :
    ∃ m t, HelperAnswers audio s (.arrive m) ∧ Driver.arrive s m = some t := by
  have hwait := h.work.track.onTrack job (by rw [hs]; rfl) hcurrent
  rw [hs, hinbox] at hwait
  obtain ⟨-, samples, howed, -⟩ := hwait
  obtain ⟨r, hr, -, -, hsuperseded⟩ := h.worker.asked job rest cancelled _ hs
  have hlive : r.superseded = false := by
    rw [← Bool.not_eq_true, hsuperseded]
    exact fun hne => hne hcurrent
  have hdrop : (answers audio r).drop r.arrived.length =
      samples.map (audioMessage job.generation) ++ [doneMessage job.generation] := by
    rw [← howed, toCome, owed, hr, List.map_nil, List.filter_nil, List.nil_append]
    simp only [hlive, Bool.false_eq_true, if_false]
  obtain ⟨m, hm, htype⟩ : ∃ m, (answers audio r)[r.arrived.length]? = some m ∧
      m.messageType ≠ none := by
    rw [← List.head?_drop, hdrop]
    cases samples with
    | nil => exact ⟨_, rfl, by rw [doneMessage_messageType]; simp⟩
    | cons first samples => exact ⟨_, rfl, by rw [audioMessage_messageType]; simp⟩
  obtain ⟨t, ht⟩ : ∃ t, Driver.arrive s ⟨m, none⟩ = some t := by
    rw [Driver.arrive, hinbox]
    exact ⟨_, if_pos (by decide)⟩
  exact ⟨⟨m, none⟩, t, ⟨htype, fun _ => ⟨r, hr, hlive, hm⟩⟩, ht⟩

/-- As long as a call is in the system, somebody can go on. -/
lemma exists_step (h : OrderInv settings scaleSample audio s) (hline : line s ≠ []) :
    ∃ a t, (∀ seq, a ≠ .speak seq) ∧ a ≠ .cancel ∧ HelperAnswers audio s a ∧
      driverStep settings scaleSample s a = some t := by
  have hworker (hsome : (workerStep settings scaleSample s).isSome) : ∃ a t,
      (∀ seq, a ≠ .speak seq) ∧ a ≠ .cancel ∧ HelperAnswers audio s a ∧
        driverStep settings scaleSample s a = some t := by
    obtain ⟨t, ht⟩ := Option.isSome_iff_exists.1 hsome
    exact ⟨.worker, t, by simp, by simp, trivial, ht⟩
  have hstart (hsome : (hostStart s true).isSome) : ∃ a t, (∀ seq, a ≠ .speak seq) ∧ a ≠ .cancel ∧
      HelperAnswers audio s a ∧ driverStep settings scaleSample s a = some t := by
    obtain ⟨t, ht⟩ := Option.isSome_iff_exists.1 hsome
    exact ⟨.hostStart true, t, by simp, by simp, rfl, ht⟩
  cases hs : s.worker with
  | starting => exact hstart (by rw [hostStart, hs]; rfl)
  | get =>
      cases hjobs : s.jobs with
      | cons job jobs => exact hworker (by rw [workerStep, hs, hjobs]; rfl)
      | nil =>
          -- only the main thread can have the job
          cases hmain : s.main with
          | put job =>
              exact ⟨.main, _, by simp, by simp, trivial, by rw [driverStep, mainStep, hmain]⟩
          | _ =>
              refine absurd ?_ hline
              simp [line, waiting, hs, hjobs, hmain, MainPc.job?, WorkerPc.job?]
  | ensure job text rest =>
      by_cases hrunning : s.running = true
      · exact hworker (by rw [workerStep, hs]; simp [hrunning])
      · exact hstart (by rw [hostStart, hs]; simp [hrunning])
  | enter job =>
      refine hworker ?_
      simp only [workerStep, hs]
      split <;> rfl
  | send job text rest =>
      refine hworker ?_
      simp only [workerStep, hs]
      split
      · rfl
      · split <;> rfl
  | wait job rest cancelled w =>
      cases w with
      | restart => exact hstart (by rw [hostStart, hs]; rfl)
      | feed m =>
          refine hworker ?_
          simp only [workerStep, hs, waitStep]
          split <;> rfl
      | getMessage =>
          cases hinbox : s.inbox with
          | cons m inbox =>
              refine hworker ?_
              simp only [workerStep, hs, waitStep, hinbox]
              rfl
          | nil =>
              by_cases hcurrent : job.generation = s.currentGeneration
              · obtain ⟨m, t, hanswers, ht⟩ := h.exists_arrive hs hinbox hcurrent
                exact ⟨.arrive m, t, by simp, by simp, hanswers, ht⟩
              · obtain ⟨t, ht⟩ : ∃ t, emptyQueue s false false = some t := by
                  simp only [emptyQueue, hs, hinbox]
                  exact ⟨_, rfl⟩
                exact ⟨.empty false false, t, by simp, by simp, by simp [HelperAnswers], ht⟩
      | _ => exact hworker (by rw [workerStep, hs]; rfl)
  | _ => exact hworker (by rw [workerStep, hs]; rfl)

lemma OrderInv.speechInOrder (h : OrderInv settings scaleSample audio s) :
    SpeechInOrder settings scaleSample audio s where
  concatenation := map_snd_eq_flatMap_part h.order.inOrder _ h.order.bounded
  parts := by
    intro i c hc
    by_cases hi : ∀ job ∈ s.worker.job?, job.call ≠ i
    · exact h.work.settled.prefixes i c hc hi
    · push Not at hi
      obtain ⟨job, hjob, rfl⟩ := hi
      rw [h.order.events_eq (mem_line_of_worker hjob) hc]
      exact h.work.track.prefix_full hjob
  full := h.work.settled.full
  removed := h.work.settled.removed
  progress := exists_step h

/-- **Speech order.** In every run in which the helper answers, every text can be sent, and a
generation is not used again while something still carries it, the worker's trace is made of the
traces of the calls in their order: full, or a prefix for a call that is superseded. -/
theorem speechInOrder_of_run (settings : Settings) (scaleSample : ℤ → UInt16 → UInt16)
    (audio : ℕ → ℕ → List (List UInt16)) (generation : UInt32) (as : List DriverAction)
    (hrun : run (driverStep settings scaleSample) (initialState generation) as = some s)
    (hhelper : Along (driverStep settings scaleSample) (HelperAnswers audio)
      (initialState generation) as)
    (horderly : Along (driverStep settings scaleSample) (Orderly SpeechEvent.Sendable)
      (initialState generation) as) :
    SpeechInOrder settings scaleSample audio s :=
  (run_invariant_along (fun _ _ _ h hG ht => orderInv_driverStep h hG.1 hG.2 ht)
    (orderInv_initialState generation) (hhelper.and horderly) hrun).speechInOrder

/-- Settings with every slider in the middle and full volume. -/
def plainSettings : Settings where
  language := 0
  model := 0
  rate := 50
  pitch := 50
  headSize := 50
  volume := 100

/-- A letter and an index are spoken to the end, and a second call is cancelled in the queue. -/
def spokenThenCancelled : List DriverAction :=
  [DriverAction.hostStart true, .speak [.str [65], .indexCommand 7], .main] ++
    List.replicate 7 DriverAction.worker ++ [DriverAction.arrive ⟨audioMessage 1 [0], none⟩] ++
    List.replicate 4 DriverAction.worker ++ [DriverAction.arrive ⟨doneMessage 1, none⟩] ++
    List.replicate 8 DriverAction.worker ++
    [DriverAction.speak [.str [66]], .main, .cancel, .main, .main, .main, .main]

theorem speechInOrder_spokenThenCancelled :
    ∃ s, run (driverStep plainSettings fun _ x => x) (initialState 0) spokenThenCancelled = some s ∧
      s.trace.map (·.2) = [.feed [0, 0], .idle, .index 7, .doneSpeaking] ∧
      SpeechInOrder plainSettings (fun _ x => x) (fun _ _ => [[0]]) s := by
  have hsome : (run (driverStep plainSettings fun _ x => x) (initialState 0)
      spokenThenCancelled).map (·.trace.map (·.2)) =
        some [.feed [0, 0], .idle, .index 7, .doneSpeaking] := by decide +kernel
  obtain ⟨s, hs, htrace⟩ := Option.map_eq_some_iff.1 hsome
  exact ⟨s, hs, htrace, speechInOrder_of_run plainSettings (fun _ x => x) (fun _ _ => [[0]]) 0
    spokenThenCancelled hs (by decide +kernel) (by decide +kernel)⟩

/-- A lone surrogate is spoken: `encode` raises. -/
def spokenSurrogate : List DriverAction :=
  [DriverAction.hostStart true, .speak [.str [0xD800]], .main] ++
    List.replicate 7 DriverAction.worker

theorem not_speechInOrder_spokenSurrogate :
    ¬ ∀ (settings : Settings) (scaleSample : ℤ → UInt16 → UInt16)
      (audio : ℕ → ℕ → List (List UInt16)) (generation : UInt32) (as : List DriverAction)
      (s : DriverState),
      run (driverStep settings scaleSample) (initialState generation) as = some s →
      Along (driverStep settings scaleSample) (HelperAnswers audio) (initialState generation) as →
      SpeechInOrder settings scaleSample audio s := by
  intro h
  have hstate : (run (driverStep plainSettings fun _ x => x) (initialState 0) spokenSurrogate).map
      (fun s => (s.trace, s.calls, line s)) =
        some ([], [⟨[.text [0xD800]], false⟩], []) := by decide +kernel
  obtain ⟨s, hs, heq⟩ := Option.map_eq_some_iff.1 hstate
  obtain ⟨htrace, hcalls, hline⟩ : s.trace = [] ∧ s.calls = [⟨[.text [0xD800]], false⟩] ∧
      line s = [] := by simpa using heq
  have horder := h plainSettings (fun _ x => x) (fun _ _ => []) 0 spokenSurrogate s hs
    (by decide +kernel)
  -- the call has left the system, was not superseded, and has no trace
  have hfull := horder.full 0 ⟨[.text [0xD800]], false⟩ (by rw [hcalls]; rfl)
    (by rw [hline]; exact nofun) rfl
  rw [htrace] at hfull
  exact absurd hfull (by simp [fullTrace])

end SamsungTVVoices.Driver
