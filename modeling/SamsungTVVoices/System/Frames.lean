/-
The size of the driver's frames and what the guest accepts.

The guest takes a SPEAK of at most 2^20 bytes; the driver sends whatever `speak` makes of a
sequence in one frame for each text.  So every frame of every run is accepted exactly if every text
fits, up to the first that cannot be sent at all (`framesAccepted_iff`).
-/
import SamsungTVVoices.Driver.Notices
import SamsungTVVoices.System.Once

open SamsungTVVoices.Driver SamsungTVVoices.Guest StepSystem

namespace SamsungTVVoices.System

/-! ### The property -/

/-- The guest takes the frame as a request, whatever it is doing otherwise. -/
def Accepts (f : Frame) : Prop :=
  ∀ s : GuestState, ∃ t job, Guest.receive s (.ofFrame f) = some t ∧ t.reader = .post job

/-- Every text of the events fits the guest, up to the first that cannot be sent at all. -/
def FramesFit : List SpeechEvent → Prop
  | [] => True
  | .index _ :: rest => FramesFit rest
  | .text t :: rest => Sendable t → Fits t ∧ FramesFit rest

section

variable (settings : Settings) (scaleSample : ℤ → UInt16 → UInt16)

/-- The driver comes to the state when `speak` is called with these sequences only. -/
def Comes (S : Set (List SpeechItem)) (s : DriverState) : Prop :=
  ∃ generation as,
    run (driverStep settings scaleSample) (Driver.initialState generation) as = some s ∧
      ∀ seq, DriverAction.speak seq ∈ as → seq ∈ S

/-- The guest accepts every SPEAK that has been sent. -/
def FramesAccepted (S : Set (List SpeechItem)) : Prop :=
  ∀ s, Comes settings scaleSample S s → ∀ f ∈ s.requests.map (·.frame), Accepts f

end

variable {settings : Settings} {scaleSample : ℤ → UInt16 → UInt16} {S : Set (List SpeechItem)}
  {s t : DriverState} {job : Job}

/-! ### What the guest accepts -/

/-- Between 21 bytes and a mebibyte. -/
lemma accepts_iff {generation : UInt32} {payload : Bytes} (h : payload.length < 2 ^ 32) :
    Accepts ⟨SamsungMessage.speak.code, generation, payload⟩ ↔
      SamsungSpeakOptions.byteSize < payload.length ∧
        payload.length ≤ samsungProtocolMaxPayload := by
  have hsize : (UInt32.ofNat payload.length).toNat = payload.length := by
    simpa using Nat.mod_eq_of_lt h
  constructor
  · intro haccepts
    obtain ⟨t, job, ht, hpost⟩ := haccepts Guest.initialState
    rw [Incoming.ofFrame, Guest.receive, Frame.header] at ht
    dsimp only at ht
    rw [hsize] at ht
    split at ht
    · cases ht; cases hpost
    next hlegal =>
    rw [if_neg (not_not.2 rfl), if_pos rfl] at ht
    split at ht
    · cases ht; cases hpost
    next hmin =>
    exact ⟨not_le.1 hmin, not_lt.1 (not_or.1 hlegal).2⟩
  · rintro ⟨hmin, hmax⟩ s
    obtain ⟨t, ht⟩ := exists_receive s (Legal.speak generation payload hmin hmax)
    exact ⟨t, jobOf s.requests ⟨SamsungMessage.speak.code, generation, payload⟩, ht, by
      rw [receive_speak hmin hmax ht]⟩

lemma accepts_speakFrame {generation : UInt32} {text : PyString} {frame : Frame}
    (h : speakFrame settings generation text = some frame) (htext : text ≠ []) :
    Accepts frame ↔ Fits text := by
  obtain ⟨bytes, hbytes, hlength⟩ := sendable_of_speakFrame h
  obtain ⟨bytes', hbytes', hframe⟩ :=
    speakFrame_of_sendable ⟨bytes, hbytes, hlength⟩ settings generation
  obtain rfl := Option.some.inj (hbytes.symm.trans hbytes')
  obtain rfl := Option.some.inj (h.symm.trans hframe)
  have hpos := List.length_pos_iff.2 (encode_ne_nil hbytes htext)
  have hpayload : (settings.options.toBytes ++ bytes).length =
      SamsungSpeakOptions.byteSize + bytes.length := by
    rw [List.length_append, SamsungSpeakOptions.length_toBytes]
  rw [accepts_iff (hpayload ▸ hlength), hpayload]
  constructor
  · rintro ⟨-, hmax⟩ b hb
    obtain rfl := Option.some.inj (hbytes.symm.trans hb)
    exact hmax
  · exact fun hfits => ⟨by omega, hfits bytes hbytes⟩

/-! ### Sequences that fit -/

/-- What is still to be spoken of a job fits, and has no empty text. -/
def EventsFit (events : List SpeechEvent) : Prop := FramesFit events ∧ .text [] ∉ events

structure FrameInv (s : DriverState) : Prop where
  waiting : ∀ job ∈ waiting s, EventsFit job.events
  worker : EventsFit s.worker.events
  frames : ∀ f ∈ s.requests.map (·.frame), Accepts f

lemma eventsFit_nil : EventsFit [] := ⟨trivial, List.not_mem_nil⟩

lemma EventsFit.tail {e : SpeechEvent} {rest : List SpeechEvent} (h : EventsFit (e :: rest))
    (he : ∀ t, e = .text t → Sendable t) : EventsFit rest := by
  refine ⟨?_, fun hmem => h.2 (List.mem_cons_of_mem _ hmem)⟩
  cases e with
  | index i => exact h.1
  | text t => exact (h.1 (he t rfl)).2

lemma frames_record (s : DriverState) {f : Request → Request} (hf : ∀ r, (f r).frame = r.frame) :
    (s.record f).requests.map (·.frame) = s.requests.map (·.frame) := by
  apply List.ext_getElem?
  intro i
  rw [DriverState.record, List.getElem?_map, List.getElem?_map, List.getElem?_modify]
  cases s.requests[i]? with
  | none => rfl
  | some r =>
      simp only [Option.map_eq_map, Option.map_some]
      split
      · rw [hf]
      · rfl

lemma FrameInv.same (h : FrameInv s) (hwaiting : (Driver.waiting t).Sublist (Driver.waiting s))
    (hworker : EventsFit t.worker.events)
    (hframes : t.requests.map (·.frame) = s.requests.map (·.frame)) : FrameInv t :=
  ⟨fun job hjob => h.waiting job (hwaiting.subset hjob), hworker, by rw [hframes]; exact h.frames⟩

/-- A silent move leaves the rest of the events, or drops it. -/
lemma eventsFit_of_silent {pc pc' : Driver.WorkerPc} (h : Silent settings scaleSample s pc pc')
    (hfit : EventsFit pc.events) : EventsFit pc'.events := by
  cases h with
  | check j h => exact hfit
  | index j i rest h => exact hfit.tail nofun
  | text j t rest h => exact hfit
  | running j t rest h => exact hfit
  | loop j rest cancelled => exact hfit
  | fail j rest cancelled => exact hfit
  | endure j rest cancelled => exact hfit
  | play j rest cancelled mail h => exact hfit
  | drop j rest cancelled mail h => exact hfit
  | idle j rest h => exact hfit
  | _ => exact eventsFit_nil

lemma FrameInv.workerMove (h : FrameInv s) (hmove : WorkerMove settings scaleSample s t) :
    FrameInv t := by
  have hworker := h.worker
  cases hmove with
  | silent pc hsilent =>
      exact h.same (List.Sublist.refl _) (eventsFit_of_silent hsilent h.worker) rfl
  | take job jobs hs hjobs =>
      refine ⟨fun j hj => h.waiting j ?_, h.waiting job ?_, h.frames⟩
      · simp only [Driver.waiting, hjobs, List.cons_append, List.mem_cons] at hj ⊢
        exact Or.inr hj
      · simp [Driver.waiting, hjobs]
  | enter job hs hcurrent =>
      rw [hs] at hworker
      exact h.same (List.Sublist.refl _) hworker rfl
  | shown job e pc hshown =>
      refine h.same (List.Sublist.refl _) ?_ rfl
      show EventsFit pc.events
      generalize s.worker = old at hshown hworker
      cases hshown with
      | index job i rest => exact hworker
      | idle job rest => exact hworker
      | doneSpeaking job => exact eventsFit_nil
  | send job text rest frame hs hframe hrunning =>
      rw [hs] at hworker
      have hsendable := sendable_of_speakFrame hframe
      refine ⟨h.waiting, hworker.tail fun t ht => ?_, fun f hf => ?_⟩
      · cases ht
        exact hsendable
      · rw [List.map_append, List.mem_append] at hf
        rcases hf with hf | hf
        · exact h.frames f hf
        · obtain rfl : f = frame := List.mem_singleton.1 hf
          refine (accepts_speakFrame hframe ?_).2 (hworker.1 hsendable).1
          rintro rfl
          exact hworker.2 List.mem_cons_self
  | pass job rest cancelled mail inbox pc hs hinbox hpassed =>
      rw [hs] at hworker
      exact h.same (List.Sublist.refl _) hworker rfl
  | ended job rest cancelled mail inbox pc hs hinbox hended =>
      rw [hs] at hworker
      refine h.same (List.Sublist.refl _) ?_ (frames_record s fun _ => rfl)
      cases hended with
      | done hgeneration htype => exact hworker
      | failed hgeneration htype => exact eventsFit_nil
  | feed job rest cancelled mail data hs hdata =>
      rw [hs] at hworker
      exact h.same (List.Sublist.refl _) hworker (frames_record s fun _ => rfl)
  | stop job rest cancelled hs =>
      rw [hs] at hworker
      exact h.same (List.Sublist.refl _) hworker rfl
  | leave job hs => exact h.same (List.Sublist.refl _) eventsFit_nil rfl

lemma FrameInv.driverStep {a : DriverAction} (h : FrameInv s)
    (ht : Driver.driverStep settings scaleSample s a = some t)
    (hfits : ∀ seq, a = .speak seq → EventsFit (speechEvents seq)) : FrameInv t := by
  cases a with
  | speak items =>
      obtain ⟨hmain, rfl | rfl⟩ := exists_speak ht
      · exact h
      · refine ⟨fun job hjob => ?_, h.worker, h.frames⟩
        simp only [Driver.waiting, MainPc.job?, Option.toList_some, List.mem_append,
          List.mem_singleton] at hjob
        rcases hjob with hjob | rfl
        · exact h.waiting job (List.mem_append_left _ hjob)
        · exact hfits items rfl
  | cancel =>
      obtain ⟨hmain, rfl⟩ := exists_cancel ht
      refine h.same ?_ h.worker ?_
      · simp [Driver.waiting, hmain, MainPc.job?]
      · rw [List.map_map]
        rfl
  | main =>
      obtain ⟨hwaiting, -, hrequests⟩ := waiting_of_mainStep ht
      exact h.same hwaiting (by rw [(same_of_mainStep ht).1]; exact h.worker) (by rw [hrequests])
  | worker => exact h.workerMove (workerMove_workerStep ht)
  | hostStart ok =>
      change hostStart s ok = some t at ht
      unfold hostStart at ht
      have hworker := h.worker
      split at ht
      case h_1 => cases ht; exact h.same (List.Sublist.refl _) eventsFit_nil rfl
      case h_2 job text rest hs =>
        rw [hs] at hworker
        split at ht
        · cases ht
        · cases ht
          refine h.same (List.Sublist.refl _) ?_ rfl
          cases ok with
          | true => exact hworker
          | false => exact eventsFit_nil
      case h_3 => cases ht; exact h.same (List.Sublist.refl _) eventsFit_nil rfl
      case h_4 => cases ht
  | empty cancelledLong stalled =>
      obtain ⟨job, rest, cancelled, pc, hs, -, rfl, -⟩ := exists_polled ht
      have hworker := h.worker
      rw [hs] at hworker
      exact h.same (List.Sublist.refl _) hworker rfl
  | arrive mail =>
      change arrive s mail = some t at ht
      unfold arrive at ht
      split at ht
      · cases ht
        refine h.same (List.Sublist.refl _) h.worker (frames_record s fun r => ?_)
        split <;> rfl
      · cases ht

lemma frameInv_initialState (generation : UInt32) : FrameInv (Driver.initialState generation) where
  waiting := nofun
  worker := eventsFit_nil
  frames := nofun

/-! ### A sequence is spoken -/

lemma Comes.run {as : List DriverAction} (h : Comes settings scaleSample S s)
    (hrun : StepSystem.run (driverStep settings scaleSample) s as = some t)
    (has : ∀ seq, DriverAction.speak seq ∉ as) : Comes settings scaleSample S t := by
  obtain ⟨generation, before, hbefore, hspeaks⟩ := h
  refine ⟨generation, before ++ as, run_append.2 ⟨s, hbefore, hrun⟩, fun seq hseq => ?_⟩
  rcases List.mem_append.1 hseq with hseq | hseq
  · exact hspeaks seq hseq
  · exact absurd hseq (has seq)

/-- The worker is at the head of the loop over the events of a current job. -/
structure AtHead (job : Job) (rest : List SpeechEvent) (s : DriverState) : Prop where
  worker : s.worker = .head job rest
  current : s.isCurrent job = true
  running : s.running = true
  inbox : s.inbox = []

lemma AtHead.index {i : ℤ} {rest : List SpeechEvent} (h : AtHead job (.index i :: rest) s) :
    ∃ t, run (driverStep settings scaleSample) s [.worker, .worker] = some t ∧
      AtHead job rest t := by
  refine ⟨_, run_cons_eq_some.2 ⟨{ s with worker := .notify job i rest }, ?_,
    run_cons_eq_some.2 ⟨_, rfl, rfl⟩⟩, ?_⟩
  · simp [driverStep, Driver.workerStep, h.worker, h.current, next]
  · exact ⟨rfl, h.current, h.running, h.inbox⟩

/-- The worker sends the text. -/
lemma AtHead.send {text : PyString} {rest : List SpeechEvent} {frame : Frame}
    (h : AtHead job (.text text :: rest) s)
    (hframe : speakFrame settings job.generation text = some frame) :
    ∃ t, run (driverStep settings scaleSample) s [.worker, .worker, .worker] = some t ∧
      frame ∈ t.requests.map (·.frame) ∧ t.worker = .wait job rest false .head ∧
      t.isCurrent job = true ∧ t.running = true ∧ t.inbox = [] := by
  have hcurrent : s.currentGeneration = job.generation := (isCurrent_iff.1 h.current).symm
  refine ⟨{ s with
    outgoing := s.outgoing ++ [frame]
    requests := s.requests ++ [⟨job.call, rest.length, frame, [], [], none, false⟩]
    worker := .wait job rest false .head }, ?_, ?_, rfl, h.current, h.running, h.inbox⟩
  · simp [driverStep, Driver.workerStep, h.worker, h.running, next, hframe, DriverState.isCurrent,
      hcurrent]
  · simp

/-- The guest answers with DONE, and the worker goes on. -/
lemma exists_answered {rest : List SpeechEvent} (hworker : s.worker = .wait job rest false .head)
    (hcurrent : s.isCurrent job = true) (hrunning : s.running = true) (hinbox : s.inbox = []) :
    ∃ t, run (driverStep settings scaleSample) s
        [.worker, .arrive ⟨doneMessage job.generation, none⟩, .worker, .worker, .worker] = some t ∧
      AtHead job rest t := by
  obtain ⟨t, ht, hworker₁, hcurrent₁, hrunning₁, hinbox₁⟩ :
      ∃ t, driverStep settings scaleSample s .worker = some t ∧
        t.worker = .wait job rest false .getMessage ∧ t.isCurrent job = true ∧ t.running = true ∧
        t.inbox = [] := by
    simp only [driverStep, Driver.workerStep, hworker, waitStep, hcurrent, Bool.not_true,
      Bool.or_false]
    exact ⟨_, rfl, rfl, hcurrent, hrunning, hinbox⟩
  obtain ⟨u, hu, hworker₂, hcurrent₂, hrunning₂, hinbox₂⟩ :
      ∃ u, driverStep settings scaleSample t (.arrive ⟨doneMessage job.generation, none⟩) = some u ∧
        u.worker = .wait job rest false .getMessage ∧ u.isCurrent job = true ∧ u.running = true ∧
        u.inbox = [⟨doneMessage job.generation, none⟩] := by
    simp only [driverStep, arrive, hinbox₁]
    exact ⟨_, rfl, hworker₁, hcurrent₁, hrunning₁, rfl⟩
  obtain ⟨v, hv, hworker₃, hcurrent₃, hrunning₃, hinbox₃⟩ :
      ∃ v, driverStep settings scaleSample u .worker = some v ∧ v.worker = .completed job rest ∧
        v.isCurrent job = true ∧ v.running = true ∧ v.inbox = [] := by
    have hdone : SamsungMessage.done.code ≠ SamsungMessage.audio.code := by decide
    simp only [driverStep, Driver.workerStep, hworker₂, waitStep, hinbox₂, dispatch, doneMessage,
      ne_eq, not_true_eq_false, if_false, hdone, if_true]
    exact ⟨_, rfl, rfl, hcurrent₂, hrunning₂, rfl⟩
  have hidle : driverStep settings scaleSample v .worker =
      some { v with worker := .idle job rest } := by
    simp only [driverStep, Driver.workerStep, hworker₃, hcurrent₃, if_true]
  refine ⟨_, run_cons_eq_some.2 ⟨t, ht, run_cons_eq_some.2 ⟨u, hu, run_cons_eq_some.2 ⟨v, hv,
    run_cons_eq_some.2 ⟨_, hidle, run_cons_eq_some.2 ⟨_, rfl, rfl⟩⟩⟩⟩⟩, ?_⟩
  exact ⟨rfl, hcurrent₃, hrunning₃, hinbox₃⟩

/-- All frames of the events fit if the guest accepts what the driver sends for them. -/
lemma framesFit_of_comes (haccepted : FramesAccepted settings scaleSample S)
    {events : List SpeechEvent} :
    ∀ {s : DriverState}, Comes settings scaleSample S s → AtHead job events s →
      .text [] ∉ events → FramesFit events := by
  induction events with
  | nil => exact fun _ _ _ => trivial
  | cons e rest ih =>
      intro s hcomes hhead htexts
      have hrest : .text [] ∉ rest := fun h => htexts (List.mem_cons_of_mem _ h)
      cases e with
      | index i =>
          obtain ⟨t, ht, hhead'⟩ : ∃ t, run (driverStep settings scaleSample) s
              [.worker, .worker] = some t ∧ AtHead job rest t := hhead.index
          exact ih (hcomes.run ht (by simp)) hhead' hrest
      | text text =>
          intro hsendable
          obtain ⟨bytes, -, hframe⟩ := speakFrame_of_sendable hsendable settings job.generation
          obtain ⟨t, ht, hmem, hworker, hcurrent, hrunning, hinbox⟩ : ∃ t,
              run (driverStep settings scaleSample) s [.worker, .worker, .worker] = some t ∧ _ :=
            hhead.send hframe
          have hcomes' := hcomes.run ht (by simp)
          refine ⟨(accepts_speakFrame hframe ?_).1 (haccepted t hcomes' _ hmem), ?_⟩
          · rintro rfl
            exact htexts List.mem_cons_self
          · obtain ⟨u, hu, hhead'⟩ := exists_answered hworker hcurrent hrunning hinbox
            exact ih (hcomes'.run hu (by simp)) hhead' hrest

lemma exists_atHead (settings : Settings) (scaleSample : ℤ → UInt16 → UInt16)
    {seq : List SpeechItem} (hseq : seq ∈ S) (hne : speechEvents seq ≠ []) :
    ∃ s job, Comes settings scaleSample S s ∧ AtHead job (speechEvents seq) s := by
  let job : Job := ⟨0, nextGeneration 0, speechEvents seq⟩
  refine ⟨{ Driver.initialState 0 with
    running := true, worker := .head job (speechEvents seq)
    activeGeneration := some job.generation, calls := [⟨speechEvents seq, false⟩] }, job,
    ⟨0, [.hostStart true, .speak seq, .main, .worker, .worker, .worker], ?_, ?_⟩, ?_⟩
  · simp [driverStep, Driver.initialState, hostStart, speak, hne, mainStep, Driver.workerStep,
      DriverState.isCurrent, job]
  · simpa using hseq
  · exact ⟨rfl, isCurrent_iff.2 rfl, rfl, rfl⟩

/-- **Frames.** The guest accepts every SPEAK of every run in which these sequences are spoken,
exactly if each of their texts fits a mebibyte with the options, up to the first that cannot be
sent. -/
theorem framesAccepted_iff (settings : Settings) (scaleSample : ℤ → UInt16 → UInt16)
    (S : Set (List SpeechItem)) :
    FramesAccepted settings scaleSample S ↔ ∀ seq ∈ S, FramesFit (speechEvents seq) := by
  have htexts (seq : List SpeechItem) : .text [] ∉ speechEvents seq :=
    fun hmem => ne_nil_of_mem_speechEvents hmem rfl
  constructor
  · intro haccepted seq hseq
    by_cases hne : speechEvents seq = []
    · rw [hne]
      trivial
    · obtain ⟨s, job, hcomes, hhead⟩ := exists_atHead settings scaleSample hseq hne
      exact framesFit_of_comes haccepted hcomes hhead (htexts seq)
  · rintro hfits s ⟨generation, as, hrun, hspeaks⟩
    have hinv : FrameInv s := by
      refine run_invariant_along (G := fun _ a => ∀ seq, a = .speak seq → seq ∈ S)
        (fun s a t h ha ht => h.driverStep ht fun seq hseq => ⟨hfits seq (ha seq hseq), htexts seq⟩)
        (frameInv_initialState generation) (along_of_forall (fun a ha seq hseq => ?_) _) hrun
      exact hspeaks seq (hseq ▸ ha)
    exact hinv.frames

/-- The text is a mebibyte of letters. -/
theorem not_framesAccepted_mebibyte :
    ¬ ∀ (settings : Settings) (scaleSample : ℤ → UInt16 → UInt16) (seq : List SpeechItem),
      FramesAccepted settings scaleSample {seq} := by
  intro h
  obtain ⟨n, hmin, hmax⟩ : ∃ n, samsungProtocolMaxPayload < SamsungSpeakOptions.byteSize + n ∧
      SamsungSpeakOptions.byteSize + n < 2 ^ 32 := ⟨2 ^ 20, by decide, by decide⟩
  have hevents := speechEvents_replicate hmin
  obtain ⟨s, job, hcomes, hhead⟩ := exists_atHead plainSettings (fun _ x => x)
    (Set.mem_singleton [SpeechItem.str (List.replicate n 65)]) (by rw [hevents]; exact nofun)
  have hfit := framesFit_of_comes (h _ _ _) hcomes hhead fun hmem =>
    ne_nil_of_mem_speechEvents hmem rfl
  rw [hevents] at hfit
  have hle := (hfit ⟨_, encode_replicate n, by simpa using hmax⟩).1 _ (encode_replicate n)
  rw [List.length_replicate] at hle
  exact absurd hle (not_le.2 hmin)

end SamsungTVVoices.System
