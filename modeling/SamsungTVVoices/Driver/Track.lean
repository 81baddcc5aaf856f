/-
A worker that is on track, and one that is cut short.

The worker is `OnTrack` when what it has done for its job, followed by what it will do if all
goes on, is the job's full trace; the messages that the helper still owes are part of what is to
come.  Once the job is superseded, the worker adds to the trace only what it had decided on
(`Cut`).
-/
import SamsungTVVoices.Driver.Line

open SamsungTVVoices.Host (Message)

namespace SamsungTVVoices.Driver

/-! ### The messages that are still to come -/

section Defs

variable (settings : Settings) (scaleSample : ℤ → UInt16 → UInt16)
  (audio : ℕ → ℕ → List (List UInt16))

/-- What the helper still owes for the last request. -/
def owed (requests : List Request) : List Message :=
  match requests.getLast? with
  | some r => if r.superseded then [] else (answers audio r).drop r.arrived.length
  | none => []

/-- The messages of a generation that are queued or owed. -/
def toCome (generation : UInt32) (inbox : List Mail) (requests : List Request) : List Message :=
  (inbox.map (·.message)).filter (·.generation = generation) ++ owed audio requests

/-! ### On track -/

/-- The helper's answer is on its way, and the worker's trace is full after it. -/
def Awaits (job : Job) (rest : List SpeechEvent) (cur : List TraceEvent) (mail : List Message) :
    Prop :=
  ∃ samples, mail = samples.map (audioMessage job.generation) ++ [doneMessage job.generation] ∧
    cur ++ (feedsOf settings scaleSample samples ++
      .idle :: fullTrace settings scaleSample audio job.call rest) =
        fullTrace settings scaleSample audio job.call job.events

/-- The worker has added `cur` to the trace for its job, these messages are to come, and the
trace will be the full one. -/
def OnTrack (cur : List TraceEvent) (mail : List Message) : WorkerPc → Prop
  | .starting | .get => True
  | .check _ | .enter _ => mail = [] ∧ cur = []
  | .head job rest => mail = [] ∧ cur ++ fullTrace settings scaleSample audio job.call rest =
      fullTrace settings scaleSample audio job.call job.events
  | .notify job i rest => mail = [] ∧
      cur ++ .index i :: fullTrace settings scaleSample audio job.call rest =
        fullTrace settings scaleSample audio job.call job.events
  | .ensure job t rest | .send job t rest => mail = [] ∧
      cur ++ fullTrace settings scaleSample audio job.call (.text t :: rest) =
        fullTrace settings scaleSample audio job.call job.events
  | .wait job rest cancelled .head | .wait job rest cancelled .getMessage =>
      cancelled = false ∧ Awaits settings scaleSample audio job rest cur mail
  | .wait job rest cancelled (.audio m) | .wait job rest cancelled (.feed m) =>
      cancelled = false ∧ ∃ samples, m.message = audioMessage job.generation samples ∧
        Awaits settings scaleSample audio job rest
          (cur ++ feedOf settings scaleSample (sampleBytes samples)) mail
  | .wait _ _ _ _ => False
  | .completed job rest | .idle job rest => mail = [] ∧
      cur ++ .idle :: fullTrace settings scaleSample audio job.call rest =
        fullTrace settings scaleSample audio job.call job.events
  | .notifyDone job => mail = [] ∧
      cur ++ [.doneSpeaking] = fullTrace settings scaleSample audio job.call job.events
  | .leave job => mail = [] ∧ cur = fullTrace settings scaleSample audio job.call job.events

/-- What the worker adds to the trace before it looks at the generation again. -/
def WorkerPc.decided : WorkerPc → List TraceEvent
  | .notify _ i _ => [.index i]
  | .wait _ _ _ (.feed m) => feedOf settings scaleSample m.message.payload
  | .idle _ _ => [.idle]
  | .notifyDone _ => [.doneSpeaking]
  | _ => []

/-- The trace stays a prefix of the full one until the worker looks at the generation again. -/
def Cut (job : Job) (cur : List TraceEvent) (pc : WorkerPc) : Prop :=
  cur ++ pc.decided settings scaleSample <+:
    fullTrace settings scaleSample audio job.call job.events

end Defs

variable {settings : Settings} {scaleSample : ℤ → UInt16 → UInt16}
  {audio : ℕ → ℕ → List (List UInt16)}
variable {s t : DriverState} {job : Job} {cur : List TraceEvent} {mail : List Message}
  {pc pc' : WorkerPc}

lemma cut_of_eq {later : List TraceEvent} (h : cur ++ (pc.decided settings scaleSample ++ later) =
    fullTrace settings scaleSample audio job.call job.events) :
    Cut settings scaleSample audio job cur pc :=
  ⟨later, by rw [List.append_assoc, h]⟩

lemma OnTrack.cut (h : OnTrack settings scaleSample audio cur mail pc) (hjob : pc.job? = some job) :
    Cut settings scaleSample audio job cur pc := by
  cases pc with
  | starting => cases hjob
  | get => cases hjob
  | check j => cases hjob; rw [h.2]; exact List.nil_prefix
  | enter j => cases hjob; rw [h.2]; exact List.nil_prefix
  | wait j rest cancelled pc =>
      cases hjob
      cases pc with
      | head =>
          obtain ⟨-, samples, -, hfull⟩ := h
          exact cut_of_eq hfull
      | getMessage =>
          obtain ⟨-, samples, -, hfull⟩ := h
          exact cut_of_eq hfull
      | audio m =>
          obtain ⟨-, samples, -, more, -, hfull⟩ := h
          rw [List.append_assoc] at hfull
          exact cut_of_eq hfull
      | feed m =>
          obtain ⟨-, samples, hm, more, -, hfull⟩ := h
          have hpayload : m.message.payload = sampleBytes samples := by rw [hm]; rfl
          rw [List.append_assoc, ← hpayload] at hfull
          exact cut_of_eq hfull
      | stalled => exact h.elim
      | stop => exact h.elim
      | restart => exact h.elim
  | notifyDone j => cases hjob; exact ⟨[], (List.append_nil _).trans h.2⟩
  | leave j => cases hjob; exact ⟨[], by simpa [WorkerPc.decided] using h.2⟩
  | _ => cases hjob; exact cut_of_eq h.2

lemma Cut.le (h : Cut settings scaleSample audio job cur pc) :
    cur <+: fullTrace settings scaleSample audio job.call job.events :=
  (List.prefix_append _ _).trans h

lemma cut_of_le (h : cur <+: fullTrace settings scaleSample audio job.call job.events)
    (hpc : pc.decided settings scaleSample = []) : Cut settings scaleSample audio job cur pc := by
  rw [Cut, hpc, List.append_nil]
  exact h

/-! ### The moves of the worker -/

/-- A silent move keeps a current job on track, as its text can be sent. -/
lemma Silent.onTrack (h : Silent settings scaleSample s pc pc')
    (hcurrent : ∀ job ∈ pc.job?, s.isCurrent job = true) (hsendable : ∀ e ∈ pc.events, e.Sendable)
    (hrunning : ∀ job text rest, pc = .send job text rest → s.running = true)
    (htrack : OnTrack settings scaleSample audio cur mail pc) :
    OnTrack settings scaleSample audio cur mail pc' := by
  cases h with
  | check job h => exact htrack
  | discard job h => trivial
  | refuse job h => trivial
  | index job i rest h => exact htrack
  | text job t rest h => exact htrack
  | finished job h => exact htrack
  | cut job rest h => exact absurd (hcurrent job rfl) (by simp [h])
  | running job t rest h => exact htrack
  | unsent job t rest h =>
      rcases h with h | h
      · obtain ⟨bytes, -, hframe⟩ :=
          speakFrame_of_sendable (hsendable (.text t) List.mem_cons_self) settings job.generation
        exact absurd h (by simp [hframe])
      · exact absurd (hrunning job t rest rfl) (by simp [h])
  | loop job rest cancelled =>
      obtain ⟨hcancelled, hawaits⟩ := htrack
      exact ⟨by simp [hcancelled, hcurrent job rfl], hawaits⟩
  | fail job rest cancelled => exact htrack.elim
  | endure job rest cancelled => exact htrack.elim
  | play job rest cancelled m h => exact htrack
  | drop job rest cancelled m h => exact absurd (hcurrent job rfl) (by simp [h])
  | unscaled job rest cancelled m h =>
      obtain ⟨-, samples, hm, -⟩ := htrack
      obtain ⟨data, hdata⟩ := scaleVolume_sampleBytes scaleSample samples settings.volume
      have hpayload : m.message.payload = sampleBytes samples := by rw [hm]; rfl
      rw [hpayload, hdata] at h
      exact absurd h (by simp)
  | idle job rest h => exact htrack
  | late job rest h => exact absurd (hcurrent job rfl) (by simp [h])

/-- Only a move that has looked at the generation decides on a trace event. -/
lemma Silent.keepsCut (h : Silent settings scaleSample s pc pc') (hjob : pc.job? = some job)
    (hstale : s.isCurrent job = false) (hcut : Cut settings scaleSample audio job cur pc) :
    Cut settings scaleSample audio job cur pc' := by
  cases h with
  | index j i rest h => cases hjob; exact absurd h (by simp [hstale])
  | finished j h => cases hjob; exact absurd h (by simp [hstale])
  | play j rest cancelled m h => cases hjob; exact absurd h (by simp [hstale])
  | idle j rest h => cases hjob; exact absurd h (by simp [hstale])
  | _ => exact cut_of_le hcut.le rfl

lemma Shown.onTrack {e : TraceEvent} (h : Shown pc job e pc')
    (htrack : OnTrack settings scaleSample audio cur mail pc) :
    OnTrack settings scaleSample audio (cur ++ [e]) mail pc' := by
  cases h with
  | index i rest => exact ⟨htrack.1, (List.append_assoc ..).trans htrack.2⟩
  | idle rest => exact ⟨htrack.1, (List.append_assoc ..).trans htrack.2⟩
  | doneSpeaking => exact htrack

lemma Shown.keepsCut {e : TraceEvent} (h : Shown pc job e pc')
    (hcut : Cut settings scaleSample audio job cur pc) :
    Cut settings scaleSample audio job (cur ++ [e]) pc' := by
  cases h <;> exact cut_of_le hcut rfl

/-! ### What is to come -/

/-- The record of what is fed and returned has no effect on what is owed. -/
lemma owed_record {f : Request → Request} (s : DriverState)
    (hf : ∀ r, answers audio (f r) = answers audio r ∧ (f r).superseded = r.superseded ∧
      (f r).arrived = r.arrived) : owed audio (s.record f).requests = owed audio s.requests := by
  rw [owed, owed, getLast?_record]
  cases s.requests.getLast? with
  | none => rfl
  | some r =>
      obtain ⟨hanswers, hsuperseded, harrived⟩ := hf r
      simp only [Option.map_some, hanswers, hsuperseded, harrived]

lemma owed_append (requests : List Request) (r : Request) :
    owed audio (requests ++ [r]) =
      if r.superseded then [] else (answers audio r).drop r.arrived.length := by
  simp [owed]

/-- A superseded request is owed nothing. -/
lemma owed_of_superseded {r : Request} {requests : List Request} (hr : r ∈ requests.getLast?)
    (h : r.superseded = true) : owed audio requests = [] := by
  rw [owed, hr]
  exact if_pos h

lemma toCome_cons_of_ne {g : UInt32} {m : Mail} (h : m.message.generation ≠ g) (inbox : List Mail)
    (requests : List Request) :
    toCome audio g (m :: inbox) requests = toCome audio g inbox requests := by
  simp [toCome, h]

lemma toCome_cons_of_eq {g : UInt32} {m : Mail} (h : m.message.generation = g) (inbox : List Mail)
    (requests : List Request) :
    toCome audio g (m :: inbox) requests = m.message :: toCome audio g inbox requests := by
  simp [toCome, h]

lemma Awaits.cons {rest : List SpeechEvent} {m : Message}
    (h : Awaits settings scaleSample audio job rest cur (m :: mail)) :
    (∃ samples, m = audioMessage job.generation samples ∧
      Awaits settings scaleSample audio job rest
        (cur ++ feedOf settings scaleSample (sampleBytes samples)) mail) ∨
    (m = doneMessage job.generation ∧ mail = [] ∧
      cur ++ .idle :: fullTrace settings scaleSample audio job.call rest =
        fullTrace settings scaleSample audio job.call job.events) := by
  obtain ⟨samples, hmail, hfull⟩ := h
  cases samples with
  | nil =>
      obtain ⟨rfl, rfl⟩ := List.cons.inj hmail
      exact Or.inr ⟨rfl, rfl, hfull⟩
  | cons first samples =>
      obtain ⟨rfl, rfl⟩ := List.cons.inj hmail
      refine Or.inl ⟨first, rfl, samples, rfl, ?_⟩
      simpa [feedsOf] using hfull

/-- Once the trace has its `synthDoneSpeaking`, it is full. -/
lemma OnTrack.full_of_done (h : OnTrack settings scaleSample audio cur mail pc)
    (hjob : pc.job? = some job) (hdone : .doneSpeaking ∈ cur) :
    cur = fullTrace settings scaleSample audio job.call job.events := by
  cases pc with
  | starting => cases hjob
  | get => cases hjob
  | check j => rw [h.2] at hdone; exact absurd hdone List.not_mem_nil
  | enter j => rw [h.2] at hdone; exact absurd hdone List.not_mem_nil
  | head j rest =>
      refine absurd hdone (doneSpeaking_not_mem h.2 ?_)
      obtain ⟨earlier, hearlier, -⟩ := exists_fullTrace_eq settings scaleSample audio j.call rest
      simp [hearlier]
  | wait j rest cancelled pc =>
      cases pc with
      | head =>
          obtain ⟨-, samples, -, hfull⟩ := h
          exact absurd hdone (doneSpeaking_not_mem hfull (by simp))
      | getMessage =>
          obtain ⟨-, samples, -, hfull⟩ := h
          exact absurd hdone (doneSpeaking_not_mem hfull (by simp))
      | audio m =>
          obtain ⟨-, samples, -, more, -, hfull⟩ := h
          rw [List.append_assoc] at hfull
          exact absurd hdone (doneSpeaking_not_mem hfull (by simp))
      | feed m =>
          obtain ⟨-, samples, -, more, -, hfull⟩ := h
          rw [List.append_assoc] at hfull
          exact absurd hdone (doneSpeaking_not_mem hfull (by simp))
      | stalled => exact h.elim
      | stop => exact h.elim
      | restart => exact h.elim
  | leave j => cases hjob; exact h.2
  | _ => exact absurd hdone (doneSpeaking_not_mem h.2 (by simp [fullTrace]))

end SamsungTVVoices.Driver
