/-
What the driver's speech should be.

The full trace of a call of `speak` is, event by event, the audio of a text and then `idle`, or
the notification of an index, and at the end `synthDoneSpeaking`.  `SpeechInOrder` says that the
worker's trace is, call by call, the full trace of each call that is not superseded before its
trace ends, and a prefix of it of each that is.
-/
import SamsungTVVoices.Driver.Machine
import Mathlib.Data.List.Range

open SamsungTVVoices.Host (Message)

namespace SamsungTVVoices.Driver

/-! ### Full traces -/

section FullTrace

variable (settings : Settings) (scaleSample : ℤ → UInt16 → UInt16)
  (audio : ℕ → ℕ → List (List UInt16))

/-- What is fed for the payload of an AUDIO message. -/
def feedOf (data : Bytes) : List TraceEvent :=
  ((scaleVolume scaleSample data settings.volume).map TraceEvent.feed).toList

/-- What is fed for these AUDIO messages. -/
def feedsOf (messages : List (List UInt16)) : List TraceEvent :=
  messages.flatMap fun samples => feedOf settings scaleSample (sampleBytes samples)

/-- The full trace of the rest of a job; `audio` has the samples that the helper makes of a text,
by the call and the number of events after the text. -/
def fullTrace (call : ℕ) : List SpeechEvent → List TraceEvent
  | [] => [.doneSpeaking]
  | .index i :: rest => .index i :: fullTrace call rest
  | .text _ :: rest =>
      feedsOf settings scaleSample (audio call rest.length) ++ .idle :: fullTrace call rest

end FullTrace

/-- What the worker has done for a call. -/
def part (trace : List (ℕ × TraceEvent)) (call : ℕ) : List TraceEvent :=
  (trace.filter (·.1 = call)).map (·.2)

@[simp] lemma part_nil (call : ℕ) : part [] call = [] := rfl

lemma part_append_self (trace : List (ℕ × TraceEvent)) (call : ℕ) (e : TraceEvent) :
    part (trace ++ [(call, e)]) call = part trace call ++ [e] := by
  simp [part]

lemma part_append_of_ne {call call' : ℕ} (h : call ≠ call') (trace : List (ℕ × TraceEvent))
    (e : TraceEvent) : part (trace ++ [(call, e)]) call' = part trace call' := by
  simp [part, h]

lemma part_eq_nil {trace : List (ℕ × TraceEvent)} {call : ℕ} (h : ∀ e ∈ trace, e.1 ≠ call) :
    part trace call = [] := by
  simpa [part, List.filter_eq_nil_iff] using h

lemma mem_part {trace : List (ℕ × TraceEvent)} {call : ℕ} {e : TraceEvent} :
    e ∈ part trace call ↔ (call, e) ∈ trace := by
  simp [part]

/-- A trace in the order of the calls is the concatenation of its parts. -/
lemma map_snd_eq_flatMap_part {trace : List (ℕ × TraceEvent)}
    (hsorted : (trace.map (·.1)).Pairwise (· ≤ ·)) :
    ∀ n, (∀ e ∈ trace, e.1 < n) → trace.map (·.2) = (List.range n).flatMap (part trace) := by
  induction trace using List.reverseRecOn with
  | nil => intro n _; simp
  | append_singleton trace e ih =>
      obtain ⟨call, e⟩ := e
      intro n hn
      have hcall : call < n := hn (call, e) (by simp)
      have hle : ∀ d ∈ trace, d.1 ≤ call := by
        simp only [List.map_append, List.pairwise_append] at hsorted
        exact fun d hd => hsorted.2.2 d.1 (List.mem_map_of_mem hd) call (by simp)
      have htrace : trace.map (·.2) = (List.range (call + 1)).flatMap (part trace) := by
        refine ih ?_ (call + 1) fun d hd => Nat.lt_succ_of_le (hle d hd)
        rw [List.map_append, List.pairwise_append] at hsorted
        exact hsorted.1
      -- the calls after the last one have no part yet
      have hlater (m : ℕ) : (List.range (call + 1 + m)).flatMap (part (trace ++ [(call, e)])) =
          (List.range (call + 1)).flatMap (part trace) ++ [e] := by
        induction m with
        | zero =>
            have hearlier : ∀ i ∈ List.range call,
                part (trace ++ [(call, e)]) i = part trace i := fun i hi =>
              part_append_of_ne (List.mem_range.1 hi).ne' trace e
            rw [Nat.add_zero, List.range_succ, List.flatMap_append, List.flatMap_append,
              List.flatMap_congr hearlier]
            simp [part_append_self]
        | succ m ihm =>
            have hnil : part (trace ++ [(call, e)]) (call + 1 + m) = [] := by
              refine part_eq_nil fun d hd => ?_
              rcases List.mem_append.1 hd with hd | hd
              · have := hle d hd
                omega
              · obtain rfl : d = (call, e) := by simpa using hd
                show call ≠ _
                omega
            rw [← Nat.add_assoc, List.range_succ, List.flatMap_append, ihm]
            simp [hnil]
      obtain ⟨m, rfl⟩ : ∃ m, n = call + 1 + m := ⟨n - (call + 1), by omega⟩
      rw [hlater, List.map_append, htrace]
      rfl

/-- A full trace ends with its one `synthDoneSpeaking`. -/
lemma exists_fullTrace_eq (settings : Settings) (scaleSample : ℤ → UInt16 → UInt16)
    (audio : ℕ → ℕ → List (List UInt16)) (call : ℕ) (events : List SpeechEvent) :
    ∃ earlier, fullTrace settings scaleSample audio call events = earlier ++ [.doneSpeaking] ∧
      .doneSpeaking ∉ earlier := by
  induction events with
  | nil => exact ⟨[], rfl, by simp⟩
  | cons e rest ih =>
      obtain ⟨earlier, hearlier, hnot⟩ := ih
      cases e with
      | index i => exact ⟨.index i :: earlier, by simp [fullTrace, hearlier], by simpa using hnot⟩
      | text t =>
          refine ⟨feedsOf settings scaleSample (audio call rest.length) ++ .idle :: earlier,
            by simp [fullTrace, hearlier], ?_⟩
          simpa [feedsOf, feedOf] using hnot

/-- A trace that is not yet full has no `synthDoneSpeaking`. -/
lemma doneSpeaking_not_mem {settings : Settings} {scaleSample : ℤ → UInt16 → UInt16}
    {audio : ℕ → ℕ → List (List UInt16)} {call : ℕ} {events : List SpeechEvent}
    {cur later : List TraceEvent}
    (h : cur ++ later = fullTrace settings scaleSample audio call events) (hlater : later ≠ []) :
    .doneSpeaking ∉ cur := by
  obtain ⟨earlier, hearlier, hnot⟩ := exists_fullTrace_eq settings scaleSample audio call events
  obtain ⟨later, last, rfl⟩ := (List.eq_nil_or_concat later).resolve_left hlater
  have hsplit : cur ++ later ++ [last] = earlier ++ [.doneSpeaking] := by
    simpa [hearlier] using h
  obtain ⟨rfl, -⟩ := List.append_inj' hsplit rfl
  exact fun hmem => hnot (List.mem_append_left _ hmem)

/-! ### The property -/

/-- The job that the main thread is about to queue. -/
def MainPc.job? : MainPc → Option Job
  | .put job => some job
  | _ => none

/-- The jobs that the worker has not taken. -/
def waiting (s : DriverState) : List Job := s.jobs ++ s.main.job?.toList

/-- The jobs of the calls that are in the system, in the order of the calls. -/
def line (s : DriverState) : List Job := s.worker.job?.toList ++ waiting s

section Property

variable (settings : Settings) (scaleSample : ℤ → UInt16 → UInt16)
  (audio : ℕ → ℕ → List (List UInt16))

/-- The AUDIO message with these samples. -/
def audioMessage (generation : UInt32) (samples : List UInt16) : Message :=
  ⟨some SamsungMessage.audio.code, generation, sampleBytes samples⟩

def doneMessage (generation : UInt32) : Message := ⟨some SamsungMessage.done.code, generation, []⟩

@[simp] lemma audioMessage_messageType (generation : UInt32) (samples : List UInt16) :
    (audioMessage generation samples).messageType = some SamsungMessage.audio.code := rfl

@[simp] lemma doneMessage_messageType (generation : UInt32) :
    (doneMessage generation).messageType = some SamsungMessage.done.code := rfl

/-- The helper's answer to a request: its AUDIO frames and then DONE. -/
def answers (r : Request) : List Message :=
  (audio r.call r.left).map (audioMessage r.frame.generation) ++ [doneMessage r.frame.generation]

/-- A message of the current generation is the next of the answer to the last request, which is
current then; a message of another generation can be anything but the end of the helper.  The
helper starts when it is asked to, and leaves no current request without a message for half a
minute. -/
def HelperAnswers (s : DriverState) : DriverAction → Prop
  | .arrive mail => mail.message.messageType ≠ none ∧
      (mail.message.generation = s.currentGeneration →
        ∃ r ∈ s.requests.getLast?, r.superseded = false ∧
          (answers audio r)[r.arrived.length]? = some mail.message)
  | .hostStart ok => ok = true
  | .empty _ stalled =>
      stalled = true → ∀ job ∈ s.worker.job?, job.generation ≠ s.currentGeneration
  | _ => True

instance (s : DriverState) : (a : DriverAction) → Decidable (HelperAnswers audio s a)
  | .arrive _ => inferInstanceAs (Decidable (_ ∧ (_ → ∃ r ∈ s.requests.getLast?, _)))
  | .hostStart _ => inferInstanceAs (Decidable (_ = true))
  | .empty _ _ => inferInstanceAs (Decidable (_ → ∀ job ∈ s.worker.job?, _))
  | .speak _ => .isTrue trivial
  | .cancel => .isTrue trivial
  | .main => .isTrue trivial
  | .worker => .isTrue trivial

/-- Every event that is to be queued satisfies `P`, and a `cancel` picks a generation that neither
the worker's job nor a queued message carries. -/
def Orderly (P : SpeechEvent → Prop) (s : DriverState) : DriverAction → Prop
  | .speak speechSequence => ∀ e ∈ speechEvents speechSequence, P e
  | .cancel => (∀ job ∈ s.worker.job?, job.generation ≠ nextGeneration s.generation) ∧
      ∀ mail ∈ s.inbox, mail.message.generation ≠ nextGeneration s.generation
  | _ => True

instance (P : SpeechEvent → Prop) [DecidablePred P] (s : DriverState) :
    (a : DriverAction) → Decidable (Orderly P s a)
  | .speak _ => inferInstanceAs (Decidable (∀ e ∈ speechEvents _, P e))
  | .cancel => inferInstanceAs (Decidable ((∀ job ∈ s.worker.job?, _) ∧ ∀ mail ∈ s.inbox, _))
  | .arrive _ => .isTrue trivial
  | .hostStart _ => .isTrue trivial
  | .empty _ _ => .isTrue trivial
  | .main => .isTrue trivial
  | .worker => .isTrue trivial

/-- The worker's trace is made of the traces of the calls. -/
structure SpeechInOrder (s : DriverState) : Prop where
  concatenation : s.trace.map (·.2) = (List.range s.calls.length).flatMap (part s.trace)
  parts : ∀ i c, s.calls[i]? = some c →
    part s.trace i <+: fullTrace settings scaleSample audio i c.events
  /-- A call that has left the system has its full trace, unless a `cancel` came first. -/
  full : ∀ i c, s.calls[i]? = some c → (∀ job ∈ line s, job.call ≠ i) → c.superseded = false →
    part s.trace i = fullTrace settings scaleSample audio i c.events
  /-- A `cancel` removes only jobs that it or an earlier one supersedes. -/
  removed : ∀ i ∈ s.removed, ∃ c, s.calls[i]? = some c ∧ c.superseded = true
  /-- As long as a call is in the system, the worker, the main thread or the helper can go on. -/
  progress : line s ≠ [] → ∃ a t, (∀ seq, a ≠ .speak seq) ∧ a ≠ .cancel ∧
    HelperAnswers audio s a ∧ driverStep settings scaleSample s a = some t

end Property

end SamsungTVVoices.Driver
