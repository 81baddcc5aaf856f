/-
What a `cancel` puts an end to.

After it has returned, no audio of a superseded generation should be fed, and after its CANCEL has
been written, no SPEAK of the same generation.  The worker checks the generation and then acts on
what it has seen, without a lock in between, so a `cancel` that falls between the two is missed.
Apart from that, the checks do their work (`noStaleAudio_of_run`, `noSpeakAfterCancel_of_run`).
-/
import SamsungTVVoices.Driver.Order
import SamsungTVVoices.Lib.Log

open StepSystem EventLog

namespace SamsungTVVoices.Driver

/-! ### What is noted of a run -/

/-- An event that the two properties are about. -/
inductive DriverNote where
  /-- `cancel` takes the lock: one generation is superseded, and the next is handed out. -/
  | superseded (old new : UInt32)
  /-- `cancel` returns. -/
  | returned
  /-- CANCEL is written. -/
  | cancelled (generation : UInt32)
  /-- SPEAK is written. -/
  | spoken (generation : UInt32)
  /-- `self._player.feed` is called with audio of this generation. -/
  | fed (generation : UInt32)
deriving DecidableEq, Repr

/-- The generation of the CANCEL that the main thread is about to write. -/
def cancelling? : MainPc → Option UInt32
  | .hostCancel active => active
  | _ => none

/-- The audio that the worker is about to feed. -/
def feeding? : WorkerPc → Option Mail
  | .wait _ _ _ (.feed mail) => some mail
  | _ => none

/-- The generation of the SPEAK that the worker is about to send, after its check. -/
def asking? : WorkerPc → Option UInt32
  | .ensure job _ _ | .send job _ _ => some job.generation
  | _ => none

section Note

variable (settings : Settings) (scaleSample : ℤ → UInt16 → UInt16)

/-- What is noted of a step of the worker. -/
def noteWorker (s : DriverState) : Option DriverNote :=
  match s.worker with
  | .send job text _ =>
      if (speakFrame settings job.generation text).isSome ∧ s.running then
        some (.spoken job.generation)
      else none
  | .wait _ _ _ (.feed mail) =>
      (scaleVolume scaleSample mail.message.payload settings.volume).map fun _ =>
        .fed mail.message.generation
  | _ => none

/-- What is noted of a step. -/
def note (s : DriverState) : DriverAction → Option DriverNote
  | .cancel => some (.superseded s.currentGeneration (nextGeneration s.generation))
  | .main =>
      match s.main with
      | .hostCancel active =>
          (hostCancel s.running active).head?.map fun f => .cancelled f.generation
      | .playerStop => some .returned
      | _ => none
  | .worker => noteWorker settings scaleSample s
  | _ => none

/-- A step of the driver, with the note of it. -/
abbrev notedStep : DriverState × List DriverNote → DriverAction →
    Option (DriverState × List DriverNote) :=
  recordStep (driverStep settings scaleSample) (note settings scaleSample)

end Note

/-! ### The two properties -/

/-- The generation is handed out, perhaps again. -/
def HandsOut (g : UInt32) (e : DriverNote) : Prop := ∃ old, e = .superseded old g

/-- A `cancel` has superseded the generation, which has not been handed out again. -/
def Superseded (g : UInt32) (log : List DriverNote) : Prop :=
  Since (fun _ e => ∃ new, e = .superseded g new) (HandsOut g) log

/-- A `cancel` has returned that superseded the generation or came after one that did. -/
def Stale (g : UInt32) (log : List DriverNote) : Prop :=
  Since (fun before e => e = .returned ∧ Superseded g before) (HandsOut g) log

/-- A CANCEL of the generation has been written, which has not been handed out again. -/
def CancelSent (g : UInt32) (log : List DriverNote) : Prop :=
  Since (fun _ e => e = .cancelled g) (HandsOut g) log

/-- No audio of a generation is fed once a `cancel` that supersedes it has returned. -/
def NoStaleAudio (log : List DriverNote) : Prop :=
  Always (fun before e => ∀ g, e = .fed g → ¬ Stale g before) log

/-- No SPEAK is written after a CANCEL of its generation. -/
def NoSpeakAfterCancel (log : List DriverNote) : Prop :=
  Always (fun before e => ∀ g, e = .spoken g → ¬ CancelSent g before) log

variable {settings : Settings} {scaleSample : ℤ → UInt16 → UInt16} {s t : DriverState}
variable {log : List DriverNote} {e : DriverNote} {g : UInt32}

lemma superseded_concat : Superseded g (log ++ [e]) ↔
    (∃ new, e = .superseded g new) ∨ Superseded g log ∧ ¬ HandsOut g e := since_concat

lemma stale_concat : Stale g (log ++ [e]) ↔
    (e = .returned ∧ Superseded g log) ∨ Stale g log ∧ ¬ HandsOut g e := since_concat

lemma cancelSent_concat : CancelSent g (log ++ [e]) ↔
    e = .cancelled g ∨ CancelSent g log ∧ ¬ HandsOut g e := since_concat

lemma Stale.superseded (h : Stale g log) : Superseded g log := by
  obtain ⟨before, x, after, rfl, ⟨rfl, ⟨early, y, late, rfl, hy, hlate⟩⟩, hafter⟩ := h
  refine ⟨early, y, late ++ .returned :: after, by simp, hy, fun z hz => ?_⟩
  rcases List.mem_append.1 hz with hz | hz
  · exact hlate z hz
  · rcases List.mem_cons.1 hz with rfl | hz
    · exact nofun
    · exact hafter z hz

/-! ### What a step notes, and what it leaves to act on -/

/-- What the note of a step says about it. -/
inductive Noted (s : DriverState) : DriverAction → DriverNote → Prop
  | superseded : Noted s .cancel (.superseded s.currentGeneration (nextGeneration s.generation))
  | returned (h : s.main = .playerStop) : Noted s .main .returned
  | cancelled (g : UInt32) (h : g ∈ cancelling? s.main) (hrunning : s.running = true) :
      Noted s .main (.cancelled g)
  | spoken (g : UInt32) (h : g ∈ asking? s.worker) : Noted s .worker (.spoken g)
  | fed (mail : Mail) (h : mail ∈ feeding? s.worker) :
      Noted s .worker (.fed mail.message.generation)

lemma noted_noteWorker (h : noteWorker settings scaleSample s = some e) : Noted s .worker e := by
  unfold noteWorker at h
  split at h
  case h_1 job text rest hs =>
    split at h
    · cases h
      exact .spoken job.generation (by rw [hs]; rfl)
    · cases h
  case h_2 job rest cancelled mail hs =>
    obtain ⟨data, -, rfl⟩ := Option.map_eq_some_iff.1 h
    exact .fed mail (by rw [hs]; rfl)
  case h_3 => cases h

lemma noted_note {a : DriverAction} (h : note settings scaleSample s a = some e) : Noted s a e := by
  cases a with
  | cancel =>
      cases h
      exact .superseded
  | main =>
      cases hmain : s.main with
      | hostCancel active =>
          rw [note, hmain] at h
          obtain ⟨f, hf, rfl⟩ := Option.map_eq_some_iff.1 h
          cases active with
          | none => cases hf
          | some g =>
              rw [hostCancel] at hf
              split at hf
              · next hrunning =>
                  cases hf
                  exact .cancelled g (by rw [hmain]; rfl) hrunning
              · cases hf
      | playerStop =>
          rw [note, hmain] at h
          cases h
          exact .returned hmain
      | _ =>
          rw [note, hmain] at h
          cases h
  | worker => exact noted_noteWorker h
  | _ => cases h

/-- What a step other than the section under the lock in `cancel` leaves to act on: audio comes to
be fed after a check, and a request to be sent after one. -/
structure Checked (s t : DriverState) : Prop where
  generation : t.generation = s.generation
  current : t.currentGeneration = s.currentGeneration
  main : ∀ g ∈ cancelling? t.main, g ∈ cancelling? s.main
  audio : ∀ job rest cancelled mail, t.worker = .wait job rest cancelled (.audio mail) →
    s.worker = t.worker ∨ mail.message.generation = job.generation
  feed : ∀ mail ∈ feeding? t.worker, mail ∈ feeding? s.worker ∨ ∃ job rest cancelled,
    s.worker = .wait job rest cancelled (.audio mail) ∧ job.generation = s.currentGeneration
  ask : ∀ g ∈ asking? t.worker, g ∈ asking? s.worker ∨ g = s.currentGeneration

lemma Checked.of_worker (hgeneration : t.generation = s.generation)
    (hcurrent : t.currentGeneration = s.currentGeneration) (hworker : t.worker = s.worker)
    (hmain : ∀ g ∈ cancelling? t.main, g ∈ cancelling? s.main) : Checked s t where
  generation := hgeneration
  current := hcurrent
  main := hmain
  audio := fun _ _ _ _ _ => Or.inl hworker.symm
  feed := fun _ h => Or.inl (hworker ▸ h)
  ask := fun _ h => Or.inl (hworker ▸ h)

lemma WorkerMove.checked (hmove : WorkerMove settings scaleSample s t) : Checked s t := by
  cases hmove with
  | silent pc h =>
      generalize hs : s.worker = w at h
      refine ⟨rfl, rfl, fun _ => id, ?_, ?_, ?_⟩
      · intro job rest cancelled mail hpc
        cases h <;> cases hpc
      · intro m hm
        rw [hs]
        cases h with
        | play job rest cancelled mail hcurrent =>
            cases hm
            exact Or.inr ⟨job, rest, cancelled, rfl, isCurrent_iff.1 hcurrent⟩
        | _ => cases hm
      · intro g hg
        rw [hs]
        cases h with
        | text job t rest hcurrent =>
            cases hg
            exact Or.inr (isCurrent_iff.1 hcurrent)
        | running job t rest _ => exact Or.inl hg
        | _ => cases hg
  | shown job e pc h =>
      refine ⟨rfl, rfl, fun _ => id, ?_, ?_, ?_⟩
      · intro job' rest cancelled mail hpc
        exact absurd hpc (h.ne_wait)
      · intro m hm
        generalize s.worker = w at h
        cases h <;> cases hm
      · intro g hg
        generalize s.worker = w at h
        cases h <;> cases hg
  | pass job rest cancelled mail inbox pc hs hinbox hpassed =>
      refine ⟨rfl, rfl, fun _ => id, ?_, ?_, nofun⟩
      · intro job' rest' cancelled' mail' hpc
        cases hpassed with
        | audio hgeneration _ =>
            cases hpc
            exact Or.inr hgeneration
        | _ => cases hpc
      · intro m hm
        cases hpassed <;> cases hm
  | ended job rest cancelled mail inbox pc hs hinbox hended =>
      cases hended <;> exact ⟨rfl, rfl, fun _ => id, nofun, nofun, nofun⟩
  | _ => exact ⟨rfl, rfl, fun _ => id, nofun, nofun, nofun⟩

lemma checked_driverStep {a : DriverAction} (ha : a ≠ .cancel)
    (ht : driverStep settings scaleSample s a = some t) : Checked s t := by
  cases a with
  | speak items =>
      obtain ⟨-, rfl | rfl⟩ := exists_speak ht
      · exact .of_worker rfl rfl rfl fun _ => id
      · exact .of_worker rfl rfl rfl nofun
  | cancel => exact absurd rfl ha
  | main =>
      change mainStep s = some t at ht
      unfold mainStep at ht
      split at ht
      case h_1 => cases ht
      case h_4 =>
        split at ht
        · cases ht; exact .of_worker rfl rfl rfl nofun
        · cases ht; exact .of_worker rfl rfl rfl fun _ => id
      all_goals cases ht; exact .of_worker rfl rfl rfl nofun
  | worker => exact (workerMove_workerStep ht).checked
  | hostStart ok =>
      change hostStart s ok = some t at ht
      unfold hostStart at ht
      split at ht
      case h_1 => cases ht; exact ⟨rfl, rfl, fun _ => id, nofun, nofun, nofun⟩
      case h_2 job text rest hs =>
        split at ht
        · cases ht
        · cases ht
          refine ⟨rfl, rfl, fun _ => id, ?_, ?_, ?_⟩
          · cases ok <;> exact nofun
          · cases ok <;> exact nofun
          · intro g hg
            rw [hs]
            cases ok with
            | true => exact Or.inl hg
            | false => cases hg
      case h_3 => cases ht; exact ⟨rfl, rfl, fun _ => id, nofun, nofun, nofun⟩
      case h_4 => cases ht
  | empty cancelledLong stalled =>
      obtain ⟨job, rest, cancelled, pc, hs, -, rfl, hpolled, -⟩ := exists_polled ht
      cases hpolled <;> exact ⟨rfl, rfl, fun _ => id, nofun, nofun, nofun⟩
  | arrive mail =>
      change arrive s mail = some t at ht
      unfold arrive at ht
      split at ht
      · cases ht; exact .of_worker rfl rfl rfl fun _ => id
      · cases ht

/-! ### The generations in the log -/

/-- What the log and the counters say about the current generation. -/
structure GenerationInv (s : DriverState) (log : List DriverNote) : Prop where
  generation : s.currentGeneration = s.generation
  current : ¬ Superseded s.currentGeneration log

/-- The step notes at most this. -/
lemma exists_notedStep {p q : DriverState × List DriverNote} {a : DriverAction}
    (h : notedStep settings scaleSample p a = some q) :
    driverStep settings scaleSample p.1 a = some q.1 ∧
      (q.2 = p.2 ∨ ∃ e, Noted p.1 a e ∧ q.2 = p.2 ++ [e]) := by
  obtain ⟨hstep, hlog⟩ := exists_recordStep h
  refine ⟨hstep, ?_⟩
  cases hnote : note settings scaleSample p.1 a with
  | none => exact Or.inl (by rw [hlog, hnote]; simp)
  | some e => exact Or.inr ⟨e, noted_note hnote, by rw [hlog, hnote]; rfl⟩

lemma Noted.not_handsOut {a : DriverAction} (h : Noted s a e) (ha : a ≠ .cancel) :
    ¬ HandsOut g e ∧ ∀ new, e ≠ .superseded g new := by
  cases h with
  | superseded => exact absurd rfl ha
  | _ => exact ⟨nofun, nofun⟩

/-- A note other than that of the section under the lock supersedes nothing. -/
lemma Noted.superseded_concat {a : DriverAction} (h : Noted s a e) (ha : a ≠ .cancel) :
    Superseded g (log ++ [e]) ↔ Superseded g log := by
  rw [Driver.superseded_concat]
  constructor
  · rintro (⟨new, rfl⟩ | ⟨hlog, -⟩)
    · exact absurd rfl ((h.not_handsOut ha).2 new)
    · exact hlog
  · exact fun hlog => Or.inr ⟨hlog, (h.not_handsOut ha).1⟩

/-- The section under the lock in `cancel`. -/
lemma exists_notedStep_cancel {p q : DriverState × List DriverNote}
    (h : notedStep settings scaleSample p .cancel = some q) :
    q.1.worker = p.1.worker ∧ q.1.main = .hostCancel p.1.activeGeneration ∧
      q.1.generation = nextGeneration p.1.generation ∧
      q.1.currentGeneration = nextGeneration p.1.generation ∧
      q.2 = p.2 ++ [.superseded p.1.currentGeneration (nextGeneration p.1.generation)] := by
  obtain ⟨hstep, hlog⟩ := exists_recordStep h
  obtain ⟨-, hq⟩ := exists_cancel hstep
  rw [hq]
  exact ⟨rfl, rfl, rfl, rfl, hlog⟩

lemma GenerationInv.notedStep {p q : DriverState × List DriverNote} {a : DriverAction}
    (hinv : GenerationInv p.1 p.2) (h : notedStep settings scaleSample p a = some q) :
    GenerationInv q.1 q.2 := by
  by_cases ha : a = .cancel
  · subst ha
    obtain ⟨-, -, hgeneration, hcurrent, hlog⟩ := exists_notedStep_cancel h
    refine ⟨hcurrent.trans hgeneration.symm, fun hsuperseded => ?_⟩
    rw [hcurrent, hlog, Driver.superseded_concat] at hsuperseded
    rcases hsuperseded with ⟨new, heq⟩ | ⟨-, hnot⟩
    · injection heq with hold hnew
      rw [hinv.generation] at hold
      exact nextGeneration_ne _ hold.symm
    · exact hnot ⟨_, rfl⟩
  · obtain ⟨hstep, hlog⟩ := exists_notedStep h
    have hchecked := checked_driverStep ha hstep
    refine ⟨by rw [hchecked.current, hchecked.generation, hinv.generation], ?_⟩
    rw [hchecked.current]
    rcases hlog with hlog | ⟨e, hnoted, hlog⟩
    · rw [hlog]
      exact hinv.current
    · rw [hlog, hnoted.superseded_concat ha]
      exact hinv.current

/-! ### No stale audio -/

/-- When `cancel` returns, the worker is not about to feed audio of an old generation. -/
def FeedsCurrent (p : DriverState × List DriverNote) : DriverAction → Prop
  | .main => p.1.main = .playerStop →
      ∀ mail ∈ feeding? p.1.worker, mail.message.generation = p.1.currentGeneration
  | _ => True

instance (p : DriverState × List DriverNote) : (a : DriverAction) → Decidable (FeedsCurrent p a)
  | .main => inferInstanceAs (Decidable (_ → ∀ mail ∈ feeding? p.1.worker, _))
  | .speak _ => .isTrue trivial
  | .cancel => .isTrue trivial
  | .worker => .isTrue trivial
  | .hostStart _ => .isTrue trivial
  | .empty _ _ => .isTrue trivial
  | .arrive _ => .isTrue trivial

/-- What the worker is about to feed is not stale. -/
structure AudioInv (s : DriverState) (log : List DriverNote) : Prop where
  counters : GenerationInv s log
  audio : ∀ job rest cancelled mail, s.worker = .wait job rest cancelled (.audio mail) →
    mail.message.generation = job.generation
  feed : ∀ mail ∈ feeding? s.worker, ¬ Stale mail.message.generation log
  clean : NoStaleAudio log

lemma audioInv_initialState (generation : UInt32) : AudioInv (initialState generation) [] where
  counters := ⟨rfl, not_since_nil⟩
  audio := nofun
  feed := nofun
  clean := always_nil

/-- What the worker is about to feed was so before, or is of the current generation. -/
lemma AudioInv.feed_or_current (h : AudioInv s log) (hchecked : Checked s t) {mail : Mail}
    (hmail : mail ∈ feeding? t.worker) :
    mail ∈ feeding? s.worker ∨ mail.message.generation = s.currentGeneration := by
  rcases hchecked.feed mail hmail with hmail | ⟨job, rest, cancelled, hs, hcurrent⟩
  · exact Or.inl hmail
  · exact Or.inr ((h.audio job rest cancelled mail hs).trans hcurrent)

lemma AudioInv.notedStep {p q : DriverState × List DriverNote} {a : DriverAction}
    (hinv : AudioInv p.1 p.2) (hfeeds : FeedsCurrent p a)
    (h : notedStep settings scaleSample p a = some q) : AudioInv q.1 q.2 := by
  have hcounters := hinv.counters.notedStep h
  by_cases ha : a = .cancel
  · subst ha
    obtain ⟨hworker, -, -, -, hlog⟩ := exists_notedStep_cancel h
    refine ⟨hcounters, ?_, ?_, ?_⟩
    · rw [hworker]
      exact hinv.audio
    · intro mail hmail hstale
      rw [hworker] at hmail
      rw [hlog, stale_concat] at hstale
      rcases hstale with ⟨heq, -⟩ | ⟨hstale, -⟩
      · cases heq
      · exact hinv.feed mail hmail hstale
    · rw [hlog]
      exact always_concat.2 ⟨hinv.clean, nofun⟩
  obtain ⟨hstep, hlog⟩ := exists_notedStep h
  have hchecked := checked_driverStep ha hstep
  refine ⟨hcounters, ?_, ?_, ?_⟩
  · intro job rest cancelled mail hq
    rcases hchecked.audio job rest cancelled mail hq with hsame | hmail
    · exact hinv.audio job rest cancelled mail (hsame.trans hq)
    · exact hmail
  · intro mail hmail hstale
    -- audio of the current generation is not stale
    have hcurrent : mail.message.generation ≠ p.1.currentGeneration := by
      intro heq
      have hsuperseded := hstale.superseded
      rw [heq, ← hchecked.current] at hsuperseded
      exact hcounters.current hsuperseded
    have hbefore := (hinv.feed_or_current hchecked hmail).resolve_right hcurrent
    rcases hlog with hlog | ⟨e, hnoted, hlog⟩
    · rw [hlog] at hstale
      exact hinv.feed mail hbefore hstale
    · rw [hlog, stale_concat] at hstale
      rcases hstale with ⟨rfl, -⟩ | ⟨hstale, -⟩
      · -- `cancel` returns
        cases hnoted with
        | returned hmain => exact hcurrent (hfeeds hmain mail hbefore)
      · exact hinv.feed mail hbefore hstale
  · rcases hlog with hlog | ⟨e, hnoted, hlog⟩
    · rw [hlog]
      exact hinv.clean
    · rw [hlog]
      refine always_concat.2 ⟨hinv.clean, fun g he => ?_⟩
      cases hnoted with
      | fed mail hmail =>
          injection he with hg
          rw [← hg]
          exact hinv.feed mail hmail
      | _ => cases he

/-- **No stale audio.** In every run in which no `cancel` returns while the worker is about to
feed audio of a superseded generation, nothing is fed of a generation that a `cancel` which has
returned superseded. -/
theorem noStaleAudio_of_run (settings : Settings) (scaleSample : ℤ → UInt16 → UInt16)
    (generation : UInt32) (as : List DriverAction) {q : DriverState × List DriverNote}
    (hrun : run (notedStep settings scaleSample) (initialState generation, []) as = some q)
    (hfeeds : Along (notedStep settings scaleSample) FeedsCurrent
      (initialState generation, []) as) : NoStaleAudio q.2 :=
  (run_invariant_along (I := fun p => AudioInv p.1 p.2)
    (fun _ _ _ hinv hfeeds h => hinv.notedStep hfeeds h) (audioInv_initialState generation) hfeeds
    hrun).clean

/-- A letter is spoken, and an AUDIO message for it comes. -/
def spokenWithAudio : List DriverAction :=
  [DriverAction.hostStart true, .speak [.str [65]], .main] ++
    List.replicate 7 DriverAction.worker ++
    [DriverAction.arrive ⟨audioMessage 1 [0], none⟩, .worker]

/-- A call of `cancel`, with no job in the queue. -/
def wholeCancel : List DriverAction := .cancel :: List.replicate 3 .main

/-- The `cancel` comes before the check. -/
theorem noStaleAudio_cancelBeforeCheck :
    ∃ q, run (notedStep plainSettings fun _ x => x) (initialState 0, [])
        (spokenWithAudio ++ wholeCancel ++ [.worker]) = some q ∧
      q.2 = [.spoken 1, .superseded 1 2, .cancelled 1, .returned] ∧ NoStaleAudio q.2 := by
  have hlog : (run (notedStep plainSettings fun _ x => x) (initialState 0, [])
      (spokenWithAudio ++ wholeCancel ++ [.worker])).map (·.2) =
        some [.spoken 1, .superseded 1 2, .cancelled 1, .returned] := by decide +kernel
  obtain ⟨q, hq, hnotes⟩ := Option.map_eq_some_iff.1 hlog
  exact ⟨q, hq, hnotes, noStaleAudio_of_run plainSettings (fun _ x => x) 0 _ hq (by decide +kernel)⟩

/-- The `cancel` comes between the check and the call of `feed`. -/
theorem not_noStaleAudio_cancelAfterCheck :
    ¬ ∀ (settings : Settings) (scaleSample : ℤ → UInt16 → UInt16) (generation : UInt32)
      (as : List DriverAction) (q : DriverState × List DriverNote),
      run (notedStep settings scaleSample) (initialState generation, []) as = some q →
        NoStaleAudio q.2 := by
  intro h
  have hlog : (run (notedStep plainSettings fun _ x => x) (initialState 0, [])
      (spokenWithAudio ++ [.worker] ++ wholeCancel ++ [.worker])).map (·.2) =
        some [.spoken 1, .superseded 1 2, .cancelled 1, .returned, .fed 1] := by decide +kernel
  obtain ⟨q, hq, hnotes⟩ := Option.map_eq_some_iff.1 hlog
  have hclean := h plainSettings (fun _ x => x) 0 _ q hq
  rw [hnotes] at hclean
  refine hclean [.spoken 1, .superseded 1 2, .cancelled 1, .returned] (.fed 1) [] rfl 1 rfl ?_
  exact ⟨[.spoken 1, .superseded 1 2, .cancelled 1], .returned, [], rfl,
    ⟨rfl, [.spoken 1], .superseded 1 2, [.cancelled 1], rfl, ⟨2, rfl⟩, by simp [HandsOut]⟩, by simp⟩

/-! ### No SPEAK after its CANCEL -/

/-- When CANCEL is written, the worker is not between the check and the SPEAK of its generation;
and the generation that `cancel` hands out is not the one it takes for the active one. -/
def CancelsUnasked (p : DriverState × List DriverNote) : DriverAction → Prop
  | .cancel => p.1.activeGeneration ≠ some (nextGeneration p.1.generation)
  | .main => p.1.running = true → ∀ g ∈ cancelling? p.1.main, g ∉ asking? p.1.worker
  | _ => True

instance (p : DriverState × List DriverNote) : (a : DriverAction) → Decidable (CancelsUnasked p a)
  | .cancel => inferInstanceAs (Decidable (_ ≠ _))
  | .main =>
      -- not by trying every generation
      have : Decidable (∀ g ∈ cancelling? p.1.main, g ∉ asking? p.1.worker) :=
        Option.decidableForallMem _
      inferInstanceAs (Decidable (_ → _))
  | .speak _ => .isTrue trivial
  | .worker => .isTrue trivial
  | .hostStart _ => .isTrue trivial
  | .empty _ _ => .isTrue trivial
  | .arrive _ => .isTrue trivial

/-- No CANCEL has been written of what the worker is about to send. -/
structure AskInv (s : DriverState) (log : List DriverNote) : Prop where
  main : ∀ g ∈ cancelling? s.main, g ≠ s.currentGeneration
  current : ¬ CancelSent s.currentGeneration log
  ask : ∀ g ∈ asking? s.worker, ¬ CancelSent g log
  clean : NoSpeakAfterCancel log

lemma askInv_initialState (generation : UInt32) : AskInv (initialState generation) [] where
  main := nofun
  current := not_since_nil
  ask := nofun
  clean := always_nil

lemma AskInv.notedStep {p q : DriverState × List DriverNote} {a : DriverAction}
    (hinv : AskInv p.1 p.2) (hunasked : CancelsUnasked p a)
    (h : notedStep settings scaleSample p a = some q) : AskInv q.1 q.2 := by
  by_cases ha : a = .cancel
  · subst ha
    obtain ⟨hworker, hmain, -, hcurrent, hlog⟩ := exists_notedStep_cancel h
    have hsent {g : UInt32} (hg : CancelSent g q.2) :
        CancelSent g p.2 ∧ g ≠ nextGeneration p.1.generation := by
      rw [hlog, cancelSent_concat] at hg
      rcases hg with heq | ⟨hg, hnot⟩
      · cases heq
      · refine ⟨hg, fun heq => hnot ⟨_, by rw [heq]⟩⟩
    refine ⟨?_, ?_, ?_, ?_⟩
    · intro g hg heq
      rw [hmain] at hg
      rw [hcurrent] at heq
      exact hunasked (heq ▸ hg)
    · exact fun hg => (hsent hg).2 hcurrent
    · intro g hg hsentg
      rw [hworker] at hg
      exact hinv.ask g hg (hsent hsentg).1
    · rw [hlog]
      exact always_concat.2 ⟨hinv.clean, nofun⟩
  obtain ⟨hstep, hlog⟩ := exists_notedStep h
  have hchecked := checked_driverStep ha hstep
  -- a CANCEL is written of a generation that is neither current nor asked for
  have hsent {g : UInt32} (hg : CancelSent g q.2) (hnot : ¬ CancelSent g p.2) :
      g ≠ p.1.currentGeneration ∧ g ∉ asking? p.1.worker := by
    rcases hlog with hlog | ⟨e, hnoted, hlog⟩
    · exact absurd (hlog ▸ hg) hnot
    · rw [hlog, cancelSent_concat] at hg
      rcases hg with rfl | ⟨hg, -⟩
      · cases hnoted with
        | cancelled g hmain hrunning => exact ⟨hinv.main g hmain, hunasked hrunning g hmain⟩
      · exact absurd hg hnot
  have hcurrent : ¬ CancelSent p.1.currentGeneration q.2 :=
    fun hg => (hsent hg hinv.current).1 rfl
  refine ⟨?_, ?_, ?_, ?_⟩
  · intro g hg
    rw [hchecked.current]
    exact hinv.main g (hchecked.main g hg)
  · rwa [hchecked.current]
  · intro g hg hsentg
    rcases hchecked.ask g hg with hg | rfl
    · exact (hsent hsentg (hinv.ask g hg)).2 hg
    · exact hcurrent hsentg
  · rcases hlog with hlog | ⟨e, hnoted, hlog⟩
    · rw [hlog]
      exact hinv.clean
    · rw [hlog]
      refine always_concat.2 ⟨hinv.clean, fun g he => ?_⟩
      cases hnoted with
      | spoken g' hasked =>
          cases he
          exact hinv.ask g hasked
      | _ => cases he

/-- **No SPEAK after its CANCEL.** In every run in which no CANCEL is written while the worker is
between the check and the SPEAK of its generation, no SPEAK follows a CANCEL of its generation. -/
theorem noSpeakAfterCancel_of_run (settings : Settings) (scaleSample : ℤ → UInt16 → UInt16)
    (generation : UInt32) (as : List DriverAction) {q : DriverState × List DriverNote}
    (hrun : run (notedStep settings scaleSample) (initialState generation, []) as = some q)
    (hunasked : Along (notedStep settings scaleSample) CancelsUnasked (initialState generation, [])
      as) : NoSpeakAfterCancel q.2 :=
  (run_invariant_along (I := fun p => AskInv p.1 p.2)
    (fun _ _ _ hinv hunasked h => hinv.notedStep hunasked h) (askInv_initialState generation)
    hunasked hrun).clean

/-- A letter is spoken, and the worker has passed the check at the head of its loop. -/
def spokenToAsk : List DriverAction :=
  [DriverAction.hostStart true, .speak [.str [65]], .main] ++ List.replicate 4 DriverAction.worker

/-- The `cancel` comes after the SPEAK. -/
theorem noSpeakAfterCancel_cancelAfterSend :
    ∃ q, run (notedStep plainSettings fun _ x => x) (initialState 0, [])
        (spokenToAsk ++ [.worker, .worker] ++ wholeCancel) = some q ∧
      q.2 = [.spoken 1, .superseded 1 2, .cancelled 1, .returned] ∧ NoSpeakAfterCancel q.2 := by
  have hlog : (run (notedStep plainSettings fun _ x => x) (initialState 0, [])
      (spokenToAsk ++ [.worker, .worker] ++ wholeCancel)).map (·.2) =
        some [.spoken 1, .superseded 1 2, .cancelled 1, .returned] := by decide +kernel
  obtain ⟨q, hq, hnotes⟩ := Option.map_eq_some_iff.1 hlog
  exact ⟨q, hq, hnotes,
    noSpeakAfterCancel_of_run plainSettings (fun _ x => x) 0 _ hq (by decide +kernel)⟩

/-- The `cancel` comes between the check and the SPEAK. -/
theorem not_noSpeakAfterCancel_cancelAfterCheck :
    ¬ ∀ (settings : Settings) (scaleSample : ℤ → UInt16 → UInt16) (generation : UInt32)
      (as : List DriverAction) (q : DriverState × List DriverNote),
      run (notedStep settings scaleSample) (initialState generation, []) as = some q →
        NoSpeakAfterCancel q.2 := by
  intro h
  have hlog : (run (notedStep plainSettings fun _ x => x) (initialState 0, [])
      (spokenToAsk ++ wholeCancel ++ [.worker, .worker])).map (·.2) =
        some [.superseded 1 2, .cancelled 1, .returned, .spoken 1] := by decide +kernel
  obtain ⟨q, hq, hnotes⟩ := Option.map_eq_some_iff.1 hlog
  have hclean := h plainSettings (fun _ x => x) 0 _ q hq
  rw [hnotes] at hclean
  refine hclean [.superseded 1 2, .cancelled 1, .returned] (.spoken 1) [] rfl 1 rfl ?_
  exact ⟨[.superseded 1 2], .cancelled 1, [.returned], rfl, rfl, by simp [HandsOut]⟩

end SamsungTVVoices.Driver
