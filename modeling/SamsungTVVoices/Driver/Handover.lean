/-
Whether successive drivers leave each other's messages and helper alone (`terminate`,
`_restartHost`, `_synthesizeText`, `getMessage`).

`terminate` gives up its worker after three seconds, and nothing in the host tells one driver from
another.  `stepsRight_of_run` says what has to hold for all to be well: that a SPEAK is written only
when no other worker uses the host and no message for another driver is waiting, and that no late
message for another driver comes.
-/
import SamsungTVVoices.Driver.Session

open StepSystem
open SamsungTVVoices.Host (Message)

namespace SamsungTVVoices.Session

/-! ### The property -/

/-- The worker uses the host: it is in `_synthesizeText` or in `start`. -/
def WorkerPc.engaged : WorkerPc → Bool
  | starting _ | synthesize _ | ensure _ _ | send _ | wait _ _ | poll _ _ _ | stop
  | restart _ => true
  | loop | get | check _ | enter _ | head _ | ended => false

/-- The worker waits for the answer to a SPEAK. -/
def WorkerPc.outstanding : WorkerPc → Bool
  | wait _ _ | poll _ _ _ => true
  | _ => false

/-- The call of `start` that the worker is in. -/
def WorkerPc.start? : WorkerPc → Option StartPc
  | starting pc | ensure _ pc | restart pc => some pc
  | _ => none

/-- The queue from which the worker takes a message. -/
def WorkerPc.reads : WorkerPc → Option ℕ
  | poll _ _ q => some q
  | starting (.ready _ p) | ensure _ (.ready _ p) | restart (.ready _ p) => some p
  | _ => none

/-- The step of the worker stops the helper, or starts another one. -/
def stopsHost (host : SessionHost) (pc : WorkerPc) (a : SessionAction) : Bool :=
  match pc, pc.start?, a with
  | .stop, _, .worker _ => true
  | _, some (.lock _), .popen _ _ => !host.isRunning
  | _, some (.connect _ _), .connect _ ok => !ok
  | _, some (.ready _ p), .take _ _ =>
      (host.queue p).head?.map Message.messageType != some (some SamsungMessage.ready.code)
  | _, some (.ready _ _), .empty _ _ _ => true
  | _, _, _ => false

/-- The driver whose worker takes the step. -/
def SessionAction.actor : SessionAction → Option ℕ
  | worker i | popen i _ | connect i _ | take i _ | empty i _ _ | send i _ => some i
  | create | speak _ | cancel | terminate | main | giveUp | read _ _ | put _ | die _ => none

/-- The driver whose worker takes a message. -/
def SessionAction.taker : SessionAction → Option ℕ
  | take i _ => some i
  | _ => none

/-- The driver whose worker writes a SPEAK. -/
def SessionAction.writer : SessionAction → Option ℕ
  | send i true => some i
  | _ => none

/-- The helper whose reader queues a message. -/
def SessionAction.queuer : SessionAction → Option ℕ
  | put p => some p
  | _ => none

/-- A message is for the driver that sent the last SPEAK of its generation to the helper, and for
nobody if there was none. -/
def SessionHost.For (host : SessionHost) (q : ℕ) (i : ℕ) (message : Message) : Prop :=
  ∀ j ∈ host.sender q message.generation, j = i

/-- A message is taken by the driver that it is for, and no other worker than that of the last
driver stops the helper while that one waits for an answer. -/
structure StepRight (s : SessionState) (a : SessionAction) : Prop where
  take : ∀ i ∈ a.taker, ∀ d ∈ s.drivers[i]?, ∀ q ∈ d.worker.reads,
    ∀ message ∈ (s.host.queue q).head?, s.host.For q i message
  stop : ∀ i ∈ a.actor, ∀ d ∈ s.drivers[i]?, stopsHost s.host d.worker a = true → i ≠ s.last →
    ∀ l ∈ s.drivers[s.last]?, l.worker.outstanding = false

/-- A SPEAK is written only when no other worker uses the host and no message for another driver is
in the queue; and no message for another driver comes to a queue while a worker waits there. -/
structure HandsOver (s : SessionState) (a : SessionAction) : Prop where
  alone : ∀ i ∈ a.writer, ∀ j, ∀ e ∈ s.drivers[j]?, e.worker.engaged = true → j = i
  clear : ∀ i ∈ a.writer, ∀ p ∈ s.host.process, ∀ message ∈ s.host.queue p, s.host.For p i message
  late : ∀ p ∈ a.queuer, ∀ helper ∈ s.host.helpers[p]?, ∀ message ∈ helper.hand,
    ∀ i, ∀ d ∈ s.drivers[i]?, d.worker.outstanding = true →
      (p = s.host.messages ∨ d.worker.reads = some p) → s.host.For p i message

instance (host : SessionHost) (q i : ℕ) (message : Message) : Decidable (host.For q i message) :=
  inferInstanceAs (Decidable (∀ j ∈ host.sender q message.generation, j = i))

/-- Only the drivers of the session need to be looked at. -/
instance (s : SessionState) (P : ℕ → SynthDriver → Prop) [∀ i d, Decidable (P i d)] :
    Decidable (∀ i, ∀ d ∈ s.drivers[i]?, P i d) :=
  decidable_of_iff (∀ i < s.drivers.length, ∀ d ∈ s.drivers[i]?, P i d)
    ⟨fun h i d hd => h i (List.getElem?_eq_some_iff.1 hd).1 d hd, fun h i _ => h i⟩

instance (s : SessionState) (a : SessionAction) : Decidable (StepRight s a) :=
  decidable_of_iff
    ((∀ i ∈ a.taker, ∀ d ∈ s.drivers[i]?, ∀ q ∈ d.worker.reads,
        ∀ message ∈ (s.host.queue q).head?, s.host.For q i message) ∧
      ∀ i ∈ a.actor, ∀ d ∈ s.drivers[i]?, stopsHost s.host d.worker a = true → i ≠ s.last →
        ∀ l ∈ s.drivers[s.last]?, l.worker.outstanding = false)
    ⟨fun h => ⟨h.1, h.2⟩, fun h => ⟨h.take, h.stop⟩⟩

instance (s : SessionState) (a : SessionAction) : Decidable (HandsOver s a) :=
  decidable_of_iff
    ((∀ i ∈ a.writer, ∀ j, ∀ e ∈ s.drivers[j]?, e.worker.engaged = true → j = i) ∧
      (∀ i ∈ a.writer, ∀ p ∈ s.host.process, ∀ message ∈ s.host.queue p,
        s.host.For p i message) ∧
      ∀ p ∈ a.queuer, ∀ helper ∈ s.host.helpers[p]?, ∀ message ∈ helper.hand,
        ∀ i, ∀ d ∈ s.drivers[i]?, d.worker.outstanding = true →
          (p = s.host.messages ∨ d.worker.reads = some p) → s.host.For p i message)
    ⟨fun h => ⟨h.1, h.2.1, h.2.2⟩, fun h => ⟨h.alone, h.clear, h.late⟩⟩

/-! ### What a step does to the host -/

variable {s t : SessionState} {host host' : SessionHost} {a : SessionAction} {i p : ℕ}
  {d d' : SynthDriver}

/-- The host after a step that sends and queues nothing. -/
structure Quiet (host host' : SessionHost) : Prop where
  queue : ∀ q, ∀ message ∈ host'.queue q, message ∈ host.queue q
  sender : ∀ q g, host'.sender q g = host.sender q g
  messages : host'.messages = host.messages ∨ host'.queue host'.messages = []
  process : (∀ p ∈ host.process, p = host.messages) → ∀ p ∈ host'.process, p = host'.messages

lemma Quiet.refl (host : SessionHost) : Quiet host host where
  queue := fun _ _ h => h
  sender := fun _ _ => rfl
  messages := Or.inl rfl
  process := id

lemma quiet_lock (host : SessionHost) (lock : Option ℕ) :
    Quiet host { host with lock := lock } where
  queue := fun _ _ h => h
  sender := fun _ _ => rfl
  messages := Or.inl rfl
  process := id

lemma quiet_stopped (host : SessionHost) : Quiet host { host with process := none } where
  queue := fun _ _ h => h
  sender := fun _ _ => rfl
  messages := Or.inl rfl
  process := nofun

lemma Quiet.trans {host₁ host₂ host₃ : SessionHost} (h : Quiet host₁ host₂)
    (h' : Quiet host₂ host₃) : Quiet host₁ host₃ where
  queue := fun q message hmem => h.queue q message (h'.queue q message hmem)
  sender := fun q g => (h'.sender q g).trans (h.sender q g)
  messages := by
    rcases h'.messages with heq | hnil
    · rcases h.messages with heq' | hnil
      · exact Or.inl (heq.trans heq')
      · refine Or.inr (List.eq_nil_iff_forall_not_mem.2 fun message hmem => ?_)
        have hmem' := h'.queue _ message hmem
        rw [heq, hnil] at hmem'
        exact List.not_mem_nil hmem'
    · exact Or.inr hnil
  process := fun hp => h'.process (h.process hp)

lemma getElem?_modify (host : SessionHost) (p q : ℕ) (f : Helper → Helper) :
    (host.modify p f).helpers[q]? = host.helpers[q]?.map fun h => if p = q then f h else h := by
  rw [SessionHost.modify, List.getElem?_modify]
  rfl

lemma quiet_modify (host : SessionHost) (p : ℕ) {f : Helper → Helper}
    (hqueue : ∀ h, ∀ message ∈ (f h).queue, message ∈ h.queue)
    (hsender : ∀ h, (f h).sender = h.sender) : Quiet host (host.modify p f) where
  queue := by
    intro q message hmem
    rw [SessionHost.queue, getElem?_modify] at hmem
    rw [SessionHost.queue]
    cases hq : host.helpers[q]? with
    | none => simp [hq] at hmem
    | some h =>
        simp only [hq, Option.map_some, Option.getD_some] at hmem ⊢
        split at hmem
        · exact hqueue h message hmem
        · exact hmem
  sender := by
    intro q g
    rw [SessionHost.sender, SessionHost.sender, getElem?_modify]
    cases host.helpers[q]? with
    | none => rfl
    | some h =>
        simp only [Option.map_some, Option.bind_some]
        split
        · rw [hsender]
        · rfl
  messages := by
    left
    rw [SessionHost.messages, SessionHost.messages, SessionHost.modify, List.length_modify]
  process := by
    intro h q hq
    rw [SessionHost.messages, SessionHost.modify, List.length_modify]
    exact h q hq

lemma quiet_take (host : SessionHost) (q : ℕ) : Quiet host (host.take q) :=
  quiet_modify host q (fun _ _ => List.mem_of_mem_tail) fun _ => rfl

lemma quiet_stopUnlocked (host : SessionHost) : Quiet host host.stopUnlocked := by
  unfold SessionHost.stopUnlocked
  split
  · exact quiet_lock host none
  · next p _ =>
      have hdead : Quiet host (host.modify p fun h => { h with alive := false }) :=
        quiet_modify host p (fun _ _ h => h) fun _ => rfl
      exact (hdead.trans (quiet_stopped _)).trans (quiet_lock _ none)

lemma stopUnlocked_length (host : SessionHost) :
    host.stopUnlocked.helpers.length = host.helpers.length := by
  unfold SessionHost.stopUnlocked
  split
  · rfl
  · exact List.length_modify ..

/-- A queue that has just been made is empty, and is the last one. -/
lemma quiet_grow (host : SessionHost) (ok : Bool) :
    Quiet host { host with
      helpers := host.helpers ++ [.new ok]
      process := if ok then some host.helpers.length else none } where
  queue := by
    intro q message hmem
    rw [SessionHost.queue] at hmem ⊢
    rcases lt_or_ge q host.helpers.length with hlt | hge
    · rwa [List.getElem?_append_left hlt] at hmem
    · rw [List.getElem?_append_right hge] at hmem
      cases hq : q - host.helpers.length <;> simp [hq, Helper.new] at hmem
  sender := by
    intro q g
    simp only [SessionHost.sender]
    rcases lt_or_ge q host.helpers.length with hlt | hge
    · rw [List.getElem?_append_left hlt]
    · rw [List.getElem?_append_right hge, List.getElem?_eq_none hge]
      cases hq : q - host.helpers.length <;> simp [Helper.new]
  messages := by
    right
    simp [SessionHost.queue, SessionHost.messages, Helper.new]
  process := by
    intro _ q hq
    have hok : ok = true ∧ host.helpers.length = q := by simpa using hq
    simp [SessionHost.messages, hok.2]

lemma quiet_popen (host : SessionHost) (i : ℕ) (ok : Bool) : Quiet host (host.popen i ok) :=
  ((quiet_stopUnlocked host).trans (quiet_grow _ ok)).trans
    (by
      rw [SessionHost.popen, stopUnlocked_length]
      exact quiet_lock _ _)

lemma sender_of_length_le {q : ℕ} (h : host.helpers.length ≤ q) (g : UInt32) :
    host.sender q g = none := by
  rw [SessionHost.sender, List.getElem?_eq_none h, Option.bind_none]

/-! ### What a step does to the worker -/

/-- The helper that a call of `start` has made. -/
def StartPc.helper : StartPc → Option ℕ
  | connect _ p | ready _ p => some p
  | test | lock _ => none

/-- The helper that is being started. -/
def WorkerPc.helper (pc : WorkerPc) : Option ℕ := pc.start?.bind StartPc.helper

/-- A helper that is being started by a step was being started before, or has been sent nothing. -/
def Fresh (host' : SessionHost) (old new : Option ℕ) : Prop :=
  ∀ p ∈ new, p ∈ old ∨ ∀ g, host'.sender p g = none

lemma startStep_spec {pc : StartPc} {outcome : Outcome}
    (h : startStep host i pc a = some (host', outcome)) :
    Quiet host host' ∧ ∀ pc', outcome = .goOn pc' → Fresh host' pc.helper pc'.helper := by
  have hfailed : ∀ (again : Bool) (host' : SessionHost) (old : Option ℕ) (pc' : StartPc),
      Outcome.failed again = .goOn pc' → Fresh host' old pc'.helper := by
    intro again host' old pc' heq
    cases again
    · cases heq
    · obtain rfl : StartPc.lock false = pc' := by simpa [Outcome.failed] using heq
      nofun
  unfold startStep at h
  split at h
  case h_1 =>
    simp only [Option.some.injEq, Prod.mk.injEq] at h
    obtain ⟨rfl, rfl⟩ := h
    refine ⟨.refl _, fun pc' heq => ?_⟩
    split at heq
    · cases heq
    · cases heq
      nofun
  case h_2 again _ ok =>
    split at h
    · cases h
    · split at h
      · simp only [Option.some.injEq, Prod.mk.injEq] at h
        obtain ⟨rfl, rfl⟩ := h
        exact ⟨.refl _, nofun⟩
      · simp only [Option.some.injEq, Prod.mk.injEq] at h
        obtain ⟨rfl, rfl⟩ := h
        refine ⟨quiet_popen host i ok, fun pc' heq => ?_⟩
        split at heq
        · cases heq
          rintro p hp
          obtain rfl : host.helpers.length = p := by simpa [StartPc.helper] using hp
          right
          intro g
          rw [(quiet_popen host i ok).sender]
          exact sender_of_length_le le_rfl g
        · exact hfailed again _ _ pc' heq
  case h_3 again p _ ok =>
    split at h
    · simp only [Option.some.injEq, Prod.mk.injEq] at h
      obtain ⟨rfl, rfl⟩ := h
      refine ⟨quiet_modify host p (fun _ _ h => h) fun _ => rfl, fun pc' heq => ?_⟩
      cases heq
      exact fun q hq => Or.inl hq
    · simp only [Option.some.injEq, Prod.mk.injEq] at h
      obtain ⟨rfl, rfl⟩ := h
      exact ⟨quiet_stopUnlocked host, hfailed again _ _⟩
  case h_4 again p _ _ =>
    split at h
    · cases h
    · split at h
      · simp only [Option.some.injEq, Prod.mk.injEq] at h
        obtain ⟨rfl, rfl⟩ := h
        exact ⟨(quiet_take host p).trans (quiet_lock _ none), nofun⟩
      · simp only [Option.some.injEq, Prod.mk.injEq] at h
        obtain ⟨rfl, rfl⟩ := h
        exact ⟨(quiet_take host p).trans (quiet_stopUnlocked _), hfailed again _ _⟩
  case h_5 again p _ _ _ =>
    split at h
    · simp only [Option.some.injEq, Prod.mk.injEq] at h
      obtain ⟨rfl, rfl⟩ := h
      exact ⟨quiet_stopUnlocked host, hfailed again _ _⟩
    · cases h
  case h_6 => cases h

/-- The main thread has begun to terminate the driver. -/
def MainPc.terminating : MainPc → Bool
  | cancel | drain true | putNone | join | terminated => true
  | ready | put _ | drain false => false

/-- What a driver does when it does not write a SPEAK. -/
structure Keeps (host host' : SessionHost) (d d' : SynthDriver) : Prop where
  host : Quiet host host'
  stopping : d.stopping = true → d'.stopping = true
  terminating : (d.main.terminating = true → d.stopping = true) →
    d'.main.terminating = true → d'.stopping = true
  engaged : d'.worker.engaged = true → d.worker.engaged = true ∨ d.stopping = false
  outstanding : d'.worker.outstanding = true → d.worker.outstanding = true
  reads : d'.worker.outstanding = true →
    ∀ q ∈ d'.worker.reads, q ∈ d.worker.reads ∨ q = host'.messages
  helper : Fresh host' d.worker.helper d'.worker.helper

lemma engaged_of_outstanding {pc : WorkerPc} (h : pc.outstanding = true) : pc.engaged = true := by
  cases pc <;> first | rfl | cases h

lemma engaged_of_helper {pc : WorkerPc} (h : p ∈ pc.helper) : pc.engaged = true := by
  cases pc <;> first | rfl | cases h

lemma isCurrent_stopping {g : UInt32} (h : d.isCurrent g = true) : d.stopping = false := by
  simp only [SynthDriver.isCurrent, Bool.and_eq_true, Bool.not_eq_true'] at h
  exact h.1

/-- A worker that does not wait for an answer after the step. -/
lemma keeps_of_quiet (hquiet : Quiet host host') {pc : WorkerPc}
    (hengaged : pc.engaged = true → d.worker.engaged = true ∨ d.stopping = false)
    (houtstanding : pc.outstanding = false) (hhelper : Fresh host' d.worker.helper pc.helper) :
    Keeps host host' d (d.goTo pc) where
  host := hquiet
  stopping := id
  terminating := id
  engaged := hengaged
  outstanding := fun h => absurd h (by simp [SynthDriver.goTo, houtstanding])
  reads := fun h => absurd h (by simp [SynthDriver.goTo, houtstanding])
  helper := hhelper

/-- A worker that only goes on, to a place that does not depend on a helper. -/
lemma keeps_of_goTo {pc : WorkerPc} (h : some (host, d.goTo pc) = some (host', d'))
    (hengaged : pc.engaged = true → d.worker.engaged = true ∨ d.stopping = false)
    (houtstanding : pc.outstanding = false) (hhelper : pc.helper = none) :
    Keeps host host' d d' := by
  simp only [Option.some.injEq, Prod.mk.injEq] at h
  obtain ⟨rfl, rfl⟩ := h
  refine keeps_of_quiet (.refl _) hengaged houtstanding ?_
  rw [hhelper]
  nofun

lemma keeps_start {pc : StartPc} {goOn : StartPc → WorkerPc} {returned : WorkerPc}
    (h : (startStep host i pc a).map (fun r => (r.1, d.goTo (resume r.2 goOn returned))) =
      some (host', d'))
    (hengaged : d.worker.engaged = true) (hhelper : d.worker.helper = pc.helper)
    (hgoOn : ∀ pc', (goOn pc').outstanding = false ∧ (goOn pc').helper = pc'.helper)
    (hreturned : returned.outstanding = false ∧ returned.helper = none) :
    Keeps host host' d d' := by
  obtain ⟨⟨host'', outcome⟩, hstart, heq⟩ := Option.map_eq_some_iff.1 h
  simp only [Prod.mk.injEq] at heq
  obtain ⟨rfl, rfl⟩ := heq
  obtain ⟨hquiet, hfresh⟩ := startStep_spec hstart
  cases outcome with
  | goOn pc' =>
      refine keeps_of_quiet hquiet (fun _ => Or.inl hengaged) (hgoOn pc').1 ?_
      rw [hhelper]
      change Fresh host'' pc.helper (goOn pc').helper
      rw [(hgoOn pc').2]
      exact hfresh pc' rfl
  | returned =>
      refine keeps_of_quiet hquiet (fun _ => Or.inl hengaged) hreturned.1 ?_
      change Fresh host'' _ returned.helper
      rw [hreturned.2]
      nofun
  | raised => exact keeps_of_quiet hquiet (fun _ => Or.inl hengaged) rfl nofun

lemma keeps_dispatch {job : Job} {cancelled raises current : Bool} {message : Message}
    (hquiet : Quiet host host') (houtstanding : d.worker.outstanding = true) :
    Keeps host host' d (d.goTo (dispatch job cancelled raises current message)) := by
  have hengaged := engaged_of_outstanding houtstanding
  have hwait : Keeps host host' d (d.goTo (.wait job cancelled)) :=
    ⟨hquiet, id, id, fun _ => Or.inl hengaged, fun _ => houtstanding, nofun, nofun⟩
  unfold dispatch
  split
  · exact keeps_of_quiet hquiet (fun _ => Or.inl hengaged) rfl nofun
  · split_ifs
    any_goals exact hwait
    all_goals exact keeps_of_quiet hquiet (fun _ => Or.inl hengaged) rfl nofun

/-- **What a worker does.**  It writes a SPEAK and waits, or sends nothing and comes to wait for
nothing new. -/
theorem workerStep_cases (h : workerStep host i d a = some (host', d'))
    (hactor : a.actor = some i) :
    (∃ job p, a = .send i true ∧ d.worker = .send job ∧ host.process = some p ∧
      host' = host.speak p i job.generation ∧ d' = d.goTo (.wait job false)) ∨
    Keeps host host' d d' := by
  unfold workerStep at h
  split at h
  case h_1 pc hpc =>
    exact Or.inr (keeps_start h (by rw [hpc]; rfl) (by rw [hpc]; rfl) (fun _ => ⟨rfl, rfl⟩)
      ⟨rfl, rfl⟩)
  case h_2 job pc hpc =>
    exact Or.inr (keeps_start h (by rw [hpc]; rfl) (by rw [hpc]; rfl) (fun _ => ⟨rfl, rfl⟩)
      ⟨rfl, rfl⟩)
  case h_3 pc hpc =>
    exact Or.inr (keeps_start h (by rw [hpc]; rfl) (by rw [hpc]; rfl) (fun _ => ⟨rfl, rfl⟩)
      ⟨rfl, rfl⟩)
  case h_4 hpc =>
    right
    split at h
    · exact keeps_of_goTo h (by split <;> nofun) (by split <;> rfl) (by split <;> rfl)
    · cases h
  case h_5 hpc =>
    right
    split at h
    · simp only [Option.some.injEq, Prod.mk.injEq] at h
      obtain ⟨rfl, rfl⟩ := h
      exact ⟨.refl _, id, id, nofun, nofun, nofun, nofun⟩
    · simp only [Option.some.injEq, Prod.mk.injEq] at h
      obtain ⟨rfl, rfl⟩ := h
      exact ⟨.refl _, id, id, nofun, nofun, nofun, nofun⟩
    · cases h
  case h_6 job hpc =>
    right
    split at h
    · exact keeps_of_goTo h (by split <;> nofun) (by split <;> rfl) (by split <;> rfl)
    · cases h
  case h_7 job hpc =>
    right
    split at h
    · exact keeps_of_goTo h (by split <;> nofun) (by split <;> rfl) (by split <;> rfl)
    · cases h
  case h_8 job hpc =>
    right
    split at h
    · refine keeps_of_goTo h ?_ (by split <;> rfl) (by split <;> rfl)
      split
      · next hcurrent =>
          -- only the worker of a driver that has not been terminated comes to use the host
          exact fun _ => Or.inr (isCurrent_stopping hcurrent.1)
      · nofun
    · cases h
  case h_9 job hpc =>
    right
    have hengaged : d.worker.engaged = true := by rw [hpc]; rfl
    split at h
    · exact keeps_of_goTo h (fun _ => Or.inl hengaged) (by split <;> rfl) (by split <;> rfl)
    · cases h
  case h_10 job hpc =>
    split at h
    · next j ok =>
        obtain rfl : j = i := by simpa [SessionAction.actor] using hactor
        split at h
        · next p hprocess =>
            split at h
            · next hok =>
                simp only [Option.some.injEq, Prod.mk.injEq] at h
                exact Or.inl ⟨job, p, by rw [hok.1], hpc, hprocess, h.1.symm, h.2.symm⟩
            · exact Or.inr (keeps_of_goTo h nofun rfl rfl)
        · exact Or.inr (keeps_of_goTo h nofun rfl rfl)
    · cases h
  case h_11 job cancelled hpc =>
    right
    split at h
    · simp only [Option.some.injEq, Prod.mk.injEq] at h
      obtain ⟨rfl, rfl⟩ := h
      refine ⟨.refl _, id, id, ?_, ?_, ?_, nofun⟩
      · exact fun _ => Or.inl (by rw [hpc]; rfl)
      · exact fun _ => by rw [hpc]; rfl
      · rintro - q hq
        exact Or.inr (Option.some.inj hq).symm
    · cases h
  case h_12 job cancelled q hpc =>
    right
    have hengaged : d.worker.engaged = true := by rw [hpc]; rfl
    have houtstanding : d.worker.outstanding = true := by rw [hpc]; rfl
    split at h
    · split at h
      · cases h
      · simp only [Option.some.injEq, Prod.mk.injEq] at h
        obtain ⟨rfl, rfl⟩ := h
        exact keeps_dispatch (quiet_take host q) houtstanding
    · split at h
      · simp only [Option.some.injEq, Prod.mk.injEq] at h
        obtain ⟨rfl, rfl⟩ := h
        split
        · exact keeps_of_quiet (.refl _) (fun _ => Or.inl hengaged) rfl nofun
        · exact ⟨.refl _, id, id, fun _ => Or.inl hengaged, fun _ => houtstanding, nofun, nofun⟩
      · cases h
    · cases h
  case h_13 hpc =>
    right
    split at h
    · split at h
      · cases h
      · simp only [Option.some.injEq, Prod.mk.injEq] at h
        obtain ⟨rfl, rfl⟩ := h
        exact keeps_of_quiet (quiet_stopUnlocked host) (fun _ => Or.inl (by rw [hpc]; rfl)) rfl
          nofun
    · cases h
  case h_14 => cases h

lemma quiet_generation (host : SessionHost) (generation : UInt32) :
    Quiet host { host with generation := generation } where
  queue := fun _ _ h => h
  sender := fun _ _ => rfl
  messages := Or.inl rfl
  process := id

/-- The main thread leaves the worker where it is. -/
lemma keeps_main (h : mainStep host d a = some (host', d')) : Keeps host host' d d' := by
  have hcalls : ∀ {host' : SessionHost} {d' : SynthDriver}, Quiet host host' →
      (d.stopping = true → d'.stopping = true) →
      ((d.main.terminating = true → d.stopping = true) →
        d'.main.terminating = true → d'.stopping = true) →
      d'.worker = d.worker → Keeps host host' d d' := by
    intro host' d' hquiet hstopping hterminating hworker
    refine ⟨hquiet, hstopping, hterminating, ?_, ?_, ?_, ?_⟩
    · exact fun h => Or.inl (hworker ▸ h)
    · exact fun h => hworker ▸ h
    · exact fun _ q hq => Or.inl (hworker ▸ hq)
    · exact fun p hp => Or.inl (hworker ▸ hp)
  unfold mainStep at h
  split at h
  case h_1 =>
    split at h
    · simp only [Option.some.injEq, Prod.mk.injEq] at h
      obtain ⟨rfl, rfl⟩ := h
      exact hcalls (.refl _) id (fun _ => nofun) rfl
    · cases h
  case h_2 =>
    split at h
    · simp only [Option.some.injEq, cancelSection, Prod.mk.injEq] at h
      obtain ⟨rfl, rfl⟩ := h
      exact hcalls (quiet_generation host _) id (fun _ => nofun) rfl
    · cases h
  case h_3 =>
    split at h
    · simp only [Option.some.injEq, Prod.mk.injEq] at h
      obtain ⟨rfl, rfl⟩ := h
      exact hcalls (.refl _) (fun _ => rfl) (fun _ _ => rfl) rfl
    · cases h
  case h_4 =>
    split at h
    · simp only [Option.some.injEq, Prod.mk.injEq] at h
      obtain ⟨rfl, rfl⟩ := h
      exact hcalls (.refl _) id (fun _ => nofun) rfl
    · next hmain =>
        simp only [Option.some.injEq, cancelSection, Prod.mk.injEq] at h
        obtain ⟨rfl, rfl⟩ := h
        exact hcalls (quiet_generation host _) id (fun hd _ => hd (by rw [hmain]; rfl)) rfl
    · next terminating hmain =>
        split at h
        · simp only [Option.some.injEq, Prod.mk.injEq] at h
          obtain ⟨rfl, rfl⟩ := h
          refine hcalls (.refl _) id (fun hd hterminating => hd ?_) rfl
          cases terminating
          · cases hterminating
          · rw [hmain]
            rfl
        · simp only [Option.some.injEq, Prod.mk.injEq] at h
          obtain ⟨rfl, rfl⟩ := h
          exact hcalls (.refl _) id id rfl
    · next hmain =>
        simp only [Option.some.injEq, Prod.mk.injEq] at h
        obtain ⟨rfl, rfl⟩ := h
        exact hcalls (.refl _) id (fun hd _ => hd (by rw [hmain]; rfl)) rfl
    · next hmain =>
        split at h
        · simp only [Option.some.injEq, Prod.mk.injEq] at h
          obtain ⟨rfl, rfl⟩ := h
          exact hcalls (.refl _) id (fun hd _ => hd (by rw [hmain]; rfl)) rfl
        · cases h
    · cases h
    · cases h
  case h_5 =>
    split at h
    · next hmain =>
        simp only [Option.some.injEq, Prod.mk.injEq] at h
        obtain ⟨rfl, rfl⟩ := h
        exact hcalls (.refl _) id (fun hd _ => hd (by rw [hmain]; rfl)) rfl
    · cases h
  case h_6 => cases h

/-- What a reader does before it queues a message. -/
lemma quiet_reader {helper : Helper} (h : readerStep host p helper a = some host')
    (hput : a ≠ .put p) (ha : ∀ q, a = .put q → q = p) : Quiet host host' := by
  unfold readerStep at h
  split at h
  · split at h
    · obtain rfl := Option.some.inj h
      exact quiet_modify host p (fun _ _ h => h) fun _ => rfl
    · cases h
  · next q => exact absurd (by rw [ha q rfl]) hput
  · obtain rfl := Option.some.inj h
    exact quiet_modify host p (fun _ _ h => h) fun _ => rfl
  · cases h

/-- **What a step of a session does.** -/
theorem sessionStep_cases (h : sessionStep s a = some t) :
    (a = .create ∧ (∀ d ∈ s.drivers.getLast?, d.main = .terminated) ∧ t = create s) ∨
    (∃ i d host' d', s.drivers[i]? = some d ∧ t = s.update i (host', d') ∧
      ((∃ job p, a = .send i true ∧ d.worker = .send job ∧ s.host.process = some p ∧
          host' = s.host.speak p i job.generation ∧ d' = d.goTo (.wait job false)) ∨
        Keeps s.host host' d d')) ∨
    (∃ host', Quiet s.host host' ∧ t = { s with host := host' }) ∨
    ∃ p helper message, a = .put p ∧ s.host.helpers[p]? = some helper ∧
      helper.hand = some message ∧
      t = { s with host := s.host.modify p fun helper =>
        { helper with hand := none, queue := helper.queue ++ [message] } } := by
  have hmain : (s.drivers[s.last]?.bind fun d => (mainStep s.host d a).map (s.update s.last)) =
      some t → ∃ i d host' d', s.drivers[i]? = some d ∧ t = s.update i (host', d') ∧
        Keeps s.host host' d d' := by
    intro h
    obtain ⟨d, hd, h'⟩ := Option.bind_eq_some_iff.1 h
    obtain ⟨⟨host', d'⟩, hstep, rfl⟩ := Option.map_eq_some_iff.1 h'
    exact ⟨s.last, d, host', d', hd, rfl, keeps_main hstep⟩
  have hworker : ∀ i, a.actor = some i →
      (s.drivers[i]?.bind fun d => (workerStep s.host i d a).map (s.update i)) = some t →
      ∃ i d host' d', s.drivers[i]? = some d ∧ t = s.update i (host', d') ∧
        ((∃ job p, a = .send i true ∧ d.worker = .send job ∧ s.host.process = some p ∧
            host' = s.host.speak p i job.generation ∧ d' = d.goTo (.wait job false)) ∨
          Keeps s.host host' d d') := by
    intro i hactor h
    obtain ⟨d, hd, h'⟩ := Option.bind_eq_some_iff.1 h
    obtain ⟨⟨host', d'⟩, hstep, rfl⟩ := Option.map_eq_some_iff.1 h'
    exact ⟨i, d, host', d', hd, rfl, workerStep_cases hstep hactor⟩
  have hkeeps : (∃ i d host' d', s.drivers[i]? = some d ∧ t = s.update i (host', d') ∧
      Keeps s.host host' d d') → ∃ i d host' d', s.drivers[i]? = some d ∧
        t = s.update i (host', d') ∧
        ((∃ job p, a = .send i true ∧ d.worker = .send job ∧ s.host.process = some p ∧
            host' = s.host.speak p i job.generation ∧ d' = d.goTo (.wait job false)) ∨
          Keeps s.host host' d d') := by
    rintro ⟨i, d, host', d', hd, ht, hk⟩
    exact ⟨i, d, host', d', hd, ht, Or.inr hk⟩
  unfold sessionStep at h
  split at h
  case h_1 =>
    split at h
    · next hlast => exact Or.inl ⟨rfl, hlast, (Option.some.inj h).symm⟩
    · cases h
  case h_2 | h_3 | h_4 | h_5 | h_6 => exact Or.inr (Or.inl (hkeeps (hmain h)))
  case h_7 i | h_8 i _ | h_9 i _ | h_10 i _ | h_11 i _ _ | h_12 i _ =>
    exact Or.inr (Or.inl (hworker i rfl h))
  case h_13 p _ | h_15 p =>
    obtain ⟨helper, hhelper, h'⟩ := Option.bind_eq_some_iff.1 h
    obtain ⟨host', hstep, rfl⟩ := Option.map_eq_some_iff.1 h'
    exact Or.inr (Or.inr (Or.inl ⟨host', quiet_reader hstep nofun nofun, rfl⟩))
  case h_14 p =>
    obtain ⟨helper, hhelper, h'⟩ := Option.bind_eq_some_iff.1 h
    obtain ⟨host', hstep, rfl⟩ := Option.map_eq_some_iff.1 h'
    simp only [readerStep] at hstep
    split at hstep
    · cases hstep
    · next message hhand =>
        split at hstep
        · obtain rfl := Option.some.inj hstep
          exact Or.inr (Or.inr (Or.inr ⟨p, helper, message, rfl, hhelper, hhand, rfl⟩))
        · cases hstep

/-! ### The invariant -/

/-- What holds of the drivers of a session that hands over as it should. -/
structure HandoverInv (s : SessionState) : Prop where
  /-- Every driver but the last has been terminated. -/
  stopping : ∀ (i : ℕ) (d : SynthDriver), s.drivers[i]? = some d → i ≠ s.last → d.stopping = true
  terminating : ∀ (i : ℕ) (d : SynthDriver), s.drivers[i]? = some d → d.main.terminating = true →
    d.stopping = true
  /-- No worker uses the host any more when that of a later driver waits for an answer. -/
  first : ∀ (i j : ℕ) (d e : SynthDriver), s.drivers[i]? = some d → s.drivers[j]? = some e →
    d.worker.outstanding = true → e.worker.engaged = true → i ≤ j
  queue : ∀ (i : ℕ) (d : SynthDriver), s.drivers[i]? = some d → d.worker.outstanding = true →
    ∀ q, (q = s.host.messages ∨ d.worker.reads = some q) →
      ∀ message ∈ s.host.queue q, s.host.For q i message
  process : ∀ p ∈ s.host.process, p = s.host.messages
  starting : ∀ (i : ℕ) (d : SynthDriver), s.drivers[i]? = some d → ∀ p ∈ d.worker.helper,
    ∀ g, s.host.sender p g = none

lemma handoverInv_initial (generation : UInt32) : HandoverInv (initialState generation) := by
  constructor <;> simp [initialState]

/-- A step that leaves the drivers where they are. -/
lemma HandoverInv.quiet (h : HandoverInv s) (hquiet : Quiet s.host host') :
    HandoverInv { s with host := host' } where
  stopping := h.stopping
  terminating := h.terminating
  first := h.first
  queue := by
    intro i d hd hout q hq message hmem
    have hold : ∀ q, (q = s.host.messages ∨ d.worker.reads = some q) →
        message ∈ host'.queue q → host'.For q i message := by
      intro q hq hmem
      have hfor := h.queue i d hd hout q hq message (hquiet.queue q message hmem)
      intro j hj
      rw [hquiet.sender] at hj
      exact hfor j hj
    rcases hq with rfl | hreads
    · rcases hquiet.messages with heq | hnil
      · rw [heq] at hmem ⊢
        exact hold _ (Or.inl rfl) hmem
      · rw [hnil] at hmem
        cases hmem
    · exact hold q (Or.inr hreads) hmem
  process := hquiet.process h.process
  starting := by
    intro i d hd p hp g
    rw [hquiet.sender]
    exact h.starting i d hd p hp g

lemma getElem?_update {r : SessionHost × SynthDriver} (hd : s.drivers[i]? = some d) (j : ℕ) :
    (s.update i r).drivers[j]? = if i = j then some r.2 else s.drivers[j]? := by
  rw [SessionState.update, List.getElem?_set]
  split
  · next heq =>
      obtain ⟨hlt, -⟩ := List.getElem?_eq_some_iff.1 hd
      rw [if_pos (heq ▸ hlt)]
  · rfl

lemma last_update (r : SessionHost × SynthDriver) : (s.update i r).last = s.last := by
  rw [SessionState.last, SessionState.last, SessionState.update, List.length_set]

/-- What holds of every driver holds still when one of them has changed. -/
lemma forall_update {P : ℕ → SynthDriver → Prop} {r : SessionHost × SynthDriver}
    (hd : s.drivers[i]? = some d) (hold : ∀ j e, s.drivers[j]? = some e → P j e)
    (hnew : P i d → P i r.2) : ∀ j e, (s.update i r).drivers[j]? = some e → P j e := by
  intro j e he
  rw [getElem?_update hd] at he
  split at he
  · next heq =>
      obtain rfl := Option.some.inj he
      rw [← heq]
      exact hnew (hold i d hd)
  · exact hold j e he

/-- The last driver is the only one that can come to use the host. -/
lemma HandoverInv.keeps (h : HandoverInv s) (hd : s.drivers[i]? = some d)
    (hkeeps : Keeps s.host host' d d') : HandoverInv (s.update i (host', d')) := by
  have hq := h.quiet hkeeps.host
  refine ⟨?_, ?_, ?_, ?_, hq.process, ?_⟩
  · rw [last_update]
    exact forall_update hd hq.stopping fun hold hne => hkeeps.stopping (hold hne)
  · exact forall_update hd hq.terminating hkeeps.terminating
  · -- a driver that waits has waited before, and one that is engaged was so or is the last
    have hout : ∀ (j : ℕ) (e : SynthDriver), (s.update i (host', d')).drivers[j]? = some e →
        e.worker.outstanding = true → ∃ e', s.drivers[j]? = some e' ∧
          e'.worker.outstanding = true := by
      refine forall_update hd (fun j e he hout => ⟨e, he, hout⟩) fun _ hout => ?_
      exact ⟨d, hd, hkeeps.outstanding hout⟩
    have heng : ∀ (j : ℕ) (e : SynthDriver), (s.update i (host', d')).drivers[j]? = some e →
        e.worker.engaged = true → (∃ e', s.drivers[j]? = some e' ∧
          e'.worker.engaged = true) ∨ j = s.last := by
      refine forall_update hd (fun j e he heng => Or.inl ⟨e, he, heng⟩) fun _ heng => ?_
      rcases hkeeps.engaged heng with hold | hstopping
      · exact Or.inl ⟨d, hd, hold⟩
      · refine Or.inr (by_contra fun hne => ?_)
        exact absurd (h.stopping i d hd hne) (by rw [hstopping]; exact Bool.false_ne_true)
    intro j k e e' he he' hj hk
    obtain ⟨e₁, he₁, hj₁⟩ := hout j e he hj
    rcases heng k e' he' hk with ⟨e₂, he₂, hk₂⟩ | rfl
    · exact h.first j k e₁ e₂ he₁ he₂ hj₁ hk₂
    · have hlt := (List.getElem?_eq_some_iff.1 he₁).1
      rw [SessionState.last]
      omega
  · refine forall_update hd hq.queue fun hold hout q hreads => ?_
    have hold' := hold (hkeeps.outstanding hout)
    rcases hreads with rfl | hreads
    · exact hold' _ (Or.inl rfl)
    · rcases hkeeps.reads hout q hreads with hold'' | rfl
      · exact hold' q (Or.inr hold'')
      · exact hold' _ (Or.inl rfl)
  · refine forall_update hd hq.starting fun hold q hhelper => ?_
    rcases hkeeps.helper q hhelper with hold' | hnone
    · exact hold q hold'
    · exact hnone

lemma HandoverInv.create (h : HandoverInv s)
    (hlast : ∀ d ∈ s.drivers.getLast?, d.main = .terminated) : HandoverInv (create s) := by
  have hold : ∀ (j : ℕ) (e : SynthDriver), (Session.create s).drivers[j]? = some e →
      s.drivers[j]? = some e ∨ (j = s.drivers.length ∧
        e = ⟨Driver.nextGeneration s.host.generation, false, [], .ready, .starting .test⟩) := by
    intro j e he
    rw [Session.create] at he
    rcases lt_or_ge j s.drivers.length with hlt | hge
    · exact Or.inl (by rwa [List.getElem?_append_left hlt] at he)
    · rw [List.getElem?_append_right hge] at he
      cases hj : j - s.drivers.length with
      | zero =>
          rw [hj] at he
          exact Or.inr ⟨by omega, (Option.some.inj he).symm⟩
      | succ n => simp [hj] at he
  refine ⟨?_, ?_, ?_, ?_, h.process, ?_⟩
  · intro j e he hne
    have hlen : (Session.create s).last = s.drivers.length := by
      simp [SessionState.last, Session.create]
    rcases hold j e he with he | ⟨rfl, -⟩
    · by_cases hj : j = s.last
      · -- this one was the last, and has returned from `terminate`
        refine h.terminating j e he ?_
        rw [hlast e (by rwa [hj, SessionState.last, ← List.getLast?_eq_getElem?] at he)]
        rfl
      · exact h.stopping j e he hj
    · exact absurd hlen.symm hne
  · intro j e he hterminating
    rcases hold j e he with he | ⟨-, rfl⟩
    · exact h.terminating j e he hterminating
    · cases hterminating
  · intro j k e e' he he' hj hk
    rcases hold j e he with he | ⟨-, rfl⟩
    · rcases hold k e' he' with he' | ⟨rfl, -⟩
      · exact h.first j k e e' he he' hj hk
      · exact ((List.getElem?_eq_some_iff.1 he).1).le
    · cases hj
  · intro j e he hout
    rcases hold j e he with he | ⟨-, rfl⟩
    · exact h.queue j e he hout
    · cases hout
  · intro j e he
    rcases hold j e he with he | ⟨-, rfl⟩
    · exact h.starting j e he
    · nofun

lemma queue_speak (host : SessionHost) (p i : ℕ) (g : UInt32) (q : ℕ) :
    (host.speak p i g).queue q = host.queue q := by
  rw [SessionHost.queue, SessionHost.speak, getElem?_modify, SessionHost.queue]
  cases host.helpers[q]? with
  | none => rfl
  | some helper =>
      simp only [Option.map_some, Option.getD_some]
      split <;> rfl

lemma sender_speak (host : SessionHost) (p i : ℕ) (g : UInt32) (q : ℕ) (g' : UInt32) :
    (host.speak p i g).sender q g' = some i ∨
      (host.speak p i g).sender q g' = host.sender q g' := by
  rw [SessionHost.sender, SessionHost.speak, getElem?_modify, SessionHost.sender]
  cases host.helpers[q]? with
  | none => exact Or.inr rfl
  | some helper =>
      simp only [Option.map_some, Option.bind_some]
      split
      · by_cases hg : g' = g
        · exact Or.inl (hg ▸ Function.update_self ..)
        · exact Or.inr (Function.update_of_ne hg _ _)
      · exact Or.inr rfl

/-- A driver that alone uses the host writes a SPEAK. -/
lemma HandoverInv.speak (h : HandoverInv s) (hG : HandsOver s a) {job : Job}
    (ha : a = .send i true) (hd : s.drivers[i]? = some d) (hprocess : s.host.process = some p) :
    HandoverInv (s.update i (s.host.speak p i job.generation, d.goTo (.wait job false))) := by
  have hwriter : i ∈ a.writer := by rw [ha]; rfl
  have hout := hG.alone i hwriter
  have hlength : (s.host.speak p i job.generation).messages = s.host.messages :=
    congrArg (· - 1) (List.length_modify ..)
  refine ⟨?_, ?_, ?_, ?_, ?_, ?_⟩
  · rw [last_update]
    exact forall_update hd h.stopping id
  · exact forall_update hd h.terminating id
  · have hall : ∀ (j : ℕ) (e : SynthDriver), (s.update i (s.host.speak p i job.generation,
        d.goTo (.wait job false))).drivers[j]? = some e → e.worker.engaged = true → j = i :=
      forall_update hd hout fun _ _ => rfl
    intro j k e e' he he' hj hk
    exact (hall j e he (engaged_of_outstanding hj)).le.trans (hall k e' he' hk).ge
  · intro j e he
    rw [getElem?_update hd] at he
    split at he
    · next heq =>
        obtain rfl := Option.some.inj he
        obtain rfl := heq
        intro _ q hq message hmem
        obtain rfl : q = p := by
          rcases hq with rfl | hreads
          · rw [SessionState.update, hlength]
            exact (h.process p hprocess).symm
          · cases hreads
        rw [SessionState.update, queue_speak] at hmem
        intro k hk
        rcases sender_speak s.host q i job.generation q message.generation with hi | hold
        · rw [SessionState.update, hi] at hk
          exact (Option.some.inj hk).symm
        · rw [SessionState.update, hold] at hk
          exact hG.clear i hwriter q hprocess message hmem k hk
    · next hne =>
        exact fun hj => absurd (hout j e he (engaged_of_outstanding hj)).symm hne
  · intro q hq
    rw [SessionState.update, hlength]
    exact h.process q hq
  · intro j e he q hhelper g
    rw [getElem?_update hd] at he
    split at he
    · obtain rfl := Option.some.inj he
      cases hhelper
    · next hne =>
        exact absurd (hout j e he (engaged_of_helper hhelper)).symm hne

/-- A message that comes to a queue is for the driver that waits there, if one does. -/
lemma HandoverInv.put (h : HandoverInv s) (hG : HandsOver s a) {helper : Helper}
    {message : Message} (ha : a = .put p) (hhelper : s.host.helpers[p]? = some helper)
    (hhand : helper.hand = some message) :
    HandoverInv { s with host := s.host.modify p fun helper =>
      { helper with hand := none, queue := helper.queue ++ [message] } } := by
  set host' := s.host.modify p fun helper =>
    { helper with hand := none, queue := helper.queue ++ [message] } with hhost'
  have hsender : ∀ q g, host'.sender q g = s.host.sender q g := by
    intro q g
    rw [hhost', SessionHost.sender, SessionHost.sender, getElem?_modify]
    cases s.host.helpers[q]? with
    | none => rfl
    | some other =>
        simp only [Option.map_some, Option.bind_some]
        split <;> rfl
  have hqueue : ∀ q, ∀ m ∈ host'.queue q, m ∈ s.host.queue q ∨ q = p ∧ m = message := by
    intro q m hm
    rw [hhost', SessionHost.queue, getElem?_modify] at hm
    rw [SessionHost.queue]
    cases hq : s.host.helpers[q]? with
    | none => simp [hq] at hm
    | some other =>
        simp only [hq, Option.map_some, Option.getD_some] at hm ⊢
        split at hm
        · next heq =>
            rcases List.mem_append.1 hm with hold | hnew
            · exact Or.inl hold
            · exact Or.inr ⟨heq.symm, List.mem_singleton.1 hnew⟩
        · exact Or.inl hm
  have hmessages : host'.messages = s.host.messages := congrArg (· - 1) (List.length_modify ..)
  refine ⟨h.stopping, h.terminating, h.first, ?_, ?_, ?_⟩
  · intro i d hd hout q hq m hm j hj
    rw [hsender] at hj
    rw [hmessages] at hq
    rcases hqueue q m hm with hold | ⟨rfl, rfl⟩
    · exact h.queue i d hd hout q hq m hold j hj
    · exact hG.late q (by rw [ha]; rfl) helper hhelper m hhand i d hd hout hq j hj
  · intro q hq
    rw [hmessages]
    exact h.process q hq
  · intro i d hd q hq g
    rw [hsender]
    exact h.starting i d hd q hq g

lemma handoverInv_step (h : HandoverInv s) (hG : HandsOver s a) (hstep : sessionStep s a = some t) :
    HandoverInv t := by
  rcases sessionStep_cases hstep with ⟨-, hlast, rfl⟩ | ⟨i, d, host', d', hd, rfl, hdriver⟩ |
    ⟨host', hquiet, rfl⟩ | ⟨p, helper, message, ha, hhelper, hhand, rfl⟩
  · exact h.create hlast
  · rcases hdriver with ⟨job, p, ha, -, hprocess, rfl, rfl⟩ | hkeeps
    · exact h.speak hG ha hd hprocess
    · exact h.keeps hd hkeeps
  · exact h.quiet hquiet
  · exact h.put hG ha hhelper hhand

/-! ### The drivers leave each other alone -/

lemma engaged_of_stopsHost {pc : WorkerPc} (h : stopsHost host pc a = true) :
    pc.engaged = true := by
  unfold stopsHost at h
  cases pc <;> first | rfl | simp [WorkerPc.start?] at h

/-- A worker takes a message where it waits for an answer, or from a helper that it starts. -/
lemma outstanding_or_helper {pc : WorkerPc} {q : ℕ} (h : q ∈ pc.reads) :
    pc.outstanding = true ∧ pc.reads = some q ∨ q ∈ pc.helper := by
  unfold WorkerPc.reads at h
  split at h
  · exact Or.inl ⟨rfl, h⟩
  · exact Or.inr h
  · exact Or.inr h
  · exact Or.inr h
  · cases h

lemma HandoverInv.stepRight (h : HandoverInv s) (a : SessionAction) : StepRight s a where
  take := by
    intro i _ d hd q hq message hmem
    have hmem' := List.mem_of_mem_head? hmem
    rcases outstanding_or_helper hq with ⟨hout, hreads⟩ | hhelper
    · exact h.queue i d hd hout q (Or.inr hreads) message hmem'
    · -- nothing has been sent to a helper that is not ready
      intro j hj
      rw [h.starting i d hd q hhelper] at hj
      cases hj
  stop := by
    intro i _ d hd hstops hne l hl
    by_contra hout
    have hle := h.first _ _ l d hl hd (Bool.eq_true_of_not_eq_false hout)
      (engaged_of_stopsHost hstops)
    have hlt := (List.getElem?_eq_some_iff.1 hd).1
    rw [SessionState.last] at hne hle
    omega

/-- **Successive drivers leave each other alone** as long as a SPEAK is written only when no other
worker uses the host and no message for another driver is in the queue, and no late message for
another driver comes while a worker waits for an answer. -/
theorem stepsRight_of_run {generation : UInt32} {as : List SessionAction}
    (hG : Along sessionStep HandsOver (initialState generation) as) :
    Along sessionStep StepRight (initialState generation) as :=
  along_of_invariant (fun _ _ _ hI hG hstep => handoverInv_step hI hG hstep)
    (fun _ a hI _ => hI.stepRight a) (handoverInv_initial generation) hG

/-- A message of a generation. -/
def reply (type : SamsungMessage) (generation : UInt32) : Message :=
  ⟨some type.code, generation, []⟩

/-- The first driver has the helper started, and comes to its queue of jobs. -/
def firstStart : List SessionAction :=
  [.create, .worker 0, .popen 0 true, .connect 0 true, .read 1 (reply .ready 0), .put 1,
    .take 0 false, .worker 0]

/-- A driver speaks, and its worker writes the SPEAK and waits. -/
def speakOne (i : ℕ) : List SessionAction :=
  [.speak 1, .main, .worker i, .worker i, .worker i, .worker i, .worker i, .send i true, .worker i]

/-- The helper answers with a message that the driver takes. -/
def answer (i : ℕ) (message : Message) : List SessionAction :=
  [.read 1 message, .put 1, .take i false, .worker i]

/-- `terminate` until `join`. -/
def terminateCall : List SessionAction := [.terminate, .main, .main, .main]

/-- The first driver speaks and is terminated, and so does the second. -/
def handedOver : List SessionAction :=
  firstStart ++ speakOne 0 ++ answer 0 (reply .audio 1) ++ answer 0 (reply .done 1) ++
    terminateCall ++ [SessionAction.worker 0, .main, .create, .worker 1, .worker 1] ++
    speakOne 1 ++ answer 1 (reply .audio 3) ++ answer 1 (reply .done 3) ++ terminateCall

lemma stepsRight_handedOver :
    (run sessionStep (initialState 0) handedOver).isSome = true ∧
      Along sessionStep StepRight (initialState 0) handedOver :=
  ⟨by decide +kernel, stepsRight_of_run (by decide +kernel)⟩

/-- The first driver still waits for an answer when `join` gives up, and takes the first message
for the second. -/
def stolenAnswer : List SessionAction :=
  firstStart ++ speakOne 0 ++ terminateCall ++
    [SessionAction.giveUp, .create, .worker 1, .worker 1] ++ speakOne 1 ++
    [SessionAction.read 1 (reply .audio 3), .put 1, .take 0 false]

/-- **`terminate` may leave a worker behind** that takes what is for the next driver. -/
theorem not_stepsRight : ¬ ∀ (generation : UInt32) (as : List SessionAction) (t : SessionState),
    run sessionStep (initialState generation) as = some t →
      Along sessionStep StepRight (initialState generation) as := by
  intro h
  have hrun : (run sessionStep (initialState 0) stolenAnswer).isSome = true := by decide +kernel
  obtain ⟨t, ht⟩ := Option.isSome_iff_exists.1 hrun
  exact absurd (h 0 stolenAnswer t ht) (by decide +kernel)

end SamsungTVVoices.Session
