/-
Speech that is not superseded is delivered once, and what the guest does with a text that is too
long.

The invariant of `System.Delivery` gives the property in every run within bounds
(`deliveredOnce_of_run`).  A text of a mebibyte is out of bounds: the driver sends its request, and
the guest takes the frame for an invalid one and leaves its loop.
-/
import SamsungTVVoices.Driver.Order
import SamsungTVVoices.System.Delivery

open SamsungTVVoices.Driver SamsungTVVoices.Guest StepSystem
open SamsungTVVoices.Host (Message)

namespace SamsungTVVoices.System

variable {settings : Settings} {scaleSample : ℤ → UInt16 → UInt16}
variable {s t : SystemState} {d : DriverState} {job : Job} {pc : WaitPc} {g : UInt32}

/-! ### What the invariant says -/

/-- A request that is out and not superseded is the one that the worker waits for. -/
lemma DeliveryInv.exists_live (h : DeliveryInv s) {k : ℕ} {r : Request}
    (hr : s.driver.requests[k]? = some r) (hsuperseded : r.superseded = false)
    (hreturned : r.returned = none) : ∃ job pc, waits s.driver.worker = some (job, pc) ∧
      job.generation = s.driver.currentGeneration ∧ Live s k r pc ∧
      s.guest.requests + s.driver.outgoing.countP isSpeak = k + 1 := by
  obtain ⟨hk, job, pc, hwaits, hcurrent⟩ := h.out k r hr hsuperseded hreturned
  obtain ⟨r', hr', hlive⟩ := h.live job pc hwaits hcurrent
  obtain rfl : r = r' :=
    Option.some.inj ((getLast?_eq_some_iff.2 ⟨k, hr, hk⟩).symm.trans hr')
  rw [← hk, Nat.add_sub_cancel] at hlive
  exact ⟨job, pc, hwaits, hcurrent, hlive, h.links.count.trans hk.symm⟩

lemma terminals_of_answered {k : ℕ} {f : Frame} {guest : GuestState} (h : Answered k f guest) :
    terminalsFor k guest.log = [⟨SamsungMessage.done.code, f.generation, []⟩] := by
  have haudio : ((audioFor k guest.log).map (·.1)).filter isTerminal = [] := by
    refine List.filter_eq_nil_iff.2 fun f' hf' => ?_
    obtain ⟨p, hp, rfl⟩ := List.mem_map.1 hf'
    rw [isTerminal, (h.audio p hp).1]
    decide
  rw [terminalsFor, h.sent, List.map_append, List.filter_append, haudio]
  rfl

lemma terminals_of_spoken {k : ℕ} {log : List GuestEvent} (h : ∀ p ∈ sentFor k log, Spoken p.1) :
    terminalsFor k log = [] := by
  refine List.filter_eq_nil_iff.2 fun f hf => ?_
  obtain ⟨p, hp, rfl⟩ := List.mem_map.1 hf
  rw [isTerminal, (h p hp).1]
  decide

lemma audioFor_of_spoken {k : ℕ} {log : List GuestEvent} (h : ∀ p ∈ sentFor k log, Spoken p.1) :
    audioFor k log = sentFor k log :=
  List.filter_eq_self.2 fun p hp => beq_iff_eq.2 (h p hp).1

/-- The DONE of a request is not among what has been fed. -/
lemma Live.done_not_mem {k : ℕ} {r : Request} (h : Live s k r pc) {m : Mail}
    (hm : m ∈ r.fed ++ inHand pc) : m.message ≠ doneMessage r.frame.generation := by
  obtain ⟨p, hp, rfl⟩ := h.audio m hm
  intro heq
  have htype := congrArg Message.messageType heq
  rw [show (mailOf p).message.messageType = some p.1.type from rfl, hp.1] at htype
  cases htype

lemma Live.fed_prefix {k : ℕ} {r : Request} (h : Live s k r pc) (hs : Serving s.guest)
    (hcount : s.guest.requests + s.driver.outgoing.countP isSpeak = k + 1) :
    r.fed <+: (audioFor k s.guest.log).map mailOf := by
  have hprefix : r.fed <+: (sentFor k s.guest.log).map mailOf := by
    rw [← h.account, List.append_assoc]
    exact List.prefix_append _ _
  rcases h.spoken_or_answered hs hcount with hspoken | ⟨-, hanswered⟩
  · rwa [audioFor_of_spoken hspoken]
  · rw [hanswered.sent, List.map_append] at hprefix
    rcases List.prefix_concat_iff.1 hprefix with heq | hprefix
    · -- the last one would be the DONE
      have hmem : (⟨doneMessage r.frame.generation, some k⟩ : Mail) ∈ r.fed := by
        rw [heq]
        exact List.mem_append_right _ (List.mem_singleton.2 rfl)
      exact absurd rfl (h.done_not_mem (List.mem_append_left _ hmem))
    · exact hprefix

/-! ### A request completes on its DONE -/

/-- Only the worker's step on the answer sets `returned`. -/
lemma answered_of_workerMove (h : DeliveryInv s) {k : ℕ} {r : Request}
    (hmove : Driver.WorkerMove settings scaleSample s.driver d)
    (hr : s.driver.requests[k]? = some r) (hsuperseded : r.superseded = false)
    (hreturned : r.returned = none) (hanswer : d.requests[k]?.bind (·.returned) ≠ none) :
    Answered k r.frame s.guest := by
  have hsame (hrequests : d.requests[k]? = some r) : Answered k r.frame s.guest := by
    rw [hrequests] at hanswer
    exact absurd hreturned hanswer
  cases hmove with
  | ended job rest cancelled mail inbox w hs hinbox hended =>
      obtain ⟨j, pc, hwaits, hcurrent, hlive, hcount⟩ := h.exists_live hr hsuperseded hreturned
      obtain ⟨rfl, rfl⟩ : j = job ∧ pc = .getMessage := by
        rw [hs] at hwaits
        cases hwaits
        exact ⟨rfl, rfl⟩
      have hmail : mail.message.generation = j.generation := by
        cases hended with
        | done hmail htype => exact hmail
        | failed hmail htype => exact hmail
      obtain ⟨r', hr', -, -, -, ⟨p, hp, rfl⟩ | ⟨-, -, -, hanswered, -⟩⟩ :=
        h.next hwaits hcurrent hinbox hmail
      · -- audio does not end the loop
        have htype : (mailOf p).message.messageType = some SamsungMessage.audio.code :=
          congrArg some hp.1
        cases hended with
        | done _ hdone => rw [htype] at hdone; cases hdone
        | failed _ hfailed => rw [htype] at hfailed; rcases hfailed with heq | heq <;> cases heq
      · obtain ⟨n, hn, hlast⟩ := getLast?_eq_some_iff.1 hr'
        have hk := (h.out k r hr hsuperseded hreturned).1
        obtain rfl : k = n := by omega
        obtain rfl : r = r' := Option.some.inj (hr.symm.trans hn)
        rw [← hk, Nat.add_sub_cancel] at hanswered
        exact hanswered
  | send job text rest frame hs hframe _ =>
      exact hsame (by rw [List.getElem?_append_left (List.getElem?_eq_some_iff.1 hr).1, hr])
  | feed job rest cancelled mail data hs hdata =>
      refine absurd ?_ hanswer
      show ((s.driver.record _).requests[k]?).bind _ = none
      rw [getElem?_record, hr, Option.map_some, Option.bind_some]
      split <;> exact hreturned
  | _ => exact hsame hr

/-- The steps of the driver other than those of the worker leave the answers alone. -/
lemma returned_of_driverStep {a : DriverAction} {k : ℕ} (ha : a ≠ .worker)
    (h : driverStep settings scaleSample s.driver a = some d) :
    d.requests[k]?.bind (·.returned) = s.driver.requests[k]?.bind (·.returned) := by
  cases a with
  | speak items => obtain ⟨-, rfl | rfl⟩ := exists_speak h <;> rfl
  | cancel =>
      obtain ⟨-, rfl⟩ := exists_cancel h
      show (s.driver.requests.map Request.supersede)[k]?.bind _ = _
      rw [List.getElem?_map]
      cases s.driver.requests[k]? <;> rfl
  | main =>
      change Driver.mainStep s.driver = some d at h
      unfold Driver.mainStep at h
      split at h
      case h_1 => cases h
      case h_4 => split at h <;> cases h <;> rfl
      all_goals cases h; rfl
  | worker => exact absurd rfl ha
  | hostStart ok =>
      change Driver.hostStart s.driver ok = some d at h
      unfold Driver.hostStart at h
      split at h
      case h_2 =>
        split at h
        · cases h
        · cases h; rfl
      case h_4 => cases h
      all_goals cases h; rfl
  | empty cancelledLong stalled =>
      obtain ⟨j, rest, cancelled, w, -, -, rfl, -⟩ := exists_polled h
      rfl
  | arrive mail =>
      change Driver.arrive s.driver mail = some d at h
      unfold Driver.arrive at h
      split at h
      case isFalse => cases h
      case isTrue =>
        cases h
        show ((s.driver.record _).requests[k]?).bind _ = _
        rw [getElem?_record]
        rcases s.driver.requests[k]? with _ | r
        · rfl
        · rw [Option.map_some, Option.bind_some, Option.bind_some]
          split
          · split <;> rfl
          · rfl

/-- The steps of the driver leave the guest alone. -/
lemma exists_drive {a : DriverAction} (h : drive settings scaleSample s a = some t) :
    ∃ d, driverStep settings scaleSample s.driver a = some d ∧ t = { s with driver := d } := by
  obtain ⟨d, hd, rfl⟩ := Option.map_eq_some_iff.1 h
  exact ⟨d, hd, rfl⟩

lemma DeliveryInv.completes (h : DeliveryInv s) {k : ℕ} {r : Request} {a : SystemAction}
    (hr : s.driver.requests[k]? = some r) (hsuperseded : r.superseded = false)
    (hreturned : r.returned = none) (ht : systemStep settings scaleSample s a = some t)
    (hanswer : answerOf t k ≠ none) :
    terminalsFor k t.guest.log = [⟨SamsungMessage.done.code, r.frame.generation, []⟩] := by
  have hnone : s.driver.requests[k]?.bind (·.returned) = none := by rw [hr]; exact hreturned
  -- only a step of the driver's worker can answer it
  have hdrive {a : DriverAction} (ha : a ≠ .worker) {u : SystemState}
      (hu : System.drive settings scaleSample s a = some u) : answerOf u k = none := by
    obtain ⟨d, hd, rfl⟩ := exists_drive hu
    exact (returned_of_driverStep ha hd).trans hnone
  have hguest {a : GuestAction} (hu : System.serve s a = some t) : answerOf t k = none := by
    obtain ⟨guest, -, rfl⟩ := Option.map_eq_some_iff.1 hu
    exact hnone
  cases a with
  | worker =>
      obtain ⟨d, hd, rfl⟩ := exists_drive ht
      exact terminals_of_answered <|
        answered_of_workerMove h (Driver.workerMove_workerStep hd) hr hsuperseded hreturned hanswer
  | speak items => exact absurd (hdrive (a := .speak items) nofun ht) hanswer
  | cancel => exact absurd (hdrive (a := .cancel) nofun ht) hanswer
  | main => exact absurd (hdrive (a := .main) nofun ht) hanswer
  | start => exact absurd (hdrive (a := .hostStart true) nofun ht) hanswer
  | poll => exact absurd (hdrive (a := .empty false false) nofun ht) hanswer
  | receive =>
      refine absurd ?_ hanswer
      change System.receive s = some t at ht
      unfold System.receive at ht
      split at ht
      case h_1 => cases ht
      case h_2 => obtain ⟨guest, -, rfl⟩ := Option.map_eq_some_iff.1 ht; exact hnone
  | guestReader => exact absurd (hguest ht) hanswer
  | guestWorker => exact absurd (hguest ht) hanswer
  | engine e => exact absurd (hguest ht) hanswer
  | take =>
      refine absurd ?_ hanswer
      change System.take s = some t at ht
      unfold System.take at ht
      split at ht
      case h_1 => cases ht; exact hnone
      case h_2 => cases ht
  | put =>
      refine absurd ?_ hanswer
      change System.put settings scaleSample s = some t at ht
      unfold System.put at ht
      split at ht
      case h_1 =>
        obtain ⟨u, hu, rfl⟩ := Option.map_eq_some_iff.1 ht
        have hnone := hdrive (a := .arrive _) nofun hu
        exact hnone
      case h_2 => cases ht

/-! ### No request is overwritten, and none is stuck -/

lemma DeliveryInv.kept (h : DeliveryInv s) {posted waiting : SpeechJob}
    (hreader : s.guest.reader = .post posted) (hpending : s.guest.pendingJob = some waiting) :
    ∃ r, s.driver.requests[waiting.request]? = some r ∧ r.superseded = true := by
  have hlt : waiting.request < s.driver.requests.length :=
    (h.links.serving.pending waiting hpending).trans_le h.links.le_of_wire
  refine ⟨_, List.getElem?_eq_getElem hlt, ?_⟩
  by_contra hnot
  rw [Bool.not_eq_true] at hnot
  have hr := List.getElem?_eq_getElem hlt
  set r := s.driver.requests[waiting.request]
  cases hreturned : r.returned with
  | some mail =>
      have hrests := (h.delivered _ r mail hr hnot hreturned).finished.rests
      exact hrests.pending waiting hpending rfl
  | none =>
      obtain ⟨j, pc, -, -, hlive, hcount⟩ := h.exists_live hr hnot hreturned
      have hstage := hlive.stage
      have hrequest := h.links.serving.pending waiting hpending
      generalize s.driver.outgoing = wire at hstage hcount
      cases hstage with
      | wire before hbefore hspeak hclear =>
          rw [List.countP_append, List.countP_singleton, if_pos hspeak] at hcount
          omega
      | post hpost hrests hlog => exact hrests.pending waiting hpending (Or.inl rfl)
      | pending hresting _ _ _ => rw [hreader] at hresting; exact hresting.elim
      | busy phase hresting _ _ _ _ => rw [hreader] at hresting; exact hresting.elim
      | done hanswered =>
          have hresting := hanswered.reader
          rw [hreader] at hresting
          exact hresting.elim

/-- Some action that takes a request further is possible. -/
def CanGoOn (settings : Settings) (scaleSample : ℤ → UInt16 → UInt16) (s : SystemState) : Prop :=
  ∃ a t, a.Forward ∧ systemStep settings scaleSample s a = some t

lemma canGoOn_of_isSome {a : SystemAction} (ha : a.Forward)
    (h : (systemStep settings scaleSample s a).isSome) : CanGoOn settings scaleSample s := by
  obtain ⟨t, ht⟩ := Option.isSome_iff_exists.1 h
  exact ⟨a, t, ha, ht⟩

lemma canGoOn_of_serve {a : SystemAction} {b : GuestAction} {guest : GuestState} (ha : a.Forward)
    (hstep : systemStep settings scaleSample s a = serve s b)
    (h : guestStep s.guest b = some guest) : CanGoOn settings scaleSample s :=
  ⟨a, { s with guest := guest }, ha, by rw [hstep, serve, h]; rfl⟩

/-- A call on the engine returns. -/
lemma canGoOn_of_outside {e : Engine} (he : (SystemAction.engine e).Forward)
    (h : (outsideStep s.guest e.outside).isSome) : CanGoOn settings scaleSample s := by
  obtain ⟨guest, hguest⟩ := Option.isSome_iff_exists.1 h
  exact canGoOn_of_serve he rfl hguest

/-- The worker can go on with its job, if the engine's calls return. -/
lemma canGoOn_of_busy {job : SpeechJob} {phase : Phase} (hs : s.guest.worker = .busy job phase) :
    CanGoOn settings scaleSample s := by
  have hworker {guest : GuestState} (h : jobStep s.guest job phase = some guest) :
      CanGoOn settings scaleSample s :=
    canGoOn_of_serve (a := .guestWorker) (b := .worker) trivial rfl
      (by rw [guestStep, Guest.workerStep, hs]; exact h)
  cases phase with
  | prepare =>
      by_cases hfits : engineFits s.guest job.options
      · exact hworker (by rw [jobStep, if_pos hfits])
      · exact canGoOn_of_outside (e := .init) trivial (by
          simp [Engine.outside, outsideStep, hs, hfits])
  | loop offset =>
      by_cases hmore : offset < job.text.length ∧ s.guest.cancelling = false
      · exact hworker (by rw [jobStep, if_pos hmore])
      · exact hworker (by rw [jobStep, if_neg hmore])
  | playing offset next =>
      exact canGoOn_of_outside (e := .return) trivial (by simp [Engine.outside, outsideStep, hs])
  | callback offset next samples pc =>
      cases pc with
      | loadGeneration => exact hworker rfl
      | loadCancelling generation => exact hworker rfl
      | send generation => exact hworker rfl
  | reply succeeded => cases succeeded <;> exact hworker rfl
  | _ => exact hworker rfl

/-- A worker that holds the mutex can go on. -/
lemma canGoOn_of_locked (hs : Serving s.guest) (hlocked : s.guest.locked) :
    CanGoOn settings scaleSample s := by
  rcases hlocked with hworker | hworker
  · exact canGoOn_of_serve (a := .guestWorker) (b := .worker) trivial rfl
      (by rw [guestStep, Guest.workerStep, hworker])
  · obtain ⟨job, hjob⟩ := Option.ne_none_iff_exists'.1 (hs.woken hworker)
    exact canGoOn_of_serve (a := .guestWorker) (b := .worker) trivial rfl
      (by rw [guestStep, Guest.workerStep, hworker]; simp [hs.running, hjob]; rfl)

/-- The reader can go on, unless it waits for a frame. -/
lemma canGoOn_of_reader (hs : Serving s.guest) (hpc : s.guest.reader ≠ .read) :
    CanGoOn settings scaleSample s := by
  have hreader := hs.reader
  have hstep {guest : GuestState} (h : readerStep s.guest = some guest) :
      CanGoOn settings scaleSample s :=
    canGoOn_of_serve (a := .guestReader) (b := .reader) trivial rfl h
  cases hcase : s.guest.reader with
  | head => exact hstep (by rw [readerStep, hcase])
  | read => exact absurd hcase hpc
  | post job =>
      by_cases hlocked : s.guest.locked
      · exact canGoOn_of_locked hs hlocked
      · exact hstep (by rw [readerStep, hcase]; exact if_neg hlocked)
  | notifyOne => exact hstep (by rw [readerStep, hcase])
  | cancelLoad site generation =>
      by_cases hactive : s.guest.activeGeneration ≠ generation
      · exact hstep (by rw [readerStep, hcase]; exact if_pos hactive)
      · exact hstep (by rw [readerStep, hcase]; exact if_neg hactive)
  | cancelStore site generation request => exact hstep (by rw [readerStep, hcase])
  | cancelSend site generation request => exact hstep (by rw [readerStep, hcase])
  | _ => rw [hcase] at hreader; exact hreader.elim

lemma canGoOn_of_wire (h : DeliveryInv s) (hwire : s.driver.outgoing ≠ []) :
    CanGoOn settings scaleSample s := by
  by_cases hpc : s.guest.reader = .read
  · obtain ⟨f, rest, hcons⟩ := List.exists_cons_of_ne_nil hwire
    have hf : Legal f := h.links.legal f (by rw [hcons]; exact List.mem_cons_self)
    obtain ⟨guest, hguest⟩ := exists_receive s.guest hf
    exact canGoOn_of_isSome (a := .receive) trivial (by
      simp [systemStep, receive, hcons, guestStep, hpc, hguest])
  · exact canGoOn_of_reader h.links.serving hpc

/-- The guest can go on with a request that is not answered. -/
lemma canGoOn_of_stage (h : DeliveryInv s) {k : ℕ} {f : Frame}
    (hstage : Stage k f s.guest s.driver.outgoing) (hanswered : ¬ Answered k f s.guest) :
    CanGoOn settings scaleSample s := by
  have hs := h.links.serving
  generalize hwire : s.driver.outgoing = wire at hstage
  cases hstage with
  | wire before hbefore hspeak hclear => exact canGoOn_of_wire h (by rw [hwire]; simp)
  | post hreader hrests hlog => exact canGoOn_of_reader hs (by rw [hreader]; simp)
  | pending hresting hpending hrests hlog =>
      have hworker {guest : GuestState} (hstep : Guest.workerStep s.guest = some guest) :
          CanGoOn settings scaleSample s :=
        canGoOn_of_serve (a := .guestWorker) (b := .worker) trivial rfl hstep
      cases hcase : s.guest.worker with
      | head => exact hworker (by rw [Guest.workerStep, hcase]; exact if_neg (by simp [hs.running]))
      | predicate => exact hworker (by rw [Guest.workerStep, hcase])
      | sleepy => exact canGoOn_of_locked hs (Or.inl hcase)
      | asleep =>
          -- the notification is to come
          have hnotify := hs.asleep hcase (by rw [hpending]; simp)
          exact canGoOn_of_reader hs (by rw [hnotify]; simp)
      | woken => exact canGoOn_of_locked hs (Or.inr hcase)
      | busy job phase => exact canGoOn_of_busy hcase
      | exited => exact absurd hcase hs.alive
  | busy phase hresting hpending hworker hplayed haudio => exact canGoOn_of_busy hworker
  | done h => exact absurd h hanswered

lemma canGoOn_of_worker {d : DriverState}
    (h : driverStep settings scaleSample s.driver .worker = some d) :
    CanGoOn settings scaleSample s :=
  ⟨.worker, { s with driver := d }, trivial, by rw [systemStep, drive, h]; rfl⟩

/-- As long as a request is not answered, one of the parties that serve it can go on. -/
lemma DeliveryInv.progress (h : DeliveryInv s) {k : ℕ} {r : Request}
    (hr : s.driver.requests[k]? = some r) (hsuperseded : r.superseded = false)
    (hreturned : r.returned = none) : CanGoOn settings scaleSample s := by
  obtain ⟨job, pc, hwaits, -, hlive, -⟩ := h.exists_live hr hsuperseded hreturned
  have hcalm := h.links.calm job pc hwaits
  obtain ⟨rest, cancelled, hs⟩ := exists_of_waits hwaits
  have hworker {d : DriverState}
      (hd : waitStep settings scaleSample s.driver job rest cancelled pc = some d) :
      CanGoOn settings scaleSample s :=
    canGoOn_of_worker (by rw [driverStep, Driver.workerStep, hs]; exact hd)
  cases pc with
  | head => exact hworker rfl
  | stalled => exact hcalm.elim
  | audio mail => exact hworker rfl
  | feed mail =>
      obtain ⟨data, hdata⟩ := hlive.scalable scaleSample settings.volume
      exact hworker (by rw [waitStep, hdata])
  | stop => exact hcalm.elim
  | restart => exact hcalm.elim
  | getMessage =>
      rcases hinbox : s.driver.inbox with _ | ⟨mail, inbox⟩
      · -- the queue is empty: the messages are further up, or the guest has not sent them yet
        cases hreader : s.hostReader with
        | put mail =>
            have hroom : s.driver.inbox.length < inboxSize := by rw [hinbox]; decide
            exact canGoOn_of_isSome (a := .put) trivial (by
              simp [systemStep, System.put, hreader, System.drive, driverStep, arrive, hroom])
        | ended => exact absurd hreader h.links.alive
        | read =>
            rcases hincoming : s.incoming with _ | ⟨p, incoming⟩
            · refine canGoOn_of_stage h hlive.stage fun hanswered => ?_
              -- all that the guest has sent has been fed, and DONE is not among it
              have haccount := hlive.account
              rw [pipeline, hinbox, hreader, hincoming, hanswered.sent, List.map_append] at haccount
              have hmem : (⟨doneMessage r.frame.generation, some k⟩ : Mail) ∈
                  r.fed ++ inHand .getMessage := by
                rw [show r.fed ++ inHand .getMessage = _ from
                  (List.append_nil _).symm.trans haccount]
                exact List.mem_append_right _ (List.mem_singleton.2 rfl)
              exact hlive.done_not_mem hmem rfl
            · exact ⟨.take, _, trivial, by rw [systemStep, System.take, hreader, hincoming]⟩
      · exact hworker (by rw [waitStep, hinbox])

/-! ### The property -/

lemma DeliveryInv.deliveredOnce (h : DeliveryInv s) : DeliveredOnce settings scaleSample s where
  kept := fun _ _ hreader hpending => h.kept hreader hpending
  fed := by
    intro k r hr hsuperseded
    cases hreturned : r.returned with
    | some mail =>
        rw [(h.delivered k r mail hr hsuperseded hreturned).fed]
    | none =>
        obtain ⟨job, pc, -, -, hlive, hcount⟩ := h.exists_live hr hsuperseded hreturned
        exact hlive.fed_prefix h.links.serving hcount
  terminals := by
    intro k r hr hsuperseded hreturned
    obtain ⟨job, pc, -, -, hlive, hcount⟩ := h.exists_live hr hsuperseded hreturned
    rcases hlive.spoken_or_answered h.links.serving hcount with hspoken | ⟨-, hanswered⟩
    · rw [terminals_of_spoken hspoken]
      exact List.nil_prefix
    · rw [terminals_of_answered hanswered]
  completes := fun k r a t hr hsuperseded hreturned ht hanswer =>
    h.completes hr hsuperseded hreturned ht hanswer
  returned := fun k r mail hr hsuperseded hreturned =>
    let hdelivered := h.delivered k r mail hr hsuperseded hreturned
    ⟨hdelivered.mail, hdelivered.fed, hdelivered.played⟩
  progress := fun k r hr hsuperseded hreturned => h.progress hr hsuperseded hreturned

/-- **Delivered once.** In every run in which every text fits the guest, the audio fits the host,
and a generation is not used again while something still carries it, every request that is not
superseded before it completes is delivered once. -/
theorem deliveredOnce_of_run (settings : Settings) (scaleSample : ℤ → UInt16 → UInt16)
    (generation : UInt32) (as : List SystemAction)
    (hrun : run (systemStep settings scaleSample) (initialState generation) as = some s)
    (hbounds : Along (systemStep settings scaleSample) InBounds (initialState generation) as) :
    DeliveredOnce settings scaleSample s :=
  (run_invariant_along (fun _ _ _ h ha ht => deliveryInv_systemStep h ha ht)
    (deliveryInv_initialState generation) hbounds hrun).deliveredOnce

/-- A letter is spoken, and the engine calls back once. -/
def spokenLetter : List SystemAction :=
  List.flatten [[.start, .guestReader], .replicate 3 .guestWorker, [.speak [.str [65]], .main],
    .replicate 7 .worker, [.receive, .guestReader, .guestReader], .replicate 4 .guestWorker,
    [.engine .init], .replicate 3 .guestWorker, [.engine (.callback (some [1, 2]))],
    .replicate 3 .guestWorker, [.engine .return], .replicate 7 .guestWorker, [.take, .put],
    .replicate 4 .worker, [.take, .put], .replicate 6 .worker]

theorem deliveredOnce_spokenLetter :
    ∃ s, run (systemStep plainSettings fun _ x => x) (initialState 0) spokenLetter = some s ∧
      answerOf s 0 = some ⟨doneMessage 1, some 0⟩ ∧
      DeliveredOnce plainSettings (fun _ x => x) s := by
  have hsome : (run (systemStep plainSettings fun _ x => x) (initialState 0) spokenLetter).map
      (answerOf · 0) = some (some ⟨doneMessage 1, some 0⟩) := by decide +kernel
  obtain ⟨s, hs, hanswer⟩ := Option.map_eq_some_iff.1 hsome
  exact ⟨s, hs, hanswer,
    deliveredOnce_of_run plainSettings (fun _ x => x) 0 spokenLetter hs (by decide +kernel)⟩

/-! ### A text that is too long -/

/-- The text is spoken, and its request is sent. -/
def spokenText (text : PyString) : List SystemAction :=
  [SystemAction.start, .guestReader, .speak [.str text], .main] ++
    List.replicate 6 SystemAction.worker

/-- The guest reads a request, and what follows if it takes it for an invalid frame. -/
def frameRejected : List SystemAction :=
  SystemAction.receive :: List.replicate 6 SystemAction.guestReader ++
    [SystemAction.guestWorker, .guestReader, .worker, .take, .put, .worker, .worker]

/-- The state after `spokenText`. -/
def requestSent (text : PyString) (payload : Bytes) : SystemState :=
  { initialState 0 with
    driver := { Driver.initialState 0 with
      activeGeneration := some 1
      running := true
      worker := .wait ⟨0, 1, [.text text]⟩ [] false .head
      outgoing := [⟨SamsungMessage.speak.code, 1, payload⟩]
      calls := [⟨[.text text], false⟩]
      requests := [⟨0, 0, ⟨SamsungMessage.speak.code, 1, payload⟩, [], [], none, false⟩] }
    guest := { Guest.initialState with reader := .read } }

/-- The state after `frameRejected`: the guest has left its loop. -/
def requestRejected (text : PyString) (payload : Bytes) : SystemState :=
  { requestSent text payload with
    driver := { (requestSent text payload).driver with
      worker := .wait ⟨0, 1, [.text text]⟩ [] false .getMessage
      outgoing := [] }
    guest := { Guest.initialState with
      shuttingDown := true
      cancelling := true
      reader := .exited
      worker := .exited
      log := [.sent ⟨SamsungMessage.ready.code, 0, []⟩ none,
        .sent ⟨SamsungMessage.cancelled.code, 0, []⟩ none] }
    taken := 2 }

section TooLong

variable {text : PyString} {payload : Bytes} {scaleSample : ℤ → UInt16 → UInt16}

lemma run_spokenText (hevents : speechEvents [.str text] = [.text text])
    (hframe : speakFrame plainSettings 1 text = some ⟨SamsungMessage.speak.code, 1, payload⟩) :
    run (systemStep plainSettings scaleSample) (initialState 0) (spokenText text) =
      some (requestSent text payload) := by
  have hgeneration : nextGeneration 0 = 1 := by decide
  simp [spokenText, systemStep, drive, serve, driverStep, guestStep, initialState,
    Driver.initialState, hostStart, hgeneration, readerStep, Guest.initialState, speak, hevents,
    mainStep, List.replicate, Driver.workerStep, DriverState.isCurrent, next, hframe, requestSent]

/-- The guest takes the request for an invalid frame, and exits. -/
lemma run_frameRejected (hmin : samsungProtocolMaxPayload < payload.length)
    (hmax : payload.length < 2 ^ 32) :
    run (systemStep plainSettings scaleSample) (requestSent text payload) frameRejected =
      some (requestRejected text payload) := by
  have hsize : (UInt32.ofNat payload.length).toNat = payload.length := by
    simpa using Nat.mod_eq_of_lt hmax
  have hreceive : receive (requestSent text payload) = some { requestSent text payload with
      driver := { (requestSent text payload).driver with outgoing := [] }
      guest := { Guest.initialState with reader := .shutStore } } := by
    simp [receive, requestSent, guestStep, Guest.receive, Incoming.ofFrame, Frame.header, hsize,
      hmin]
  exact run_cons_eq_some.2 ⟨_, hreceive, rfl⟩

/-- Nobody can go on. -/
lemma not_forward_requestRejected (a : SystemAction) (ha : a.Forward) :
    systemStep plainSettings scaleSample (requestRejected text payload) a = none := by
  cases a with
  | engine e => cases e <;> first | exact ha.elim | rfl
  | speak items => exact ha.elim
  | cancel => exact ha.elim
  | main => exact ha.elim
  | start => exact ha.elim
  | poll => exact ha.elim
  | _ => rfl

end TooLong

lemma encode_replicate (n : ℕ) : encode (List.replicate n 65) = some (List.replicate n 65) := by
  have hpoint : encodePoint 65 = some [65] := by decide
  have hmap : (List.replicate n (65 : CodePoint)).mapM encodePoint =
      some (List.replicate n [65]) := by
    induction n with
    | zero => rfl
    | succ n ih => simp [List.replicate_succ, hpoint, ih]
  rw [encode, hmap]
  simp

lemma strip_replicate (n : ℕ) : strip (List.replicate n 65) = List.replicate n 65 := by
  have hletter : isSpace 65 = false := by decide
  have hhead : ∀ n, (List.replicate n (65 : CodePoint)).dropWhile isSpace =
      List.replicate n 65 := by
    intro n
    cases n with
    | zero => rfl
    | succ n => rw [List.replicate_succ, List.dropWhile_cons_of_neg (by simp [hletter])]
  rw [strip, List.rdropWhile, List.reverse_replicate, hhead, List.reverse_replicate, hhead]

lemma speechEvents_replicate {n : ℕ} (hmin : samsungProtocolMaxPayload <
    SamsungSpeakOptions.byteSize + n) :
    speechEvents [.str (List.replicate n 65)] = [.text (List.replicate n 65)] := by
  have hne : List.replicate n (65 : CodePoint) ≠ [] := by
    intro hnil
    rw [List.replicate_eq_nil_iff] at hnil
    rw [hnil] at hmin
    exact absurd hmin (by decide)
  simp [speechEvents_eq, firstRun, indexedRuns, textOf, strip_replicate, hne]

/-- The text is a mebibyte of letters. -/
theorem not_deliveredOnce_mebibyte :
    ¬ ∀ (settings : Settings) (scaleSample : ℤ → UInt16 → UInt16) (generation : UInt32)
      (as : List SystemAction) (s : SystemState),
      run (systemStep settings scaleSample) (initialState generation) as = some s →
        DeliveredOnce settings scaleSample s := by
  intro h
  obtain ⟨n, hmin, hmax⟩ : ∃ n, samsungProtocolMaxPayload < SamsungSpeakOptions.byteSize + n ∧
      SamsungSpeakOptions.byteSize + n < 2 ^ 32 := ⟨2 ^ 20, by decide, by decide⟩
  have hlength : (plainSettings.options.toBytes ++ List.replicate n (65 : UInt8)).length =
      SamsungSpeakOptions.byteSize + n := by simp
  obtain ⟨bytes, hbytes, hframe⟩ :=
    speakFrame_of_sendable ⟨_, encode_replicate n, by simpa using hmax⟩ plainSettings 1
  obtain rfl := Option.some.inj (hbytes.symm.trans (encode_replicate n))
  have hdelivered := h plainSettings (fun _ x => x) 0 _ _ (run_append.2
    ⟨_, run_spokenText (speechEvents_replicate hmin) hframe,
      run_frameRejected (hlength ▸ hmin) (hlength ▸ hmax)⟩)
  obtain ⟨a, t, ha, ht⟩ := hdelivered.progress 0 _ rfl rfl rfl
  rw [not_forward_requestRejected a ha] at ht
  cases ht

end SamsungTVVoices.System
