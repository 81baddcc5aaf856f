/-
Speech that is not superseded is delivered once through the whole system.

The invariant looks at the current generation only.  While the worker waits for the answer to a
request of it, the request is at one stage of its way (`Stage`), and what has been fed, what the
worker has at hand and what is on its way back are together what the guest has sent for the request
(`Live`).  Otherwise nothing on its way is of the current generation (`Vacant`), so the next request
finds the way free.  A request that has completed stays as it is, as the guest is finished with it
(`Delivered`).
-/
import SamsungTVVoices.System.Machine
import SamsungTVVoices.Guest.Stage
import SamsungTVVoices.Lib.StepSystem

open SamsungTVVoices.Driver SamsungTVVoices.Guest StepSystem
open SamsungTVVoices.Host (Message)

namespace SamsungTVVoices.System

/-! ### The condition -/

/-- The text, if it can be encoded, makes a request that the guest accepts. -/
def Fits (text : PyString) : Prop :=
  ∀ bytes ∈ encode text, SamsungSpeakOptions.byteSize + bytes.length ≤ samsungProtocolMaxPayload

instance (text : PyString) : Decidable (Fits text) :=
  inferInstanceAs (Decidable (∀ bytes ∈ encode text, _))

/-- The text of the event, if it has one, fits. -/
def EventFits : SpeechEvent → Prop
  | .text t => Fits t
  | .index _ => True

instance : (e : SpeechEvent) → Decidable (EventFits e)
  | .text t => inferInstanceAs (Decidable (Fits t))
  | .index _ => .isTrue trivial

/-- The mail that the reader thread of the host has at hand. -/
def HostReaderPc.mail? : HostReaderPc → Option Mail
  | .put mail => some mail
  | _ => none

/-- The messages on their way from the guest to the driver's worker, the next one first. -/
def pipeline (s : SystemState) : List Mail :=
  s.driver.inbox ++ (s.hostReader.mail?.toList ++ s.incoming.map mailOf)

/-- The generation of what the guest's reader has at hand. -/
def readerGeneration? : ReaderPc → Option UInt32
  | .post job => some job.generation
  | .rejectEmpty generation | .cancelLoad _ generation | .cancelStore _ generation _
  | .cancelSend _ generation _ => some generation
  | _ => none

/-- The generations that something in the system carries. -/
def carried (s : SystemState) : List UInt32 :=
  s.driver.worker.job?.toList.map (·.generation) ++ s.driver.outgoing.map (·.generation) ++
    (readerGeneration? s.guest.reader).toList ++ s.guest.pendingJob.toList.map (·.generation) ++
    s.guest.worker.job?.toList.map (·.generation) ++ (pipeline s).map (·.message.generation)

/-- Every text fits the guest, all audio fits the host, and a `cancel` picks a generation that
nothing in the system carries. -/
def InBounds (s : SystemState) : SystemAction → Prop
  | .speak speechSequence => ∀ e ∈ speechEvents speechSequence, EventFits e
  | .cancel => nextGeneration s.driver.generation ∉ carried s
  | .engine e => e.Fits
  | _ => True

instance : (e : Engine) → Decidable e.Fits
  | .callback samples =>
      inferInstanceAs (Decidable ((sampleBytes (samples.getD [])).length ≤ Host.maxPayload))
  | .init => .isTrue trivial
  | .return => .isTrue trivial
  | .wake => .isTrue trivial

instance (s : SystemState) : (a : SystemAction) → Decidable (InBounds s a)
  | .speak _ => inferInstanceAs (Decidable (∀ e ∈ speechEvents _, EventFits e))
  | .cancel => inferInstanceAs (Decidable (_ ∉ carried s))
  | .engine e => inferInstanceAs (Decidable e.Fits)
  | .main => .isTrue trivial
  | .worker => .isTrue trivial
  | .start => .isTrue trivial
  | .poll => .isTrue trivial
  | .receive => .isTrue trivial
  | .guestReader => .isTrue trivial
  | .guestWorker => .isTrue trivial
  | .take => .isTrue trivial
  | .put => .isTrue trivial

/-! ### The invariant -/

/-- What is known of the events in the driver. -/
def Known (e : SpeechEvent) : Prop := EventFits e ∧ e ≠ .text []

/-- What the worker has taken from the queue and not fed yet. -/
def inHand : WaitPc → List Mail
  | .audio mail | .feed mail => [mail]
  | _ => []

/-- The worker is in the message loop, and on no way out of it but the answer. -/
def Calm : WaitPc → Prop
  | .stalled | .stop | .restart => False
  | _ => True

/-- Whose answer the worker waits for. -/
def waits : Driver.WorkerPc → Option (Job × WaitPc)
  | .wait job _ _ pc => some (job, pc)
  | _ => none

/-- The mails of a generation. -/
def ofGeneration (g : UInt32) (mails : List Mail) : List Mail :=
  mails.filter (·.message.generation = g)

/-- The two channels and the parties at their ends work. -/
structure Links (s : SystemState) : Prop where
  started : s.driver.worker = .starting ∨ s.driver.running = true
  calm : ∀ job pc, waits s.driver.worker = some (job, pc) → Calm pc
  alive : s.hostReader ≠ .ended
  messages : ∀ m ∈ pipeline s, m.message.messageType ≠ none
  small : ∀ p ∈ s.incoming, p.1.payload.length ≤ Host.maxPayload
  taken : s.taken ≤ (sentFrames s.guest.log).length
  legal : ∀ f ∈ s.driver.outgoing, Legal f
  /-- The guest numbers the requests as the driver does. -/
  count : s.guest.requests + s.driver.outgoing.countP isSpeak = s.driver.requests.length
  serving : Serving s.guest

/-- Nothing on its way is of this generation. -/
structure Vacant (g : UInt32) (s : SystemState) : Prop where
  guest : Clear g s.guest
  wire : ∀ f ∈ s.driver.outgoing, f.generation ≠ g
  back : ofGeneration g (pipeline s) = []

/-- The worker waits for the answer to this request, which is on its way. -/
structure Live (s : SystemState) (k : ℕ) (r : Request) (pc : WaitPc) : Prop where
  stage : Stage k r.frame s.guest s.driver.outgoing
  account : r.fed ++ inHand pc ++ ofGeneration r.frame.generation (pipeline s) =
    (sentFor k s.guest.log).map mailOf
  audio : ∀ m ∈ r.fed ++ inHand pc, ∃ p, Spoken p.1 ∧ m = mailOf p

/-- The request has completed on this mail. -/
structure Delivered (s : SystemState) (k : ℕ) (r : Request) (mail : Mail) : Prop where
  mail : mail = ⟨doneMessage r.frame.generation, some k⟩
  fed : r.fed = (audioFor k s.guest.log).map mailOf
  played : (chunksFor k s.guest.log).flatten = speakText r.frame
  finished : Finished k s.guest

structure DeliveryInv (s : SystemState) : Prop where
  line : LineInv Known s.driver
  worker : WorkerInv Known s.driver
  links : Links s
  vacant : (∀ job pc, waits s.driver.worker = some (job, pc) →
    job.generation ≠ s.driver.currentGeneration) → Vacant s.driver.currentGeneration s
  live : ∀ job pc, waits s.driver.worker = some (job, pc) →
    job.generation = s.driver.currentGeneration → ∃ r, s.driver.requests.getLast? = some r ∧
      Live s (s.driver.requests.length - 1) r pc
  /-- Only the last request can be out, and the others are answered or superseded. -/
  out : ∀ (k : ℕ) r, s.driver.requests[k]? = some r → r.superseded = false → r.returned = none →
    k + 1 = s.driver.requests.length ∧ ∃ job pc, waits s.driver.worker = some (job, pc) ∧
      job.generation = s.driver.currentGeneration
  delivered : ∀ (k : ℕ) r mail, s.driver.requests[k]? = some r → r.superseded = false →
    r.returned = some mail → Delivered s k r mail

variable {s t : SystemState} {d : DriverState} {job : Job} {pc : WaitPc} {g : UInt32}

lemma exists_of_waits {w : Driver.WorkerPc} (h : waits w = some (job, pc)) :
    ∃ rest cancelled, w = .wait job rest cancelled pc := by
  cases w <;> cases h
  exact ⟨_, _, rfl⟩

/-- The last request is the one that the worker waits for. -/
lemma DeliveryInv.asked (h : DeliveryInv s) (hwaits : waits s.driver.worker = some (job, pc)) :
    ∃ r, s.driver.requests.getLast? = some r ∧ r.returned = none ∧
      r.frame.generation = job.generation ∧
      (r.superseded = true ↔ job.generation ≠ s.driver.currentGeneration) := by
  obtain ⟨rest, cancelled, hworker⟩ := exists_of_waits hwaits
  exact h.worker.asked job rest cancelled pc hworker

@[simp] lemma ofGeneration_append (mails mails' : List Mail) :
    ofGeneration g (mails ++ mails') = ofGeneration g mails ++ ofGeneration g mails' :=
  List.filter_append ..

lemma ofGeneration_eq_nil {mails : List Mail} :
    ofGeneration g mails = [] ↔ ∀ m ∈ mails, m.message.generation ≠ g := by
  simp [ofGeneration]

/-! ### Steps that leave the current generation alone -/

/-- The two records agree in what matters to the system. -/
structure SameRecord (r r' : Request) : Prop where
  frame : r'.frame = r.frame
  fed : r'.fed = r.fed
  returned : r'.returned = r.returned
  superseded : r'.superseded = r.superseded

lemma SameRecord.refl (r : Request) : SameRecord r r := ⟨rfl, rfl, rfl, rfl⟩

/-- The records of the requests that are not superseded agree. -/
structure SameRequests (before after : List Request) : Prop where
  length : after.length = before.length
  forward : ∀ (k : ℕ) r, before[k]? = some r → r.superseded = false →
    ∃ r', after[k]? = some r' ∧ SameRecord r r'
  backward : ∀ (k : ℕ) r', after[k]? = some r' → r'.superseded = false →
    ∃ r, before[k]? = some r ∧ SameRecord r r'

lemma SameRequests.refl (requests : List Request) : SameRequests requests requests :=
  ⟨rfl, fun _ r hr _ => ⟨r, hr, .refl r⟩, fun _ r hr _ => ⟨r, hr, .refl r⟩⟩

lemma getElem?_record (d : DriverState) (f : Request → Request) (k : ℕ) :
    (d.record f).requests[k]? =
      d.requests[k]?.map fun r => if k + 1 = d.requests.length then f r else r := by
  rw [DriverState.record, List.getElem?_modify]
  rcases hk : d.requests[k]? with _ | r
  · rfl
  · have hlt : k < d.requests.length := (List.getElem?_eq_some_iff.1 hk).1
    have hiff : d.requests.length - 1 = k ↔ k + 1 = d.requests.length := by omega
    simp [hiff]

lemma length_record (d : DriverState) (f : Request → Request) :
    (d.record f).requests.length = d.requests.length := by
  rw [DriverState.record, List.length_modify]

lemma getLast?_eq_some_iff {requests : List Request} {r : Request} :
    requests.getLast? = some r ↔ ∃ k, requests[k]? = some r ∧ k + 1 = requests.length := by
  rw [List.getLast?_eq_getElem?]
  constructor
  · intro h
    have hlt := (List.getElem?_eq_some_iff.1 h).1
    exact ⟨_, h, by omega⟩
  · rintro ⟨k, hk, hlength⟩
    rwa [← hlength, Nat.add_sub_cancel]

/-- A change of the last record that keeps what matters, or of a superseded one. -/
lemma sameRequests_record (d : DriverState) (f : Request → Request)
    (h : ∀ r, d.requests.getLast? = some r →
      SameRecord r (f r) ∨ r.superseded = true ∧ (f r).superseded = true) :
    SameRequests d.requests (d.record f).requests := by
  refine ⟨length_record d f, fun k r hr hsuperseded => ?_, fun k r' hr' hsuperseded => ?_⟩
  · rw [getElem?_record, hr, Option.map_some]
    split
    · next hk =>
        rcases h r (getLast?_eq_some_iff.2 ⟨k, hr, hk⟩) with hsame | hstale
        · exact ⟨_, rfl, hsame⟩
        · rw [hstale.1] at hsuperseded
          cases hsuperseded
    · exact ⟨r, rfl, .refl r⟩
  · rw [getElem?_record, Option.map_eq_some_iff] at hr'
    obtain ⟨r, hr, heq⟩ := hr'
    split at heq
    · next hk =>
        subst heq
        rcases h r (getLast?_eq_some_iff.2 ⟨k, hr, hk⟩) with hsame | hstale
        · exact ⟨r, hr, hsame⟩
        · rw [hstale.2] at hsuperseded
          cases hsuperseded
    · subst heq
      exact ⟨r, hr, .refl r⟩

/-- The step leaves alone what is on its way and is current. -/
structure SameFlow (s t : SystemState) : Prop where
  guest : t.guest = s.guest
  outgoing : t.driver.outgoing = s.driver.outgoing
  current : t.driver.currentGeneration = s.driver.currentGeneration
  requests : SameRequests s.driver.requests t.driver.requests
  back : ofGeneration s.driver.currentGeneration (pipeline t) =
    ofGeneration s.driver.currentGeneration (pipeline s)
  waiting : ∀ job pc, waits t.driver.worker = some (job, pc) → ∃ pc',
    waits s.driver.worker = some (job, pc') ∧
      (job.generation = s.driver.currentGeneration → inHand pc = inHand pc')
  waited : ∀ job pc, waits s.driver.worker = some (job, pc) →
    job.generation = s.driver.currentGeneration →
      ∃ pc', waits t.driver.worker = some (job, pc')

lemma DeliveryInv.of_same (h : DeliveryInv s) (hline : LineInv Known t.driver)
    (hworker : WorkerInv Known t.driver) (hlinks : Links t) (hsame : SameFlow s t) :
    DeliveryInv t := by
  have hlength := hsame.requests.length
  refine ⟨hline, hworker, hlinks, fun hnone => ?_, fun job pc hwaits hcurrent => ?_,
    fun k r' hr' hsuperseded hreturned => ?_, fun k r' mail hr' hsuperseded hreturned => ?_⟩
  · have hvacant : Vacant s.driver.currentGeneration s := by
      refine h.vacant fun job pc hwaits hcurrent => ?_
      obtain ⟨pc', hwaits'⟩ := hsame.waited job pc hwaits hcurrent
      exact hnone job pc' hwaits' (hcurrent.trans hsame.current.symm)
    rw [hsame.current]
    exact ⟨by rw [hsame.guest]; exact hvacant.guest, by rw [hsame.outgoing]; exact hvacant.wire,
      hsame.back.trans hvacant.back⟩
  · rw [hsame.current] at hcurrent
    obtain ⟨pc', hwaits', hhand⟩ := hsame.waiting job pc hwaits
    obtain ⟨r, hr, hlive⟩ := h.live job pc' hwaits' hcurrent
    obtain ⟨r₁, hr₁, -, hgeneration, hsuperseded⟩ := h.asked hwaits'
    obtain rfl : r = r₁ := Option.some.inj (hr.symm.trans hr₁)
    have hfalse : r.superseded = false := by
      rw [← Bool.not_eq_true, hsuperseded]
      exact not_not.2 hcurrent
    obtain ⟨k, hk, hlast⟩ := getLast?_eq_some_iff.1 hr
    obtain ⟨r', hr', hrecord⟩ := hsame.requests.forward k r hk hfalse
    refine ⟨r', getLast?_eq_some_iff.2 ⟨k, hr', by rw [hlength, hlast]⟩, ?_⟩
    have hhand' := hhand hcurrent
    refine ⟨?_, ?_, ?_⟩
    · rw [hlength, hsame.guest, hsame.outgoing, hrecord.frame]
      exact hlive.stage
    · have hback := hsame.back
      rw [← hcurrent, ← hgeneration] at hback
      rw [hlength, hsame.guest, hrecord.fed, hrecord.frame, hhand', hback]
      exact hlive.account
    · rw [hrecord.fed, hhand']
      exact hlive.audio
  · obtain ⟨r, hr, hrecord⟩ := hsame.requests.backward k r' hr' hsuperseded
    obtain ⟨hk, job, pc, hwaits, hcurrent⟩ := h.out k r hr (hrecord.superseded ▸ hsuperseded)
      (hrecord.returned ▸ hreturned)
    obtain ⟨pc', hwaits'⟩ := hsame.waited job pc hwaits hcurrent
    exact ⟨hk.trans hlength.symm, job, pc', hwaits', hcurrent.trans hsame.current.symm⟩
  · obtain ⟨r, hr, hrecord⟩ := hsame.requests.backward k r' hr' hsuperseded
    have hdelivered := h.delivered k r mail hr (hrecord.superseded ▸ hsuperseded)
      (hrecord.returned ▸ hreturned)
    exact ⟨by rw [hrecord.frame]; exact hdelivered.mail,
      by rw [hrecord.fed, hsame.guest]; exact hdelivered.fed,
      by rw [hrecord.frame, hsame.guest]; exact hdelivered.played,
      by rw [hsame.guest]; exact hdelivered.finished⟩

/-! ### The answer to a request -/

lemma Links.le_of_wire (h : Links s) : s.guest.requests ≤ s.driver.requests.length := by
  have := h.count
  omega

/-- The guest has sent audio for the request, or it has answered it. -/
lemma Live.spoken_or_answered {k : ℕ} {r : Request} (h : Live s k r pc) (hs : Serving s.guest)
    (hcount : s.guest.requests + s.driver.outgoing.countP isSpeak = k + 1) :
    (∀ p ∈ sentFor k s.guest.log, Spoken p.1) ∨
      s.driver.outgoing = [] ∧ Answered k r.frame s.guest := by
  have hstage := h.stage
  generalize hwire : s.driver.outgoing = wire at hstage hcount
  cases hstage with
  | wire before hbefore hspeak hclear =>
      have hk : s.guest.requests ≤ k := by
        rw [List.countP_append, List.countP_singleton, if_pos hspeak] at hcount
        omega
      simp [(hs.untouched hk).sent]
  | post hreader hrests huntouched => simp [huntouched.sent]
  | pending hreader hpending hworker huntouched => simp [huntouched.sent]
  | busy phase hreader hpending hworker hplayed haudio => exact Or.inl haudio
  | done hanswered => exact Or.inr ⟨rfl, hanswered⟩

/-- The next message of the generation is audio, or it is the DONE of the request and the last. -/
lemma Live.next {k : ℕ} {r : Request} {mail : Mail} {rest : List Mail} (h : Live s k r pc)
    (hs : Serving s.guest)
    (hcount : s.guest.requests + s.driver.outgoing.countP isSpeak = k + 1)
    (hmail : ofGeneration r.frame.generation (pipeline s) = mail :: rest) :
    (∃ p, Spoken p.1 ∧ mail = mailOf p) ∨
      (mail = ⟨doneMessage r.frame.generation, some k⟩ ∧ rest = [] ∧ s.driver.outgoing = [] ∧
        Answered k r.frame s.guest ∧
        r.fed ++ inHand pc = (audioFor k s.guest.log).map mailOf) := by
  have haccount := h.account
  rw [hmail] at haccount
  rcases h.spoken_or_answered hs hcount with hspoken | ⟨hwire, hanswered⟩
  · left
    have hmem : mail ∈ (sentFor k s.guest.log).map mailOf := by simp [← haccount]
    obtain ⟨p, hp, rfl⟩ := List.mem_map.1 hmem
    exact ⟨p, hspoken p hp, rfl⟩
  · rw [hanswered.sent, List.map_append] at haccount
    rcases List.eq_nil_or_concat rest with rfl | ⟨rest, last, rfl⟩
    · -- it is the last message that the guest has sent for the request
      right
      obtain ⟨hfed, hlast⟩ := List.append_inj' haccount rfl
      exact ⟨List.singleton_inj.1 hlast, rfl, hwire, hanswered, hfed⟩
    · left
      have hsplit : (r.fed ++ inHand pc ++ mail :: rest) ++ [last] =
          (audioFor k s.guest.log).map mailOf ++
            [(⟨SamsungMessage.done.code, r.frame.generation, []⟩, some k)].map mailOf := by
        simpa using haccount
      obtain ⟨hfed, -⟩ := List.append_inj' hsplit rfl
      have hmem : mail ∈ (audioFor k s.guest.log).map mailOf := by simp [← hfed]
      obtain ⟨p, hp, rfl⟩ := List.mem_map.1 hmem
      exact ⟨p, hanswered.audio p hp, rfl⟩

/-! ### The steps of the driver -/

lemma Links.of_driver (h : Links s) (hstarted : d.worker = .starting ∨ d.running = true)
    (hcalm : ∀ job pc, waits d.worker = some (job, pc) → Calm pc)
    (hinbox : ∀ m ∈ d.inbox, m ∈ s.driver.inbox) (houtgoing : d.outgoing = s.driver.outgoing)
    (hlength : d.requests.length = s.driver.requests.length) : Links { s with driver := d } := by
  refine ⟨hstarted, hcalm, h.alive, fun m hm => h.messages m ?_, h.small, h.taken,
    by rw [houtgoing]; exact h.legal, by rw [houtgoing, hlength]; exact h.count, h.serving⟩
  rcases List.mem_append.1 hm with hm | hm
  · exact List.mem_append_left _ (hinbox m hm)
  · exact List.mem_append_right _ hm

/-- A job that is not current finds nothing on its way that is. -/
lemma DeliveryInv.vacant_of_stale (h : DeliveryInv s)
    (hwaits : waits s.driver.worker = some (job, pc))
    (hstale : job.generation ≠ s.driver.currentGeneration) :
    Vacant s.driver.currentGeneration s := by
  refine h.vacant fun j pc' hwaits' => ?_
  cases hwaits.symm.trans hwaits'
  exact hstale

lemma DeliveryInv.vacant_of_none (h : DeliveryInv s) (hwaits : waits s.driver.worker = none) :
    Vacant s.driver.currentGeneration s :=
  h.vacant fun job pc hsome => by rw [hwaits] at hsome; cases hsome

section Worker

variable {settings : Settings} {scaleSample : ℤ → UInt16 → UInt16}

lemma silent_waits {pc pc' : Driver.WorkerPc} {w : WaitPc}
    (h : Silent settings scaleSample d pc pc') (hwaits : waits pc' = some (job, w)) :
    ∃ w', waits pc = some (job, w') ∧
      (job.generation = d.currentGeneration → inHand w = inHand w') ∧ (Calm w' → Calm w) := by
  cases h <;> cases hwaits
  case loop => exact ⟨_, rfl, fun _ => rfl, fun _ => trivial⟩
  case fail => exact ⟨_, rfl, fun _ => rfl, False.elim⟩
  case endure => exact ⟨_, rfl, fun _ => rfl, fun _ => trivial⟩
  case play => exact ⟨_, rfl, fun _ => rfl, fun _ => trivial⟩
  case drop rest cancelled mail hstale =>
      exact ⟨_, rfl, fun h => absurd h (isCurrent_eq_false_iff.1 hstale), fun _ => trivial⟩

/-- A silent move leaves the message loop only with audio that cannot be scaled. -/
lemma silent_waited {pc pc' : Driver.WorkerPc} {w : WaitPc}
    (h : Silent settings scaleSample d pc pc') (hwaits : waits pc = some (job, w)) :
    (∃ w', waits pc' = some (job, w')) ∨ ∃ mail, w = .feed mail ∧
      scaleVolume scaleSample mail.message.payload settings.volume = none := by
  cases h <;> cases hwaits
  case unscaled rest cancelled mail h => exact Or.inr ⟨mail, rfl, h⟩
  all_goals exact Or.inl ⟨_, rfl⟩

lemma shown_waits {pc pc' : Driver.WorkerPc} {e : TraceEvent} (h : Shown pc job e pc') :
    waits pc = none ∧ waits pc' = none := by
  cases h <;> exact ⟨rfl, rfl⟩

/-- A step that is not about the answer to a request. -/
lemma DeliveryInv.of_driver (h : DeliveryInv s) (hline : LineInv Known d)
    (hworker : WorkerInv Known d) (hwaits : waits d.worker = waits s.driver.worker)
    (hstarted : d.worker = .starting ∨ d.running = true) (hinbox : d.inbox = s.driver.inbox)
    (houtgoing : d.outgoing = s.driver.outgoing)
    (hcurrent : d.currentGeneration = s.driver.currentGeneration)
    (hrequests : d.requests = s.driver.requests) : DeliveryInv { s with driver := d } := by
  have hpipeline : pipeline { s with driver := d } = pipeline s := by
    rw [pipeline, pipeline, hinbox]
    rfl
  refine h.of_same hline hworker (h.links.of_driver hstarted (fun job pc hd => ?_)
    (fun m hm => hinbox ▸ hm) houtgoing (by rw [hrequests])) ⟨rfl, houtgoing, hcurrent, ?_, ?_,
      fun job pc hd => ⟨pc, ?_, fun _ => rfl⟩, fun job pc hs _ => ⟨pc, ?_⟩⟩
  · exact h.links.calm job pc (hwaits ▸ hd)
  · exact hrequests ▸ .refl _
  · rw [hpipeline]
  · exact hwaits ▸ hd
  · exact hwaits ▸ hs

/-- A step of the worker with a job that is not current. -/
lemma DeliveryInv.of_stale (h : DeliveryInv s) (hline : LineInv Known d)
    (hworker : WorkerInv Known d) (hwaits : waits s.driver.worker = some (job, pc))
    (hstale : job.generation ≠ s.driver.currentGeneration)
    (hd : ∀ j w, waits d.worker = some (j, w) → j = job ∧ Calm w)
    (hrunning : d.running = s.driver.running) (hinbox : ∀ m ∈ d.inbox, m ∈ s.driver.inbox)
    (houtgoing : d.outgoing = s.driver.outgoing)
    (hcurrent : d.currentGeneration = s.driver.currentGeneration)
    (hrequests : SameRequests s.driver.requests d.requests) :
    DeliveryInv { s with driver := d } := by
  have hback := ofGeneration_eq_nil.1 (h.vacant_of_stale hwaits hstale).back
  have hstarted : d.worker = .starting ∨ d.running = true := by
    obtain ⟨rest, cancelled, hs⟩ := exists_of_waits hwaits
    rw [hrunning]
    exact Or.inr (h.links.started.resolve_left (by simp [hs]))
  have hlinks := h.links.of_driver hstarted (fun j w hw => (hd j w hw).2) hinbox houtgoing
    hrequests.length
  refine h.of_same hline hworker hlinks ⟨rfl, houtgoing, hcurrent, hrequests, ?_,
    fun j w hw => ?_, fun j w hw hj => ?_⟩
  · rw [(h.vacant_of_stale hwaits hstale).back, ofGeneration_eq_nil]
    intro m hm
    rcases List.mem_append.1 hm with hm | hm
    · exact hback m (List.mem_append_left _ (hinbox m hm))
    · exact hback m (List.mem_append_right _ hm)
  · obtain rfl := (hd j w hw).1
    exact ⟨pc, hwaits, fun hj => absurd hj hstale⟩
  · cases hwaits.symm.trans hw
    exact absurd hj hstale

lemma Live.scalable {k : ℕ} {r : Request} {mail : Mail} (h : Live s k r (.feed mail))
    (scaleSample : ℤ → UInt16 → UInt16) (volume : ℤ) :
    ∃ data, scaleVolume scaleSample mail.message.payload volume = some data := by
  obtain ⟨p, ⟨-, samples, hsamples⟩, rfl⟩ := h.audio mail (by simp [inHand])
  have hpayload : (mailOf p).message.payload = sampleBytes samples := hsamples
  rw [hpayload]
  exact scaleVolume_sampleBytes scaleSample samples volume

lemma DeliveryInv.silent (h : DeliveryInv s) {w : Driver.WorkerPc}
    (hmove : Silent settings scaleSample s.driver s.driver.worker w)
    (hline : LineInv Known { s.driver with worker := w })
    (hworker : WorkerInv Known { s.driver with worker := w }) :
    DeliveryInv { s with driver := { s.driver with worker := w } } := by
  have hstarted : s.driver.running = true := by
    rcases h.links.started with hs | hrunning
    · rw [hs] at hmove
      cases hmove
    · exact hrunning
  refine h.of_same hline hworker (h.links.of_driver (Or.inr hstarted) (fun job pc hpc => ?_)
    (fun _ hm => hm) rfl rfl) ⟨rfl, rfl, rfl, .refl _, rfl, fun job pc hpc => ?_,
      fun job pc hpc hcurrent => ?_⟩
  · obtain ⟨pc', hwaits, -, hcalm⟩ := silent_waits hmove hpc
    exact hcalm (h.links.calm job pc' hwaits)
  · obtain ⟨pc', hwaits, hhand, -⟩ := silent_waits hmove hpc
    exact ⟨pc', hwaits, hhand⟩
  · rcases silent_waited hmove hpc with hwaits | ⟨mail, rfl, hnone⟩
    · exact hwaits
    · -- the guest sends whole samples
      obtain ⟨r, -, hlive⟩ := h.live job _ hpc hcurrent
      obtain ⟨data, hdata⟩ := hlive.scalable scaleSample settings.volume
      rw [hdata] at hnone
      cases hnone

/-- The numbers of the guest and the driver agree while a request is out. -/
lemma DeliveryInv.count_eq (h : DeliveryInv s) (hwaits : waits s.driver.worker = some (job, pc)) :
    s.guest.requests + s.driver.outgoing.countP isSpeak = s.driver.requests.length - 1 + 1 := by
  obtain ⟨r, hr, -⟩ := h.asked hwaits
  obtain ⟨k, -, hk⟩ := getLast?_eq_some_iff.1 hr
  rw [h.links.count]
  omega

/-- The worker takes a message of the current generation from the queue. -/
lemma DeliveryInv.next (h : DeliveryInv s) {mail : Mail} {inbox : List Mail}
    (hwaits : waits s.driver.worker = some (job, pc))
    (hcurrent : job.generation = s.driver.currentGeneration)
    (hinbox : s.driver.inbox = mail :: inbox) (hmail : mail.message.generation = job.generation) :
    ∃ r, s.driver.requests.getLast? = some r ∧ r.frame.generation = job.generation ∧
      Live s (s.driver.requests.length - 1) r pc ∧
      ofGeneration r.frame.generation (pipeline s) = mail :: ofGeneration r.frame.generation
        (inbox ++ (s.hostReader.mail?.toList ++ s.incoming.map mailOf)) ∧
      ((∃ p, Spoken p.1 ∧ mail = mailOf p) ∨
        (mail = ⟨doneMessage r.frame.generation, some (s.driver.requests.length - 1)⟩ ∧
          ofGeneration r.frame.generation
            (inbox ++ (s.hostReader.mail?.toList ++ s.incoming.map mailOf)) = [] ∧
          s.driver.outgoing = [] ∧ Answered (s.driver.requests.length - 1) r.frame s.guest ∧
          r.fed ++ inHand pc =
            (audioFor (s.driver.requests.length - 1) s.guest.log).map mailOf)) := by
  obtain ⟨r, hr, hlive⟩ := h.live job pc hwaits hcurrent
  obtain ⟨r₁, hr₁, -, hgeneration, -⟩ := h.asked hwaits
  obtain rfl : r = r₁ := Option.some.inj (hr.symm.trans hr₁)
  have hnext : ofGeneration r.frame.generation (pipeline s) =
      mail :: ofGeneration r.frame.generation
        (inbox ++ (s.hostReader.mail?.toList ++ s.incoming.map mailOf)) := by
    rw [pipeline, hinbox, List.cons_append, ofGeneration,
      List.filter_cons_of_pos (by simp [hmail, hgeneration])]
    rfl
  exact ⟨r, hr, hgeneration, hlive, hnext,
    hlive.next h.links.serving (h.count_eq hwaits) hnext⟩

/-- A step of the worker with the answer to the current request. -/
lemma DeliveryInv.of_live (h : DeliveryInv s) {r : Request} (f : Request → Request)
    (hcurrent : job.generation = s.driver.currentGeneration) (hline : LineInv Known d)
    (hworker : WorkerInv Known d) (hlinks : Links { s with driver := d })
    (hd : waits d.worker = some (job, pc))
    (hgeneration : d.currentGeneration = s.driver.currentGeneration)
    (hrequests : d.requests = (s.driver.record f).requests)
    (hr : s.driver.requests.getLast? = some r) (hreturned : (f r).returned = none)
    (hlive : Live { s with driver := d } (s.driver.requests.length - 1) (f r) pc) :
    DeliveryInv { s with driver := d } := by
  have hlength : d.requests.length = s.driver.requests.length := by
    rw [hrequests, length_record]
  obtain ⟨n, hn, hlast⟩ := getLast?_eq_some_iff.1 hr
  -- the records but the last are as before
  have hget (k : ℕ) (r' : Request) (hr' : d.requests[k]? = some r') :
      (k + 1 = s.driver.requests.length ∧ r' = f r) ∨
        (k + 1 ≠ s.driver.requests.length ∧ s.driver.requests[k]? = some r') := by
    rw [hrequests, getElem?_record, Option.map_eq_some_iff] at hr'
    obtain ⟨r₁, hr₁, heq⟩ := hr'
    split at heq
    · next hk =>
        obtain rfl : k = n := by omega
        exact Or.inl ⟨hk, by rw [← heq, Option.some.inj (hr₁.symm.trans hn)]⟩
    · next hk => exact Or.inr ⟨hk, heq ▸ hr₁⟩
  have hcurrent' : job.generation = d.currentGeneration := hcurrent.trans hgeneration.symm
  refine ⟨hline, hworker, hlinks, fun hnone => absurd hcurrent' (hnone job pc hd),
    fun j w hw _ => ?_, fun k r' hr' hsuperseded hnone => ?_,
    fun k r' mail hr' hsuperseded hmail => ?_⟩
  · obtain ⟨rfl, rfl⟩ : job = j ∧ pc = w := by simpa using hd.symm.trans hw
    refine ⟨f r, ?_, ?_⟩
    · show d.requests.getLast? = _
      rw [hrequests, getLast?_record, hr]
      rfl
    · show Live _ (d.requests.length - 1) _ _
      rw [hlength]
      exact hlive
  · rcases hget k r' hr' with ⟨hk, -⟩ | ⟨hk, hold⟩
    · exact ⟨hk.trans hlength.symm, job, pc, hd, hcurrent'⟩
    · exact absurd (h.out k r' hold hsuperseded hnone).1 hk
  · rcases hget k r' hr' with ⟨-, rfl⟩ | ⟨-, hold⟩
    · rw [hreturned] at hmail
      cases hmail
    · have hdelivered := h.delivered k r' mail hold hsuperseded hmail
      exact ⟨hdelivered.mail, hdelivered.fed, hdelivered.played, hdelivered.finished⟩

lemma DeliveryInv.pass (h : DeliveryInv s) {rest : List SpeechEvent} {cancelled : Bool}
    {mail : Mail} {inbox : List Mail} (hs : s.driver.worker = .wait job rest cancelled .getMessage)
    (hinbox : s.driver.inbox = mail :: inbox) (hpassed : Passed job mail pc)
    (hd : d = { s.driver with inbox := inbox, worker := .wait job rest cancelled pc })
    (hline : LineInv Known d) (hworker : WorkerInv Known d) :
    DeliveryInv { s with driver := d } := by
  subst hd
  have hwaits : waits s.driver.worker = some (job, .getMessage) := by rw [hs]; rfl
  have htype : mail.message.messageType ≠ none := h.links.messages mail (by simp [pipeline, hinbox])
  have hcalm : Calm pc := by
    cases hpassed with
    | stopped hnone => exact absurd hnone htype
    | _ => trivial
  have hsub : ∀ m ∈ inbox, m ∈ s.driver.inbox := fun m hm => by simp [hinbox, hm]
  by_cases hcurrent : job.generation = s.driver.currentGeneration
  · have hrunning : s.driver.running = true := h.links.started.resolve_left (by simp [hs])
    have hlinks : Links { s with
        driver := { s.driver with inbox := inbox, worker := .wait job rest cancelled pc } } := by
      refine h.links.of_driver (Or.inr hrunning) (fun j w hw => ?_) hsub rfl rfl
      cases hw
      exact hcalm
    cases hpassed with
    | stopped hnone => exact absurd hnone htype
    | stale hne =>
        refine h.of_same hline hworker hlinks ⟨rfl, rfl, rfl, .refl _, ?_, fun j w hw => ?_,
          fun j w hw _ => ?_⟩
        · rw [pipeline, pipeline, hinbox, List.cons_append, ofGeneration, ofGeneration,
            List.filter_cons_of_neg (by simpa [← hcurrent] using hne)]
          rfl
        · cases hw
          exact ⟨_, hwaits, fun _ => rfl⟩
        · cases hwaits.symm.trans hw
          exact ⟨_, rfl⟩
    | audio hmail _ =>
        obtain ⟨r, hr, hgeneration, hlive, hnext, haudio⟩ := h.next hwaits hcurrent hinbox hmail
        have hspoken : ∃ p, Spoken p.1 ∧ mail = mailOf p := by
          rcases haudio with hspoken | ⟨rfl, -⟩
          · exact hspoken
          · rename_i hdone
            cases hdone
        obtain ⟨r₁, hr₁, hreturned, -⟩ := h.asked hwaits
        obtain rfl : r = r₁ := Option.some.inj (hr.symm.trans hr₁)
        refine h.of_live id hcurrent hline hworker hlinks rfl rfl ?_ hr hreturned
          ⟨hlive.stage, ?_, ?_⟩
        · exact (List.modify_id _ _).symm
        · have haccount := hlive.account
          rw [hnext, show inHand .getMessage = [] from rfl, List.append_nil] at haccount
          rw [← haccount]
          exact List.append_assoc r.fed [mail] _
        · intro m hm
          rcases List.mem_append.1 hm with hm | hm
          · exact hlive.audio m (List.mem_append_left _ hm)
          · exact List.mem_singleton.1 hm ▸ hspoken
    | unknown hmail haudio hdone =>
        -- the guest sends only audio and DONE for the request
        obtain ⟨r, -, -, -, -, ⟨p, hp, rfl⟩ | ⟨rfl, -⟩⟩ := h.next hwaits hcurrent hinbox hmail
        · exact absurd (congrArg some hp.1) haudio
        · exact absurd rfl hdone
  · refine h.of_stale hline hworker hwaits hcurrent (fun j w hw => ?_) rfl hsub rfl rfl (.refl _)
    cases hw
    exact ⟨rfl, hcalm⟩

lemma DeliveryInv.feed (h : DeliveryInv s) {rest : List SpeechEvent} {cancelled : Bool}
    {mail : Mail} {data : Bytes} (hs : s.driver.worker = .wait job rest cancelled (.feed mail))
    (hd : d = (s.driver.record fun r => { r with fed := r.fed ++ [mail] }).emit job (.feed data)
      (.wait job rest cancelled .head))
    (hline : LineInv Known d) (hworker : WorkerInv Known d) :
    DeliveryInv { s with driver := d } := by
  subst hd
  have hwaits : waits s.driver.worker = some (job, .feed mail) := by rw [hs]; rfl
  obtain ⟨r, hr, hreturned, -, hsuperseded⟩ := h.asked hwaits
  by_cases hcurrent : job.generation = s.driver.currentGeneration
  · have hrunning : s.driver.running = true := h.links.started.resolve_left (by simp [hs])
    obtain ⟨r₁, hr₁, hlive⟩ := h.live job _ hwaits hcurrent
    obtain rfl : r = r₁ := Option.some.inj (hr.symm.trans hr₁)
    refine h.of_live (fun r => { r with fed := r.fed ++ [mail] }) hcurrent hline hworker
      (h.links.of_driver (Or.inr hrunning) (fun j w hw => ?_) (fun m hm => hm) rfl
        (length_record _ _)) rfl rfl rfl hr hreturned ⟨hlive.stage, ?_, ?_⟩
    · cases hw
      trivial
    · show r.fed ++ [mail] ++ [] ++ ofGeneration r.frame.generation (pipeline s) = _
      rw [List.append_nil]
      exact hlive.account
    · simpa [inHand] using hlive.audio
  · refine h.of_stale hline hworker hwaits hcurrent (fun j w hw => ?_) rfl (fun m hm => hm) rfl rfl
      (sameRequests_record _ _ fun r' hr' => ?_)
    · cases hw
      exact ⟨rfl, trivial⟩
    · obtain rfl := Option.some.inj (hr.symm.trans hr')
      exact Or.inr ⟨hsuperseded.2 hcurrent, hsuperseded.2 hcurrent⟩

/-- The worker reads the DONE of the current request. -/
lemma DeliveryInv.done (h : DeliveryInv s) {rest : List SpeechEvent} {cancelled : Bool}
    {mail : Mail} {inbox : List Mail} {w : Driver.WorkerPc}
    (hs : s.driver.worker = .wait job rest cancelled .getMessage)
    (hcurrent : job.generation = s.driver.currentGeneration)
    (hinbox : s.driver.inbox = mail :: inbox) (hmail : mail.message.generation = job.generation)
    (hnot : ∀ p, Spoken p.1 → mail ≠ mailOf p) (hw : waits w = none)
    (hd : d = { s.driver.record (fun r => { r with returned := some mail }) with
      inbox := inbox, worker := w })
    (hline : LineInv Known d) (hworker : WorkerInv Known d) :
    DeliveryInv { s with driver := d } := by
  subst hd
  have hwaits : waits s.driver.worker = some (job, .getMessage) := by rw [hs]; rfl
  have hrunning : s.driver.running = true := h.links.started.resolve_left (by simp [hs])
  obtain ⟨r, hr, hgeneration, -, -, ⟨p, hp, heq⟩ | ⟨hdone, hback, hwire, hanswered, hfed⟩⟩ :=
    h.next hwaits hcurrent hinbox hmail
  · exact absurd heq (hnot p hp)
  obtain ⟨n, hn, hlast⟩ := getLast?_eq_some_iff.1 hr
  have hn' : s.driver.requests.length - 1 = n := by omega
  rw [hn'] at hdone hanswered hfed
  refine ⟨hline, hworker, h.links.of_driver (Or.inr hrunning) (fun j pc' hpc => ?_)
    (fun m hm => by simp [hinbox, hm]) rfl (length_record _ _), fun _ => ⟨⟨?_, ?_⟩, ?_, ?_⟩,
    fun j pc' hpc => ?_, fun k r' hr' hsuperseded hnone => ?_,
    fun k r' mail' hr' hsuperseded hreturned => ?_⟩
  · rw [hw] at hpc
    cases hpc
  · have hreader := hanswered.reader
    show ReaderClear _ s.guest.reader
    cases hpc : s.guest.reader with
    | head => trivial
    | read => trivial
    | notifyOne => trivial
    | _ => rw [hpc] at hreader; exact hreader.elim
  · exact hanswered.rests.mono fun j hj => Or.inr (hj.trans (hcurrent.symm.trans hgeneration.symm))
  · show ∀ f ∈ s.driver.outgoing, _
    rw [hwire]
    exact nofun
  · rw [hgeneration, hcurrent] at hback
    exact hback
  · rw [hw] at hpc
    cases hpc
  · -- every other request has been answered, or is superseded
    rw [getElem?_record, Option.map_eq_some_iff] at hr'
    obtain ⟨r₁, hr₁, heq⟩ := hr'
    split at heq
    · rw [← heq] at hnone
      cases hnone
    · next hk =>
        subst heq
        exact absurd (h.out k r₁ hr₁ hsuperseded hnone).1 hk
  · rw [getElem?_record, Option.map_eq_some_iff] at hr'
    obtain ⟨r₁, hr₁, heq⟩ := hr'
    split at heq
    · next hk =>
        obtain rfl : k = n := by omega
        obtain rfl : r₁ = r := Option.some.inj (hr₁.symm.trans hn)
        subst heq
        obtain rfl : mail = mail' := Option.some.inj hreturned
        have hcount := h.links.count
        rw [hwire, List.countP_nil] at hcount
        refine ⟨hdone, ?_, hanswered.played, ?_, fun j hj => ?_,
          hanswered.rests.mono fun j => Or.inl⟩
        · simpa [inHand] using hfed
        · show k < s.guest.requests
          omega
        · have hreader := hanswered.reader
          have hj' : s.guest.reader = .post j := hj
          rw [hj'] at hreader
          exact hreader.elim
    · subst heq
      have hdelivered := h.delivered k r₁ mail' hr₁ hsuperseded hreturned
      exact ⟨hdelivered.mail, hdelivered.fed, hdelivered.played, hdelivered.finished⟩

lemma DeliveryInv.ended (h : DeliveryInv s) {rest : List SpeechEvent} {cancelled : Bool}
    {mail : Mail} {inbox : List Mail} {w : Driver.WorkerPc}
    (hs : s.driver.worker = .wait job rest cancelled .getMessage)
    (hinbox : s.driver.inbox = mail :: inbox) (hended : Ended job rest mail w)
    (hd : d = { s.driver.record (fun r => { r with returned := some mail }) with
      inbox := inbox, worker := w })
    (hline : LineInv Known d) (hworker : WorkerInv Known d) :
    DeliveryInv { s with driver := d } := by
  have hwaits : waits s.driver.worker = some (job, .getMessage) := by rw [hs]; rfl
  have hw : waits w = none := by cases hended <;> rfl
  by_cases hcurrent : job.generation = s.driver.currentGeneration
  · -- the message is not audio
    have hended' : mail.message.generation = job.generation ∧
        mail.message.messageType ≠ some SamsungMessage.audio.code := by
      cases hended with
      | done hmail htype => exact ⟨hmail, by rw [htype]; decide⟩
      | failed hmail htype =>
          exact ⟨hmail, by rcases htype with htype | htype <;> rw [htype] <;> decide⟩
    refine h.done hs hcurrent hinbox hended'.1 (fun p hp heq => hended'.2 ?_) hw hd hline hworker
    rw [heq]
    exact congrArg some hp.1
  · obtain ⟨r, hr, -, -, hsuperseded⟩ := h.asked hwaits
    subst hd
    refine h.of_stale hline hworker hwaits hcurrent (fun j pc' hpc => ?_) rfl
      (fun m hm => by simp [hinbox, hm]) rfl rfl (sameRequests_record _ _ fun r' hr' => ?_)
    · rw [hw] at hpc
      cases hpc
    · obtain rfl := Option.some.inj (hr.symm.trans hr')
      exact Or.inr ⟨hsuperseded.2 hcurrent, hsuperseded.2 hcurrent⟩

lemma encode_ne_nil {text : PyString} {bytes : Bytes} (h : encode text = some bytes)
    (htext : text ≠ []) : bytes ≠ [] := by
  obtain ⟨c, text, rfl⟩ := List.exists_cons_of_ne_nil htext
  obtain ⟨parts, hparts, rfl⟩ := Option.map_eq_some_iff.1 h
  rw [List.mapM_cons] at hparts
  obtain ⟨point, hpoint, hparts⟩ := Option.bind_eq_some_iff.1 hparts
  obtain ⟨rest, -, hparts⟩ := Option.bind_eq_some_iff.1 hparts
  cases hparts
  have hne : point ≠ [] := by
    rw [encodePoint] at hpoint
    split at hpoint
    · cases hpoint
      exact String.utf8EncodeChar_ne_nil
    · cases hpoint
  simp [hne]

/-- A text that is known makes a request that the guest accepts. -/
lemma legal_of_speakFrame {generation : UInt32} {text : PyString} {frame : Frame}
    (h : speakFrame settings generation text = some frame) (hknown : Known (.text text)) :
    Legal frame ∧ isSpeak frame := by
  obtain ⟨payload, hpayload, hpack⟩ := Option.bind_eq_some_iff.1 h
  obtain ⟨bytes, hbytes, rfl⟩ := Option.map_eq_some_iff.1 hpayload
  have hne : bytes ≠ [] := encode_ne_nil hbytes fun hnil => hknown.2 (by rw [hnil])
  have hlength : (settings.options.toBytes ++ bytes).length =
      SamsungSpeakOptions.byteSize + bytes.length := by
    rw [List.length_append, SamsungSpeakOptions.length_toBytes]
  have hpos := List.length_pos_iff.2 hne
  rw [packFrame] at hpack
  split at hpack
  · cases hpack
    exact ⟨.speak _ _ (by omega) (by rw [hlength]; exact hknown.1 bytes hbytes), rfl⟩
  · cases hpack

lemma DeliveryInv.send (h : DeliveryInv s) {text : PyString} {rest : List SpeechEvent}
    {frame : Frame} (hs : s.driver.worker = .send job text rest)
    (hframe : speakFrame settings job.generation text = some frame)
    (hd : d = { s.driver with
      outgoing := s.driver.outgoing ++ [frame]
      requests := s.driver.requests ++
        [⟨job.call, rest.length, frame, [], [], none, !s.driver.isCurrent job⟩]
      worker := .wait job rest false .head })
    (hline : LineInv Known d) (hworker : WorkerInv Known d) :
    DeliveryInv { s with driver := d } := by
  subst hd
  have hknown : Known (.text text) := h.worker.events _ (by rw [hs]; exact List.mem_cons_self)
  obtain ⟨hlegal, hspeak⟩ := legal_of_speakFrame hframe hknown
  have hgeneration := generation_of_speakFrame hframe
  have hnone : waits s.driver.worker = none := by rw [hs]; rfl
  have hvacant := h.vacant_of_none hnone
  have hrunning : s.driver.running = true := h.links.started.resolve_left (by simp [hs])
  set request : Request := ⟨job.call, rest.length, frame, [], [], none, !s.driver.isCurrent job⟩
  have hget (k : ℕ) (r : Request) (hr : (s.driver.requests ++ [request])[k]? = some r) :
      s.driver.requests[k]? = some r ∨ k = s.driver.requests.length ∧ r = request := by
    rw [List.getElem?_append] at hr
    split at hr
    · exact Or.inl hr
    · obtain ⟨hk, hr⟩ := List.getElem?_eq_some_iff.1 hr
      rw [List.length_singleton] at hk
      exact Or.inr ⟨by omega, by rw [← hr]; simp⟩
  have hlinks : Links { s with driver := { s.driver with
      outgoing := s.driver.outgoing ++ [frame]
      requests := s.driver.requests ++ [request]
      worker := .wait job rest false .head } } := by
    refine ⟨Or.inr hrunning, ?_, h.links.alive, h.links.messages, h.links.small, h.links.taken,
      fun f hf => ?_, ?_, h.links.serving⟩
    · rintro j w ⟨⟩
      trivial
    · rcases List.mem_append.1 hf with hf | hf
      · exact h.links.legal f hf
      · exact List.mem_singleton.1 hf ▸ hlegal
    · show s.guest.requests + (s.driver.outgoing ++ [frame]).countP isSpeak =
        (s.driver.requests ++ [request]).length
      rw [List.countP_append, List.countP_singleton, if_pos hspeak, List.length_append,
        ← h.links.count]
      rfl
  refine ⟨hline, hworker, hlinks, fun hstale => ?_, fun j w hw hcurrent => ?_,
    fun k r hr hsuperseded hreturned => ?_, fun k r mail hr hsuperseded hreturned => ?_⟩
  · -- the request is superseded before it is sent
    have hne : frame.generation ≠ s.driver.currentGeneration := by
      rw [hgeneration]
      exact hstale job _ rfl
    refine ⟨hvacant.guest, fun f hf => ?_, hvacant.back⟩
    rcases List.mem_append.1 hf with hf | hf
    · exact hvacant.wire f hf
    · exact List.mem_singleton.1 hf ▸ hne
  · cases hw
    have hcurrent' : frame.generation = s.driver.currentGeneration := hgeneration.trans hcurrent
    refine ⟨request, by simp, ?_⟩
    have hlength : (s.driver.requests ++ [request]).length - 1 = s.driver.requests.length := by simp
    show Live _ ((s.driver.requests ++ [request]).length - 1) request .head
    rw [hlength]
    refine ⟨.wire s.driver.outgoing ?_ hspeak ?_, ?_, nofun⟩
    · exact fun e he => hcurrent'.symm ▸ hvacant.wire e he
    · exact hcurrent'.symm ▸ hvacant.guest
    · show [] ++ [] ++ ofGeneration frame.generation (pipeline s) = _
      rw [hcurrent', hvacant.back, (h.links.serving.untouched h.links.le_of_wire).sent]
      rfl
  · rcases hget k r hr with hr | ⟨rfl, rfl⟩
    · obtain ⟨-, j, w, hw, -⟩ := h.out k r hr hsuperseded hreturned
      rw [hnone] at hw
      cases hw
    · refine ⟨by simp, job, _, rfl, ?_⟩
      have hcurrent : s.driver.isCurrent job = true := by simpa [request] using hsuperseded
      exact isCurrent_iff.1 hcurrent
  · rcases hget k r hr with hr | ⟨rfl, rfl⟩
    · have hdelivered := h.delivered k r mail hr hsuperseded hreturned
      exact ⟨hdelivered.mail, hdelivered.fed, hdelivered.played, hdelivered.finished⟩
    · cases hreturned

lemma DeliveryInv.workerMove (h : DeliveryInv s)
    (hmove : Driver.WorkerMove settings scaleSample s.driver d) (hline : LineInv Known d)
    (hworker : WorkerInv Known d) : DeliveryInv { s with driver := d } := by
  have hrunning (hs : s.driver.worker ≠ .starting) : s.driver.running = true :=
    h.links.started.resolve_left hs
  cases hmove with
  | silent w hsilent => exact h.silent hsilent hline hworker
  | take job jobs hs hjobs =>
      exact h.of_driver hline hworker (by rw [hs]; rfl) (Or.inr (hrunning (by simp [hs])))
        rfl rfl rfl rfl
  | enter job hs hcurrent =>
      exact h.of_driver hline hworker (by rw [hs]; rfl) (Or.inr (hrunning (by simp [hs])))
        rfl rfl rfl rfl
  | shown job e w hshown =>
      obtain ⟨hbefore, hafter⟩ := shown_waits hshown
      have hstarting : s.driver.worker ≠ .starting := fun hs => by rw [hs] at hshown; cases hshown
      exact h.of_driver hline hworker (hafter.trans hbefore.symm) (Or.inr (hrunning hstarting)) rfl
        rfl rfl rfl
  | send job text rest frame hs hframe _ => exact h.send hs hframe rfl hline hworker
  | pass job rest cancelled mail inbox w hs hinbox hpassed =>
      exact h.pass hs hinbox hpassed rfl hline hworker
  | ended job rest cancelled mail inbox w hs hinbox hended =>
      exact h.ended hs hinbox hended rfl hline hworker
  | feed job rest cancelled mail data hs hdata => exact h.feed hs rfl hline hworker
  | stop job rest cancelled hs =>
      exact (h.links.calm job .stop (by rw [hs]; rfl)).elim
  | leave job hs =>
      exact h.of_driver hline hworker (by rw [hs]; rfl) (Or.inr (hrunning (by simp [hs])))
        rfl rfl rfl rfl

end Worker

lemma readerClear_of_ne {pc : ReaderPc} (h : readerGeneration? pc ≠ some g) : ReaderClear g pc := by
  cases pc with
  | post job => exact fun heq => h (congrArg some heq)
  | cancelLoad site generation => exact fun heq => h (congrArg some heq)
  | cancelStore site generation request => exact fun heq => h (congrArg some heq)
  | cancelSend site generation request => exact fun heq => h (congrArg some heq)
  | _ => trivial

lemma DeliveryInv.cancel (h : DeliveryInv s)
    (hfresh : nextGeneration s.driver.generation ∉ carried s)
    (ht : Driver.cancel s.driver = some d) (hline : LineInv Known d) (hworker : WorkerInv Known d) :
    DeliveryInv { s with driver := d } := by
  obtain ⟨-, rfl⟩ := exists_cancel ht
  simp only [carried, List.mem_append, List.mem_map, not_or, not_exists, not_and,
    Option.mem_toList] at hfresh
  obtain ⟨⟨⟨⟨⟨hjob, hwire⟩, hreader⟩, hpending⟩, hguest⟩, hback⟩ := hfresh
  have hlinks : Links { s with driver := { s.driver with
      main := .hostCancel s.driver.activeGeneration
      generation := nextGeneration s.driver.generation
      currentGeneration := nextGeneration s.driver.generation
      calls := s.driver.calls.mapIdx (Call.supersede s.driver.trace)
      requests := s.driver.requests.map Request.supersede } } :=
    h.links.of_driver h.links.started h.links.calm (fun _ hm => hm) rfl (List.length_map _)
  -- a request that has not been answered is superseded now
  have hget (k : ℕ) (r' : Request) (hr' : (s.driver.requests.map Request.supersede)[k]? = some r')
      (hsuperseded : r'.superseded = false) :
      ∃ r, s.driver.requests[k]? = some r ∧ r.superseded = false ∧ r.returned.isSome ∧
        SameRecord r r' := by
    rw [List.getElem?_map, Option.map_eq_some_iff] at hr'
    obtain ⟨r, hr, rfl⟩ := hr'
    have hor : (r.superseded || r.returned.isNone) = false := hsuperseded
    obtain ⟨hnot, hsome⟩ := Bool.or_eq_false_iff.1 hor
    exact ⟨r, hr, hnot, by simpa using hsome, ⟨rfl, rfl, rfl, hsuperseded.trans hnot.symm⟩⟩
  refine ⟨hline, hworker, hlinks, fun _ => ⟨⟨?_, ?_, ?_⟩, fun f hf => hwire f hf, ?_⟩,
    fun j w hw hcurrent => ?_, fun k r' hr' hsuperseded hreturned => ?_,
    fun k r' mail hr' hsuperseded hreturned => ?_⟩
  · exact readerClear_of_ne hreader
  · exact fun j hj => hpending j hj
  · exact fun j phase hj heq => absurd heq (hguest j (by
      have hj' : s.guest.worker = .busy j phase := hj
      rw [hj']
      rfl))
  · exact ofGeneration_eq_nil.2 fun m hm => hback m hm
  · obtain ⟨rest, cancelled, hs⟩ := exists_of_waits hw
    have hs' : s.driver.worker = .wait j rest cancelled w := hs
    exact absurd hcurrent (hjob j (by rw [hs']; rfl))
  · obtain ⟨r, -, -, hsome, hrecord⟩ := hget k r' hr' hsuperseded
    rw [← hrecord.returned, hreturned] at hsome
    cases hsome
  · obtain ⟨r, hr, hnot, -, hrecord⟩ := hget k r' hr' hsuperseded
    have hdelivered := h.delivered k r mail hr hnot (hrecord.returned ▸ hreturned)
    exact ⟨by rw [hrecord.frame]; exact hdelivered.mail, by rw [hrecord.fed]; exact hdelivered.fed,
      by rw [hrecord.frame]; exact hdelivered.played, hdelivered.finished⟩

/-- A CANCEL is written when no job is current, and it names an older generation. -/
lemma DeliveryInv.hostCancel (h : DeliveryInv s) {active : Option UInt32}
    (hmain : s.driver.main = .hostCancel active)
    (hd : d = { s.driver with
      outgoing := s.driver.outgoing ++ hostCancel s.driver.running active, main := .drain })
    (hline : LineInv Known d) (hworker : WorkerInv Known d) :
    DeliveryInv { s with driver := d } := by
  subst hd
  have hcancelling : s.driver.main.Cancelling := by rw [hmain]; trivial
  have hstale (job : Job) (pc : WaitPc) (hwaits : waits s.driver.worker = some (job, pc)) :
      job.generation ≠ s.driver.currentGeneration := by
    obtain ⟨rest, cancelled, hs⟩ := exists_of_waits hwaits
    exact h.line.stale hcancelling job (mem_line_of_worker (by rw [hs]; rfl))
  have hvacant := h.vacant hstale
  have hframes : ∀ f ∈ Driver.hostCancel s.driver.running active, ∃ g, active = some g ∧
      f = ⟨SamsungMessage.cancel.code, g, []⟩ := by
    intro f hf
    cases active with
    | none => cases hf
    | some g =>
        rw [Driver.hostCancel] at hf
        split at hf
        · exact ⟨g, rfl, List.mem_singleton.1 hf⟩
        · cases hf
  refine ⟨hline, hworker, ⟨h.links.started, h.links.calm, h.links.alive, h.links.messages,
      h.links.small, h.links.taken, fun f hf => ?_, ?_, h.links.serving⟩,
    fun _ => ⟨hvacant.guest, fun f hf => ?_, hvacant.back⟩,
    fun job pc hwaits hcurrent => absurd hcurrent (hstale job pc hwaits),
    fun k r hr hsuperseded hnone => ?_,
    fun k r mail hr hsuperseded hreturned => ?_⟩
  · rcases List.mem_append.1 hf with hf | hf
    · exact h.links.legal f hf
    · obtain ⟨g, -, rfl⟩ := hframes f hf
      exact .cancel g
  · have hzero : (Driver.hostCancel s.driver.running active).countP isSpeak = 0 := by
      refine List.countP_eq_zero.2 fun f hf => ?_
      obtain ⟨g, -, rfl⟩ := hframes f hf
      exact Bool.false_ne_true
    show _ + (s.driver.outgoing ++ Driver.hostCancel s.driver.running active).countP isSpeak = _
    rw [List.countP_append, hzero]
    exact h.links.count
  · rcases List.mem_append.1 hf with hf | hf
    · exact hvacant.wire f hf
    · obtain ⟨g, rfl, rfl⟩ := hframes f hf
      exact h.worker.cancelled g hmain
  · exact h.out k r hr hsuperseded hnone
  · have hdelivered := h.delivered k r mail hr hsuperseded hreturned
    exact ⟨hdelivered.mail, hdelivered.fed, hdelivered.played, hdelivered.finished⟩

lemma DeliveryInv.mainStep (h : DeliveryInv s) (ht : Driver.mainStep s.driver = some d)
    (hline : LineInv Known d) (hworker : WorkerInv Known d) :
    DeliveryInv { s with driver := d } := by
  unfold Driver.mainStep at ht
  split at ht
  case h_1 => cases ht
  case h_2 job hmain =>
    cases ht
    exact h.of_driver hline hworker rfl h.links.started rfl rfl rfl rfl
  case h_3 active hmain => cases ht; exact h.hostCancel hmain rfl hline hworker
  case h_4 hmain =>
    split at ht
    · cases ht; exact h.of_driver hline hworker rfl h.links.started rfl rfl rfl rfl
    · cases ht; exact h.of_driver hline hworker rfl h.links.started rfl rfl rfl rfl
  case h_5 hmain =>
    cases ht
    exact h.of_driver hline hworker rfl h.links.started rfl rfl rfl rfl

lemma DeliveryInv.hostStart (h : DeliveryInv s) (ht : Driver.hostStart s.driver true = some d)
    (hline : LineInv Known d) (hworker : WorkerInv Known d) :
    DeliveryInv { s with driver := d } := by
  unfold Driver.hostStart at ht
  split at ht
  case h_1 hs =>
    cases ht
    exact h.of_driver hline hworker (by rw [hs]; rfl) (Or.inr rfl) rfl rfl rfl rfl
  case h_2 job text rest hs =>
    split at ht
    · cases ht
    · cases ht
      exact h.of_driver hline hworker (by rw [hs]; rfl) (Or.inr rfl) rfl rfl rfl rfl
  case h_3 job rest cancelled hs =>
    exact (h.links.calm job .restart (by rw [hs]; rfl)).elim
  case h_4 => cases ht

lemma DeliveryInv.poll (h : DeliveryInv s) (ht : emptyQueue s.driver false false = some d)
    (hline : LineInv Known d) (hworker : WorkerInv Known d) :
    DeliveryInv { s with driver := d } := by
  unfold emptyQueue at ht
  split at ht
  case h_2 => cases ht
  case h_1 job rest cancelled hs =>
    split at ht
    · cases ht
    · cases ht
      have hrunning : s.driver.running = true := h.links.started.resolve_left (by simp [hs])
      refine h.of_same hline hworker (h.links.of_driver (Or.inr hrunning) (fun j w hw => ?_)
        (fun _ hm => hm) rfl rfl)
        ⟨rfl, rfl, rfl, .refl _, rfl, fun j w hw => ?_, fun j w hw _ => ?_⟩
      · cases hw
        simp [Calm]
      · cases hw
        exact ⟨_, by rw [hs]; rfl, fun _ => by simp [inHand]⟩
      · rw [hs] at hw
        cases hw
        exact ⟨_, rfl⟩

section Step

variable {settings : Settings} {scaleSample : ℤ → UInt16 → UInt16}

/-- What a step of the driver other than the arrival of a message does. -/
lemma DeliveryInv.drive (h : DeliveryInv s) {a : DriverAction} (ha : Orderly Known s.driver a)
    (ht : drive settings scaleSample s a = some t)
    (hstep : ∀ d, driverStep settings scaleSample s.driver a = some d → LineInv Known d →
      WorkerInv Known d → DeliveryInv { s with driver := d }) : DeliveryInv t := by
  obtain ⟨d, hd, rfl⟩ := Option.map_eq_some_iff.1 ht
  exact hstep d hd (h.line.driverStep ha hd) (h.worker.driverStep h.line ha hd)

/-! ### The reader thread of the host -/

/-- Steps that move messages along, or leave the driver as it is. -/
lemma DeliveryInv.of_pipeline (h : DeliveryInv s) (hline : LineInv Known t.driver)
    (hworker : WorkerInv Known t.driver) (hlinks : Links t) (hguest : t.guest = s.guest)
    (houtgoing : t.driver.outgoing = s.driver.outgoing)
    (hcurrent : t.driver.currentGeneration = s.driver.currentGeneration)
    (hrequests : SameRequests s.driver.requests t.driver.requests)
    (hwaits : t.driver.worker = s.driver.worker) (hpipeline : pipeline t = pipeline s) :
    DeliveryInv t := by
  refine h.of_same hline hworker hlinks ⟨hguest, houtgoing, hcurrent, hrequests, by rw [hpipeline],
    fun job pc hw => ⟨pc, by rwa [hwaits] at hw, fun _ => rfl⟩,
    fun job pc hw _ => ⟨pc, by rwa [hwaits]⟩⟩

lemma DeliveryInv.take (h : DeliveryInv s) (ht : take s = some t) : DeliveryInv t := by
  unfold System.take at ht
  split at ht
  case h_2 => cases ht
  case h_1 p rest hreader hincoming =>
    have hsmall : p.1.payload.length ≤ Host.maxPayload :=
      h.links.small p (by rw [hincoming]; exact List.mem_cons_self)
    rw [if_pos hsmall] at ht
    cases ht
    have hlt : s.taken < (sentFrames s.guest.log).length := by
      by_contra hge
      rw [SystemState.incoming, List.drop_of_length_le (not_lt.1 hge)] at hincoming
      cases hincoming
    have hrest : (sentFrames s.guest.log).drop (s.taken + 1) = rest := by
      rw [← List.tail_drop, ← SystemState.incoming, hincoming]
      rfl
    have hpipeline : pipeline { s with taken := s.taken + 1, hostReader := .put (mailOf p) } =
        pipeline s := by
      rw [pipeline, pipeline, hreader, hincoming, SystemState.incoming, hrest]
      rfl
    refine h.of_pipeline h.line h.worker ⟨h.links.started, h.links.calm, nofun, ?_, fun q hq => ?_,
      hlt, h.links.legal, h.links.count, h.links.serving⟩ rfl rfl rfl (.refl _) rfl hpipeline
    · rw [hpipeline]
      exact h.links.messages
    · refine h.links.small q ?_
      rw [hincoming]
      rw [SystemState.incoming, hrest] at hq
      exact List.mem_cons_of_mem _ hq

lemma DeliveryInv.put (h : DeliveryInv s) (ht : put settings scaleSample s = some t) :
    DeliveryInv t := by
  unfold System.put at ht
  split at ht
  case h_2 => cases ht
  case h_1 mail hreader =>
    obtain ⟨u, hu, rfl⟩ := Option.map_eq_some_iff.1 ht
    obtain ⟨d, hd, rfl⟩ := Option.map_eq_some_iff.1 hu
    have hline := h.line.driverStep (a := .arrive mail) trivial hd
    have hworker := h.worker.driverStep (a := .arrive mail) h.line trivial hd
    change arrive s.driver mail = some d at hd
    unfold arrive at hd
    split at hd
    case isFalse => cases hd
    case isTrue =>
      cases hd
      have htype : mail.message.messageType ≠ none :=
        h.links.messages mail (by simp [pipeline, hreader, HostReaderPc.mail?])
      rw [if_neg htype]
      have hrecord : SameRequests s.driver.requests (s.driver.record fun r =>
          if mail.message.generation = r.frame.generation then
            { r with arrived := r.arrived ++ [mail] }
          else r).requests := by
        refine sameRequests_record _ _ fun r _ => Or.inl ?_
        split
        · exact ⟨rfl, rfl, rfl, rfl⟩
        · exact .refl r
      have hpipeline : s.driver.inbox ++ [mail] ++ ([] ++ s.incoming.map mailOf) = pipeline s := by
        simp [pipeline, hreader, HostReaderPc.mail?]
      refine h.of_pipeline hline hworker ⟨h.links.started, h.links.calm, ?_, ?_, h.links.small,
        h.links.taken, h.links.legal, ?_, h.links.serving⟩ rfl rfl rfl hrecord rfl hpipeline
      · simp
      · exact fun m hm => h.links.messages m (hpipeline ▸ hm)
      · exact h.links.count.trans hrecord.length.symm

/-! ### The steps of the guest -/

lemma incoming_of_grows {log new : List GuestEvent} {n : ℕ} (h : n ≤ (sentFrames log).length) :
    (sentFrames (log ++ new)).drop n = (sentFrames log).drop n ++ sentFrames new := by
  rw [sentFrames_append, List.drop_append_of_le_length h]

/-- The messages of the generation are those for the request. -/
lemma ofGeneration_of_owned {k : ℕ} {new : List GuestEvent} (h : ∀ e ∈ new, Owned k g e) :
    ofGeneration g ((sentFrames new).map mailOf) = (sentFor k new).map mailOf := by
  rw [ofGeneration, List.filter_map, sentFor]
  refine congrArg (List.map mailOf) (List.filter_congr fun p hp => ?_)
  have howned : p.1.generation = g ↔ p.2 = some k := h _ (mem_sentFrames.1 hp)
  exact decide_eq_decide.2 howned

lemma ofGeneration_of_strange {new : List GuestEvent} (h : ∀ e ∈ new, Strange g e) :
    ofGeneration g ((sentFrames new).map mailOf) = [] := by
  refine ofGeneration_eq_nil.2 fun m hm => ?_
  obtain ⟨p, hp, rfl⟩ := List.mem_map.1 hm
  exact h _ (mem_sentFrames.1 hp)

lemma Grows.eq_of_past {k : ℕ} {log log' : List GuestEvent} (h : Grows (Past k) log log') :
    audioFor k log' = audioFor k log ∧ chunksFor k log' = chunksFor k log := by
  obtain ⟨new, rfl, hnew⟩ := h
  have haudio : audioFor k new = [] := by
    refine List.filter_eq_nil_iff.2 fun p hp => ?_
    obtain ⟨hsent, hk⟩ := List.mem_filter.1 hp
    rw [hnew _ (mem_sentFrames.1 hsent) (by simpa using hk)]
    exact Bool.false_ne_true
  have hchunks : chunksFor k new = [] := by
    refine List.filterMap_eq_nil_iff.2 fun e he => ?_
    cases e with
    | play request chunk => exact if_neg (hnew _ he)
    | _ => rfl
  rw [audioFor_append, chunksFor_append, haudio, hchunks]
  simp

/-- What a step of the guest leaves true, with the wire that it leaves. -/
structure GuestKeeps (s : SystemState) (guest : GuestState) (wire : List Frame) : Prop where
  serving : Serving guest
  small : Grows Small s.guest.log guest.log
  legal : ∀ f ∈ wire, f ∈ s.driver.outgoing
  count : guest.requests + wire.countP isSpeak = s.driver.requests.length
  clear : Vacant s.driver.currentGeneration s → Clear s.driver.currentGeneration guest ∧
    Grows (Strange s.driver.currentGeneration) s.guest.log guest.log
  stage : ∀ k f, s.guest.requests + s.driver.outgoing.countP isSpeak = k + 1 →
    Stage k f s.guest s.driver.outgoing →
      Stage k f guest wire ∧ Grows (Owned k f.generation) s.guest.log guest.log
  finished : ∀ k, Finished k s.guest → Finished k guest ∧ Grows (Past k) s.guest.log guest.log

lemma DeliveryInv.of_guest (h : DeliveryInv s) {guest : GuestState} {wire : List Frame}
    (hkeeps : GuestKeeps s guest wire) :
    DeliveryInv { s with driver := { s.driver with outgoing := wire }, guest := guest } := by
  have hpipeline {R : GuestEvent → Prop} (hgrows : Grows R s.guest.log guest.log) :
      ∃ new, guest.log = s.guest.log ++ new ∧ (∀ e ∈ new, R e) ∧
        pipeline { s with driver := { s.driver with outgoing := wire }, guest := guest } =
          pipeline s ++ (sentFrames new).map mailOf := by
    obtain ⟨new, hlog, hnew⟩ := hgrows
    refine ⟨new, hlog, hnew, ?_⟩
    show s.driver.inbox ++ (s.hostReader.mail?.toList ++
      ((sentFrames guest.log).drop s.taken).map mailOf) = _
    rw [hlog, incoming_of_grows h.links.taken, List.map_append]
    simp [pipeline, SystemState.incoming]
  have hlinks : Links { s with
      driver := { s.driver with outgoing := wire }, guest := guest } := by
    obtain ⟨new, hlog, hnew, hnext⟩ := hpipeline hkeeps.small
    refine ⟨h.links.started, h.links.calm, h.links.alive, fun m hm => ?_, fun p hp => ?_, ?_,
      fun f hf => h.links.legal f (hkeeps.legal f hf), hkeeps.count, hkeeps.serving⟩
    · rw [hnext] at hm
      rcases List.mem_append.1 hm with hm | hm
      · exact h.links.messages m hm
      · obtain ⟨p, -, rfl⟩ := List.mem_map.1 hm
        exact nofun
    · change p ∈ (sentFrames guest.log).drop s.taken at hp
      rw [hlog, incoming_of_grows h.links.taken] at hp
      rcases List.mem_append.1 hp with hp | hp
      · exact h.links.small p hp
      · exact hnew _ (mem_sentFrames.1 hp)
    · show s.taken ≤ (sentFrames guest.log).length
      rw [hlog, sentFrames_append, List.length_append]
      exact h.links.taken.trans (Nat.le_add_right _ _)
  have hline : LineInv Known { s.driver with outgoing := wire } :=
    h.line.of_same rfl rfl rfl rfl rfl rfl rfl
  have hworker : WorkerInv Known { s.driver with outgoing := wire } :=
    ⟨h.worker.asked, h.worker.events, h.worker.running, h.worker.active, h.worker.cancelled⟩
  refine ⟨hline, hworker, hlinks, fun hnone => ?_, fun job pc hwaits hcurrent => ?_, h.out,
    fun k r mail hr hsuperseded hreturned => ?_⟩
  · have hvacant := h.vacant hnone
    obtain ⟨hclear, hstrange⟩ := hkeeps.clear hvacant
    obtain ⟨new, -, hnew, hnext⟩ := hpipeline hstrange
    refine ⟨hclear, fun f hf => hvacant.wire f (hkeeps.legal f hf), ?_⟩
    rw [hnext, ofGeneration_append]
    exact (congrArg₂ (· ++ ·) hvacant.back (ofGeneration_of_strange hnew))
  · obtain ⟨r, hr, hlive⟩ := h.live job pc hwaits hcurrent
    obtain ⟨hstage, howned⟩ := hkeeps.stage _ _ (h.count_eq hwaits) hlive.stage
    obtain ⟨new, hlog, hnew, hnext⟩ := hpipeline howned
    refine ⟨r, hr, hstage, ?_, hlive.audio⟩
    show r.fed ++ inHand pc ++ _ = (sentFor _ guest.log).map mailOf
    rw [hnext, ofGeneration_append, hlog, sentFor_append, List.map_append, ← List.append_assoc,
      hlive.account, ofGeneration_of_owned hnew]
  · have hdelivered := h.delivered k r mail hr hsuperseded hreturned
    obtain ⟨hfinished, hpast⟩ := hkeeps.finished k hdelivered.finished
    obtain ⟨haudio, hchunks⟩ := Grows.eq_of_past hpast
    exact ⟨hdelivered.mail, by rw [haudio]; exact hdelivered.fed,
      by rw [hchunks]; exact hdelivered.played, hfinished⟩

/-- The guest's reader reads the next frame. -/
lemma DeliveryInv.receive (h : DeliveryInv s) (ht : receive s = some t) : DeliveryInv t := by
  unfold System.receive at ht
  split at ht
  case h_1 => cases ht
  case h_2 f rest hwire =>
    obtain ⟨guest, hguest, rfl⟩ := Option.map_eq_some_iff.1 ht
    rw [guestStep] at hguest
    split at hguest
    case isFalse => cases hguest
    case isTrue hpc =>
      have hf : Legal f := h.links.legal f (by rw [hwire]; exact List.mem_cons_self)
      have hserving := h.links.serving
      have hcount := h.links.count
      rw [hwire] at hcount
      have hmute := mute_receive hf hguest
      refine h.of_guest ⟨serving_receive hf hpc hserving hguest, ?_, ?_, ?_,
        fun hvacant => ⟨?_, ?_⟩, fun k f' hk hstage => ?_, fun k hk => ⟨hk.receive hf hguest, ?_⟩⟩
      · exact hmute.mono fun e he => by cases e <;> trivial
      · exact fun e he => by rw [hwire]; exact List.mem_cons_of_mem _ he
      · rw [← hcount, requests_receive hf hguest, List.countP_cons]
        split <;> omega
      · exact hvacant.guest.receive hf (hvacant.wire f (by rw [hwire]; exact List.mem_cons_self))
          hguest
      · exact hmute.mono fun e he => by cases e <;> trivial
      · rw [hwire] at hk hstage
        exact hstage.receive hf hserving hk hguest
      · exact hmute.mono fun e he => he.past

lemma DeliveryInv.serve (h : DeliveryInv s) {a : GuestAction}
    (hguest : ∀ guest, guestStep s.guest a = some guest →
      GuestKeeps s guest s.driver.outgoing) (ht : serve s a = some t) : DeliveryInv t := by
  obtain ⟨guest, hstep, rfl⟩ := Option.map_eq_some_iff.1 ht
  exact h.of_guest (hguest guest hstep)

lemma guestKeeps_worker {o : Option Outside} {guest : GuestState} (h : DeliveryInv s)
    (hmove : Guest.WorkerMove s.guest o guest) (ho : Succeeds o) :
    GuestKeeps s guest s.driver.outgoing := by
  have hs := h.links.serving
  refine ⟨hmove.serving ho hs, hmove.small hs, fun _ hf => hf, ?_,
    fun hvacant => hvacant.guest.workerMove hmove hs, fun k f hk hstage => ?_,
    fun k hk => hk.workerMove hmove hs⟩
  · rw [hmove.reader.2]
    exact h.links.count
  · exact hstage.workerMove hmove ho hs hk

lemma guestKeeps_reader {guest : GuestState} (h : DeliveryInv s)
    (hturn : ReaderTurn s.guest guest) : GuestKeeps s guest s.driver.outgoing := by
  have hs := h.links.serving
  refine ⟨hturn.serving hs, hturn.small, fun _ hf => hf, ?_,
    fun hvacant => hvacant.guest.readerTurn hturn, fun k f hk hstage => ?_,
    fun k hk => hk.readerTurn hturn⟩
  · have hrequests : guest.requests = s.guest.requests := by cases hturn <;> rfl
    rw [hrequests]
    exact h.links.count
  · exact hstage.readerTurn hturn hs hk

/-! ### Runs -/

lemma known_of_fits {items : List SpeechItem} (h : ∀ e ∈ speechEvents items, EventFits e) :
    ∀ e ∈ speechEvents items, Known e := by
  intro e he
  refine ⟨h e he, ?_⟩
  rintro rfl
  exact ne_nil_of_mem_speechEvents he rfl

/-- A step within bounds keeps the invariant. -/
lemma deliveryInv_systemStep {a : SystemAction} (h : DeliveryInv s) (ha : InBounds s a)
    (ht : systemStep settings scaleSample s a = some t) : DeliveryInv t := by
  cases a with
  | speak items =>
      refine h.drive (a := .speak items) (known_of_fits ha) ht fun d hd hline hworker => ?_
      obtain ⟨-, rfl | rfl⟩ := exists_speak hd
      · exact h
      · exact h.of_driver hline hworker rfl h.links.started rfl rfl rfl rfl
  | cancel =>
      have horderly : Orderly Known s.driver .cancel := by
        constructor
        · intro job hjob heq
          have hmem : job.generation ∈ s.driver.worker.job?.toList.map (·.generation) :=
            List.mem_map_of_mem (Option.mem_toList.2 hjob)
          rw [heq] at hmem
          exact ha (by simp only [carried, List.mem_append]; tauto)
        · intro mail hmail heq
          have hmem : mail.message.generation ∈ (pipeline s).map (·.message.generation) :=
            List.mem_map_of_mem (List.mem_append_left _ hmail)
          rw [heq] at hmem
          exact ha (List.mem_append_right _ hmem)
      exact h.drive horderly ht fun d hd => h.cancel ha hd
  | main => exact h.drive (a := .main) trivial ht fun d hd => h.mainStep hd
  | worker =>
      exact h.drive (a := .worker) trivial ht fun d hd =>
        h.workerMove (Driver.workerMove_workerStep hd)
  | start => exact h.drive (a := .hostStart true) trivial ht fun d hd => h.hostStart hd
  | poll => exact h.drive (a := .empty false false) trivial ht fun d hd => h.poll hd
  | receive => exact h.receive ht
  | guestReader =>
      exact h.serve (a := .reader) (fun guest hg =>
        guestKeeps_reader h (readerTurn h.links.serving hg)) ht
  | guestWorker =>
      exact h.serve (a := .worker) (fun guest hg =>
        guestKeeps_worker h (Guest.workerMove_workerStep hg) (Or.inl rfl)) ht
  | engine e =>
      exact h.serve (a := .outside e.outside) (fun guest hg =>
        guestKeeps_worker h (workerMove_outsideStep hg) (Or.inr ⟨e, ha, rfl⟩)) ht
  | take => exact h.take ht
  | put => exact h.put ht

lemma deliveryInv_initialState (generation : UInt32) : DeliveryInv (initialState generation) where
  line := lineInv_initialState generation
  worker := workerInv_initialState generation
  links :=
    { started := Or.inl rfl
      calm := nofun
      alive := nofun
      messages := nofun
      small := nofun
      taken := le_rfl
      legal := nofun
      count := rfl
      serving := serving_initialState }
  vacant := fun _ => ⟨⟨trivial, nofun, nofun⟩, nofun, rfl⟩
  live := nofun
  out := nofun
  delivered := nofun

end Step

end SamsungTVVoices.System
