/-
What the guest reads, and the jobs that it makes of it (`main`, `synthesisWorker`).

A request that the reader accepts becomes a job, which the reader posts, which waits in
`pendingJob`, and which the worker takes; on the way it can only be replaced by a later one.
`jobsIn` are the jobs on this way, the oldest first, and `JobsInv` ties each of them to the
payload that it was read from.
-/
import SamsungTVVoices.Guest.Machine
import SamsungTVVoices.Lib.StepSystem

open StepSystem

namespace SamsungTVVoices.Guest

/-! ### What is read -/

/-- The generation of a message of this type, if `main` accepts its header. -/
def Incoming.generation? (type : SamsungMessage) : Incoming → Option UInt32
  | .message header _ =>
      if header.magic = samsungProtocolMagic ∧ header.size.toNat ≤ samsungProtocolMaxPayload ∧
        header.type = type.code then some header.generation
      else none
  | .closed => none

/-- The payload of a SPEAK that `main` accepts as a request. -/
def Incoming.request? : Incoming → Option Bytes
  | .message header payload =>
      if header.magic = samsungProtocolMagic ∧ header.size.toNat ≤ samsungProtocolMaxPayload ∧
        header.type = SamsungMessage.speak.code ∧
        SamsungSpeakOptions.byteSize < payload.length then some payload
      else none
  | .closed => none

/-- What the guest reads in the step. -/
def GuestAction.incoming? : GuestAction → Option Incoming
  | .receive incoming => some incoming
  | _ => none

/-- The generations of the messages of this type that the guest reads. -/
def generationsRead (type : SamsungMessage) (as : List GuestAction) : List UInt32 :=
  as.filterMap fun a => a.incoming?.bind (·.generation? type)

/-- The payloads of the requests that the guest accepts. -/
def requestsRead (as : List GuestAction) : List Bytes :=
  as.filterMap fun a => a.incoming?.bind (·.request?)

variable {s t : GuestState} {o : Option Outside}

/-- What `main` does with what it reads, by the SPEAK and the request in it. -/
inductive Heard (s : GuestState) : Option UInt32 → Option Bytes → GuestState → Prop
  | other (pc : ReaderPc) (hpc : pc = .shutStore ∨ pc = .quitStore ∨ pc = .head) :
      Heard s none none { s with reader := pc }
  | cancel (generation : UInt32) :
      Heard s none none { s.emit (.cancelRead generation) with
        reader := .cancelLoad .frame generation }
  | rejected (generation : UInt32) :
      Heard s (some generation) none { s with reader := .rejectEmpty generation }
  | accepted (generation : UInt32) (payload : Bytes) :
      Heard s (some generation) (some payload) { s.emit (.speak s.requests generation) with
        reader := .post ⟨s.requests, generation, .ofBytes payload,
          payload.drop SamsungSpeakOptions.byteSize⟩
        requests := s.requests + 1 }

lemma heard {incoming : Incoming} (h : receive s incoming = some t) :
    Heard s (incoming.generation? .speak) incoming.request? t := by
  cases incoming with
  | closed => cases h; exact .other .shutStore (Or.inl rfl)
  | message header payload =>
      rw [receive] at h
      split at h
      · next hbad =>
          have hnot : ¬ (header.magic = samsungProtocolMagic ∧
              header.size.toNat ≤ samsungProtocolMaxPayload) := fun hif =>
            hbad.elim (absurd hif.1) (absurd hif.2 ∘ not_le.2)
          cases h
          rw [Incoming.generation?, Incoming.request?, if_neg fun hif => hnot ⟨hif.1, hif.2.1⟩,
            if_neg fun hif => hnot ⟨hif.1, hif.2.1⟩]
          exact .other .shutStore (Or.inl rfl)
      next hgood =>
      rw [not_or, not_not, not_lt] at hgood
      split at h
      · cases h
      split at h
      · next hspeak =>
          rw [Incoming.generation?, Incoming.request?, if_pos ⟨hgood.1, hgood.2, hspeak⟩]
          split at h
          · next hempty =>
              cases h
              rw [if_neg fun hif => absurd hif.2.2.2 (not_lt.2 hempty)]
              exact .rejected header.generation
          · next htext =>
              cases h
              rw [if_pos ⟨hgood.1, hgood.2, hspeak, not_le.1 htext⟩]
              exact .accepted header.generation payload
      next hspeak =>
      rw [Incoming.generation?, Incoming.request?, if_neg fun hif => hspeak hif.2.2,
        if_neg fun hif => hspeak hif.2.2.1]
      split at h
      · cases h; exact .cancel header.generation
      split at h
      · cases h; exact .other .quitStore (Or.inr (Or.inl rfl))
      · cases h; exact .other .head (Or.inr (Or.inr rfl))

/-! ### The jobs -/

/-- The job that the reader is about to post. -/
def ReaderPc.posts : ReaderPc → Option SpeechJob
  | .post job => some job
  | _ => none

/-- The jobs in the guest. -/
def jobsIn (s : GuestState) : List SpeechJob :=
  s.worker.job?.toList ++ s.pendingJob.toList ++ s.reader.posts.toList

lemma WorkerMove.jobsIn_sublist (h : WorkerMove s o t) : (jobsIn t).Sublist (jobsIn s) := by
  cases h with
  | idle pc synth hidle =>
      rw [jobsIn, jobsIn, hidle.job_eq.1, hidle.job_eq.2]
  | take job hs hpending =>
      rw [jobsIn, jobsIn, hs, hpending]
      exact .refl _
  | clear job hs =>
      rw [jobsIn, jobsIn, hs]
      exact List.sublist_cons_self _ _
  | reset job hs => rw [jobsIn, jobsIn, hs]; exact .refl _
  | publish job hs => rw [jobsIn, jobsIn, hs]; exact .refl _
  | inner job phase phase' synth language model hs hmove => rw [jobsIn, jobsIn, hs]; exact .refl _
  | play job offset synth hs => rw [jobsIn, jobsIn, hs]; exact .refl _
  | message job phase phase' f hs hmessage => rw [jobsIn, jobsIn, hs]; exact .refl _

lemma ReaderMove.jobsIn_sublist (h : ReaderMove s t) : (jobsIn t).Sublist (jobsIn s) := by
  have hpass {pc : ReaderPc} (hpc : pc.posts = none) (l : List SpeechJob) :
      (l ++ pc.posts.toList).Sublist (l ++ s.reader.posts.toList) := by
    rw [hpc]
    exact List.Sublist.append_left (List.nil_sublist _) l
  cases h with
  | pass pc shuttingDown worker hpc hworker =>
      have hposts : pc.posts = none := by cases pc <;> first | rfl | exact hpc.elim
      rcases hworker with rfl | ⟨hasleep, rfl⟩
      · exact hpass hposts _
      · rw [jobsIn, jobsIn, hasleep]
        exact hpass hposts _
  | post job hs =>
      -- a job that waits is replaced
      rw [jobsIn, jobsIn, hs, List.append_assoc, List.append_assoc]
      exact (List.sublist_append_right s.pendingJob.toList [job]).append_left _
  | leave pc hpc f request =>
      have hposts : pc.posts = none := by cases pc <;> first | rfl | exact hpc.elim
      exact hpass hposts _
  | _ => exact hpass rfl _

/-- The job made of a payload. -/
def SpeechJob.MadeOf (job : SpeechJob) (payload : Bytes) : Prop :=
  job.options = .ofBytes payload ∧ job.text = payload.drop SamsungSpeakOptions.byteSize

/-- Each job in the guest is made of the payload with its number, and they are in order. -/
structure JobsInv (done : List GuestAction) (s : GuestState) : Prop where
  requests : s.requests = (requestsRead done).length
  madeOf : ∀ job ∈ jobsIn s, ∃ payload, (requestsRead done)[job.request]? = some payload ∧
    job.MadeOf payload
  order : (jobsIn s).Pairwise (·.request < ·.request)

lemma jobsInv_initial : JobsInv [] initialState := ⟨rfl, nofun, .nil⟩

lemma requestsRead_snoc (done : List GuestAction) (a : GuestAction) :
    requestsRead (done ++ [a]) =
      requestsRead done ++ (a.incoming?.bind (·.request?)).toList := by
  rw [requestsRead, List.filterMap_append, List.filterMap_cons]
  cases a.incoming?.bind (·.request?) <;> rfl

lemma generationsRead_snoc (type : SamsungMessage) (done : List GuestAction) (a : GuestAction) :
    generationsRead type (done ++ [a]) =
      generationsRead type done ++ (a.incoming?.bind (·.generation? type)).toList := by
  rw [generationsRead, List.filterMap_append, List.filterMap_cons]
  cases a.incoming?.bind (·.generation? type) <;> rfl

/-- A step that reads no request makes no job. -/
lemma JobsInv.keep {done : List GuestAction} {a : GuestAction} (hinv : JobsInv done s)
    (ha : a.incoming?.bind (·.request?) = none) (hrequests : t.requests = s.requests)
    (hjobs : (jobsIn t).Sublist (jobsIn s)) : JobsInv (done ++ [a]) t := by
  have hread : requestsRead (done ++ [a]) = requestsRead done := by
    rw [requestsRead_snoc, ha]
    exact List.append_nil _
  refine ⟨by rw [hread, hrequests, hinv.requests], fun job hjob => ?_, hinv.order.sublist hjobs⟩
  rw [hread]
  exact hinv.madeOf job (hjobs.subset hjob)

lemma Heard.jobsInv {new : Option UInt32} {payload : Option Bytes} {done : List GuestAction}
    {incoming : Incoming} (h : Heard s new payload t) (hpayload : incoming.request? = payload)
    (hread : s.reader = .read) (hinv : JobsInv done s) :
    JobsInv (done ++ [.receive incoming]) t := by
  have hposts : s.reader.posts = none := by rw [hread]; rfl
  have hsame (u : GuestState) (hworker : u.worker = s.worker)
      (hpending : u.pendingJob = s.pendingJob) (hu : u.reader.posts = none) :
      (jobsIn u).Sublist (jobsIn s) := by
    rw [jobsIn, jobsIn, hposts, hworker, hpending, hu]
  cases h with
  | other pc hpc =>
      refine hinv.keep hpayload rfl (hsame _ rfl rfl ?_)
      rcases hpc with rfl | rfl | rfl <;> rfl
  | cancel generation => exact hinv.keep hpayload rfl (hsame _ rfl rfl rfl)
  | rejected generation => exact hinv.keep hpayload rfl (hsame _ rfl rfl rfl)
  | accepted generation payload =>
      have hrequests : requestsRead (done ++ [.receive incoming]) =
          requestsRead done ++ [payload] := by
        rw [requestsRead_snoc]
        exact congrArg (requestsRead done ++ ·.toList) hpayload
      have hjobs : jobsIn { s.emit (.speak s.requests generation) with
          reader := .post ⟨s.requests, generation, .ofBytes payload,
            payload.drop SamsungSpeakOptions.byteSize⟩
          requests := s.requests + 1 } = jobsIn s ++ [⟨s.requests, generation, .ofBytes payload,
            payload.drop SamsungSpeakOptions.byteSize⟩] := by
        rw [jobsIn, jobsIn, hposts, Option.toList_none, List.append_nil]
        rfl
      refine ⟨?_, ?_, ?_⟩
      · rw [hrequests, List.length_append, ← hinv.requests]
        rfl
      · rw [hjobs, hrequests]
        intro job hjob
        rcases List.mem_append.1 hjob with hjob | hjob
        · obtain ⟨p, hp, hmade⟩ := hinv.madeOf job hjob
          exact ⟨p, List.getElem?_append_left (List.getElem?_eq_some_iff.1 hp).1 ▸ hp, hmade⟩
        · obtain rfl := List.mem_singleton.1 hjob
          exact ⟨payload, by simp [hinv.requests], rfl, rfl⟩
      · rw [hjobs]
        refine List.pairwise_append.2 ⟨hinv.order, List.pairwise_singleton _ _, ?_⟩
        rintro job hjob _ hnew
        obtain rfl := List.mem_singleton.1 hnew
        obtain ⟨p, hp, -⟩ := hinv.madeOf job hjob
        rw [hinv.requests]
        exact (List.getElem?_eq_some_iff.1 hp).1

/-- A job that `main` has just read has a new number. -/
lemma Heard.mem_jobsIn {new : Option UInt32} {payload : Option Bytes} (h : Heard s new payload t)
    {job : SpeechJob} (hjob : job ∈ jobsIn t) : job ∈ jobsIn s ∨ job.request = s.requests := by
  rcases List.mem_append.1 hjob with hold | hposts
  · left
    cases h <;> exact List.mem_append_left _ hold
  · cases h with
    | other pc hpc => rcases hpc with rfl | rfl | rfl <;> cases hposts
    | cancel generation => cases hposts
    | rejected generation => cases hposts
    | accepted generation payload =>
        obtain rfl := List.mem_singleton.1 hposts
        exact Or.inr rfl

lemma Heard.worker {new : Option UInt32} {payload : Option Bytes} (h : Heard s new payload t) :
    t.worker = s.worker ∧ s.requests ≤ t.requests := by
  cases h with
  | accepted generation payload => exact ⟨rfl, Nat.le_succ _⟩
  | _ => exact ⟨rfl, le_rfl⟩

lemma jobsInv_guestStep {done : List GuestAction} {a : GuestAction} (hinv : JobsInv done s)
    (h : guestStep s a = some t) : JobsInv (done ++ [a]) t := by
  cases a with
  | receive incoming =>
      rw [guestStep] at h
      split at h
      · next hread => exact (heard h).jobsInv rfl hread hinv
      · cases h
  | reader =>
      have hmove := readerMove h
      exact hinv.keep rfl (by cases hmove <;> rfl) hmove.jobsIn_sublist
  | worker =>
      have hmove := workerMove_workerStep h
      exact hinv.keep rfl hmove.reader.2 hmove.jobsIn_sublist
  | outside o =>
      have hmove := workerMove_outsideStep h
      exact hinv.keep rfl hmove.reader.2 hmove.jobsIn_sublist

end SamsungTVVoices.Guest
