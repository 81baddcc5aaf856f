/-
The driver's two threads (`samsungTVVoices.py`, `SynthDriver.speak`, `cancel`, `_worker`,
`_render`, `_synthesizeText`; `_SamsungHost.cancel`, `send`, `getMessage`).

NVDA's main thread calls `speak` and `cancel`, one call after the other.  A step is one section
under `_stateLock`, one operation on a queue, one write to the helper, one call of the player or
one notification, together with the local computation after it.  The actions carry what comes
from outside: the calls, the messages that the reader thread queues, whether the helper starts,
and which timers have run out when the queue stays empty.  `_stopping` is set only by
`terminate`, which is not among the calls here.

Some fields have no counterpart in the code and no effect on a step: the numbers of the calls,
the record of the calls and of the requests, and the trace.
-/
import SamsungTVVoices.Driver.Speech
import SamsungTVVoices.Host.Reader

open SamsungTVVoices.Host (Message)

namespace SamsungTVVoices.Driver

/-! ### The state -/

/-- A queued job, with the number of its call of `speak`. -/
structure Job where
  call : ℕ
  generation : UInt32
  events : List SpeechEvent
deriving DecidableEq, Repr

/-- A message in the host's queue, with the number of the request that it answers. -/
structure Mail where
  message : Message
  request : Option ℕ
deriving DecidableEq, Repr

/-- Where the main thread is. -/
inductive MainPc where
  | ready
  /-- In `speak`, about to queue the job. -/
  | put (job : Job)
  /-- In `cancel`, about to call `self._host.cancel(active)`. -/
  | hostCancel (active : Option UInt32)
  | drain
  | playerStop
deriving DecidableEq, Repr

/-- Where the worker is in the message loop of `_synthesizeText`. -/
inductive WaitPc where
  /-- The check at the head of the loop. -/
  | head
  | getMessage
  /-- No message for 30 seconds. -/
  | stalled
  /-- An AUDIO of this generation has come. -/
  | audio (mail : Mail)
  | feed (mail : Mail)
  /-- `_restartHost`. -/
  | stop
  | restart
deriving DecidableEq, Repr

/-- Where the worker is. -/
inductive WorkerPc where
  | starting
  | get
  /-- `_worker` checks the generation of the job. -/
  | check (job : Job)
  /-- `_render` enters. -/
  | enter (job : Job)
  /-- The head of the loop over the events, or its end. -/
  | head (job : Job) (rest : List SpeechEvent)
  | notify (job : Job) (index : ℤ) (rest : List SpeechEvent)
  /-- `_synthesizeText` makes sure that the helper runs. -/
  | ensure (job : Job) (text : PyString) (rest : List SpeechEvent)
  | send (job : Job) (text : PyString) (rest : List SpeechEvent)
  /-- In the message loop; whether `cancelledAt` is set. -/
  | wait (job : Job) (rest : List SpeechEvent) (cancelled : Bool) (pc : WaitPc)
  | completed (job : Job) (rest : List SpeechEvent)
  | idle (job : Job) (rest : List SpeechEvent)
  | notifyDone (job : Job)
  /-- The `finally` of `_render`. -/
  | leave (job : Job)
deriving DecidableEq, Repr

/-- What the worker does that is heard or that NVDA is told. -/
inductive TraceEvent where
  | feed (data : Bytes)
  | idle
  | index (index : ℤ)
  | doneSpeaking
deriving DecidableEq, Repr

/-- A call of `speak` that queues a job. -/
structure Call where
  events : List SpeechEvent
  /-- A `cancel` has come after it and before its `synthDoneSpeaking`. -/
  superseded : Bool
deriving DecidableEq, Repr

/-- A SPEAK that has been sent. -/
structure Request where
  call : ℕ
  /-- How many events of the job come after this one. -/
  left : ℕ
  frame : Frame
  /-- What has been queued with its generation since. -/
  arrived : List Mail
  /-- The AUDIO messages that have been fed. -/
  fed : List Mail
  /-- The message on which `_synthesizeText` returned or raised. -/
  returned : Option Mail
  /-- Its generation was superseded before `_synthesizeText` returned. -/
  superseded : Bool
deriving DecidableEq, Repr

structure DriverState where
  /-- `_generation` of the host. -/
  generation : UInt32
  currentGeneration : UInt32
  activeGeneration : Option UInt32
  /-- The helper runs. -/
  running : Bool
  jobs : List Job
  main : MainPc
  worker : WorkerPc
  /-- What has been written to the helper and not been read. -/
  outgoing : List Frame
  /-- `_messages`. -/
  inbox : List Mail
  trace : List (ℕ × TraceEvent)
  calls : List Call
  /-- The calls whose jobs a `cancel` has removed from the queue. -/
  removed : List ℕ
  requests : List Request

/-- The state after `__init__`; the host may have handed out generations before. -/
def initialState (generation : UInt32) : DriverState where
  generation := nextGeneration generation
  currentGeneration := nextGeneration generation
  activeGeneration := none
  running := false
  jobs := []
  main := .ready
  worker := .starting
  outgoing := []
  inbox := []
  trace := []
  calls := []
  removed := []
  requests := []

namespace DriverState

/-- The worker does something for the job. -/
def emit (s : DriverState) (job : Job) (e : TraceEvent) (pc : WorkerPc) : DriverState :=
  { s with trace := s.trace ++ [(job.call, e)], worker := pc }

/-- `_isCurrent`. -/
def isCurrent (s : DriverState) (job : Job) : Bool := job.generation == s.currentGeneration

/-- Change the record of the last request. -/
def record (s : DriverState) (f : Request → Request) : DriverState :=
  { s with requests := s.requests.modify (s.requests.length - 1) f }

end DriverState

/-! ### The main thread -/

/-- `speak`, up to the load of the generation. -/
def speak (s : DriverState) (speechSequence : List SpeechItem) : Option DriverState :=
  if s.main ≠ .ready then none
  else
    let events := speechEvents speechSequence
    if events = [] then some s
    else some { s with
      main := .put ⟨s.calls.length, s.currentGeneration, events⟩
      calls := s.calls ++ [⟨events, false⟩] }

/-- A `cancel` comes, for the call with this number. -/
def Call.supersede (trace : List (ℕ × TraceEvent)) (i : ℕ) (c : Call) : Call :=
  { c with superseded := c.superseded || decide ((i, .doneSpeaking) ∉ trace) }

/-- A `cancel` comes, for a request. -/
def Request.supersede (r : Request) : Request :=
  { r with superseded := r.superseded || r.returned.isNone }

/-- `cancel`, up to the end of the section under the lock. -/
def cancel (s : DriverState) : Option DriverState :=
  if s.main ≠ .ready then none
  else
    some { s with
      main := .hostCancel s.activeGeneration
      generation := nextGeneration s.generation
      currentGeneration := nextGeneration s.generation
      calls := s.calls.mapIdx (Call.supersede s.trace)
      requests := s.requests.map Request.supersede }

/-- What `self._host.cancel(active)` writes. -/
def hostCancel (running : Bool) : Option UInt32 → List Frame
  | none => []
  | some generation => if running then [⟨SamsungMessage.cancel.code, generation, []⟩] else []

/-- The other steps of the main thread. -/
def mainStep (s : DriverState) : Option DriverState :=
  match s.main with
  | .ready => none
  | .put job => some { s with jobs := s.jobs ++ [job], main := .ready }
  | .hostCancel active =>
      some { s with outgoing := s.outgoing ++ hostCancel s.running active, main := .drain }
  | .drain =>
      match s.jobs with
      | [] => some { s with main := .playerStop }
      -- `get_nowait` until it raises `queue.Empty`
      | job :: jobs => some { s with jobs := jobs, removed := s.removed ++ [job.call] }
  | .playerStop => some { s with main := .ready }

/-! ### The worker -/

section Worker

variable (settings : Settings) (scaleSample : ℤ → UInt16 → UInt16)

/-- What `_synthesizeText` does with a message. -/
def dispatch (s : DriverState) (job : Job) (rest : List SpeechEvent) (cancelled : Bool)
    (mail : Mail) : DriverState :=
  let goOn (pc : WaitPc) : DriverState := { s with worker := .wait job rest cancelled pc }
  let ended (pc : WorkerPc) : DriverState :=
    { s.record (fun r => { r with returned := some mail }) with worker := pc }
  match mail.message.messageType with
  -- an item of the reader itself: the helper has stopped
  | none => goOn .stop
  | some type =>
      -- the answer to an earlier request
      if mail.message.generation ≠ job.generation then goOn .head
      else if type = SamsungMessage.audio.code then goOn (.audio mail)
      else if type = SamsungMessage.done.code then ended (.completed job rest)
      else if type = SamsungMessage.cancelled.code then ended (.leave job)
      else if type = SamsungMessage.error.code then ended (.leave job)
      else goOn .head

/-- A turn of the message loop. -/
def waitStep (s : DriverState) (job : Job) (rest : List SpeechEvent) (cancelled : Bool) :
    WaitPc → Option DriverState
  | .head =>
      some { s with worker := .wait job rest (cancelled || !s.isCurrent job) .getMessage }
  | .getMessage =>
      match s.inbox with
      | [] => none
      | mail :: inbox => some (dispatch { s with inbox := inbox } job rest cancelled mail)
  | .stalled =>
      some { s with worker := .wait job rest cancelled (if s.isCurrent job then .stop else .head) }
  | .audio mail =>
      some { s with
        worker := .wait job rest cancelled (if s.isCurrent job then .feed mail else .head) }
  | .feed mail =>
      match scaleVolume scaleSample mail.message.payload settings.volume with
      | none => some { s with worker := .leave job }
      | some data =>
          some ((s.record fun r => { r with fed := r.fed ++ [mail] }).emit job (.feed data)
            (.wait job rest cancelled .head))
  | .stop =>
      some { s with
        running := false, outgoing := [], inbox := [], worker := .wait job rest cancelled .restart }
  | .restart => none

/-- The turn of the loop over the events, or what follows the loop. -/
def next (job : Job) : List SpeechEvent → WorkerPc
  | [] => .notifyDone job
  | .index i :: rest => .notify job i rest
  | .text t :: rest => .ensure job t rest

/-- The steps of the worker that need nothing from outside. -/
def workerStep (s : DriverState) : Option DriverState :=
  match s.worker with
  | .starting => none
  | .get =>
      match s.jobs with
      | [] => none
      | job :: jobs => some { s with jobs := jobs, worker := .check job }
  | .check job => some { s with worker := if s.isCurrent job then .enter job else .get }
  | .enter job =>
      if s.isCurrent job then
        some { s with activeGeneration := some job.generation, worker := .head job job.events }
      else some { s with worker := .get }
  | .head job rest =>
      some { s with worker := if s.isCurrent job then next job rest else .leave job }
  | .notify job i rest => some (s.emit job (.index i) (.head job rest))
  | .ensure job text rest =>
      if s.running then some { s with worker := .send job text rest } else none
  | .send job text rest =>
      match speakFrame settings job.generation text with
      | none => some { s with worker := .leave job }
      | some frame =>
          if s.running then
            some { s with
              outgoing := s.outgoing ++ [frame]
              requests := s.requests ++
                [⟨job.call, rest.length, frame, [], [], none, !s.isCurrent job⟩]
              worker := .wait job rest false .head }
          else some { s with worker := .leave job }
  | .wait job rest cancelled pc => waitStep settings scaleSample s job rest cancelled pc
  | .completed job rest =>
      some { s with worker := if s.isCurrent job then .idle job rest else .leave job }
  | .idle job rest => some (s.emit job .idle (.head job rest))
  | .notifyDone job => some (s.emit job .doneSpeaking (.leave job))
  | .leave job =>
      some { s with
        activeGeneration :=
          if s.activeGeneration = some job.generation then none else s.activeGeneration
        worker := .get }

/-- `self._host.start()` returns, or raises. -/
def hostStart (s : DriverState) (ok : Bool) : Option DriverState :=
  match s.worker with
  | .starting => some { s with running := ok, worker := .get }
  | .ensure job text rest =>
      if s.running then none
      else some { s with running := ok, worker := if ok then .send job text rest else .leave job }
  | .wait job _ _ .restart => some { s with running := ok, worker := .leave job }
  | _ => none

/-- `getMessage` raises `queue.Empty`; whether a second has passed since `cancelledAt`, and
half a minute since the last message. -/
def emptyQueue (s : DriverState) (cancelledLong stalled : Bool) : Option DriverState :=
  match s.worker with
  | .wait job rest cancelled .getMessage =>
      -- `get` raises `Empty` only on an empty queue
      if s.inbox ≠ [] then none
      else
        let pc : WaitPc :=
          if cancelled ∧ cancelledLong then .stop else if stalled then .stalled else .head
        some { s with worker := .wait job rest cancelled pc }
  | _ => none

/-- `maxsize` of the queue. -/
def inboxSize : ℕ := 64

/-- The reader thread puts a message into the queue. -/
def arrive (s : DriverState) (mail : Mail) : Option DriverState :=
  if s.inbox.length < inboxSize then
    some { s.record (fun r =>
        if mail.message.generation = r.frame.generation then
          { r with arrived := r.arrived ++ [mail] }
        else r) with
      inbox := s.inbox ++ [mail] }
  else none

/-- One step of the driver. -/
inductive DriverAction where
  | speak (speechSequence : List SpeechItem)
  | cancel
  | main
  | worker
  | hostStart (ok : Bool)
  | empty (cancelledLong stalled : Bool)
  | arrive (mail : Mail)
deriving DecidableEq, Repr

def driverStep (s : DriverState) : DriverAction → Option DriverState
  | .speak speechSequence => speak s speechSequence
  | .cancel => cancel s
  | .main => mainStep s
  | .worker => workerStep settings scaleSample s
  | .hostStart ok => hostStart s ok
  | .empty cancelledLong stalled => emptyQueue s cancelledLong stalled
  | .arrive mail => arrive s mail

/-! ### What a step of the worker can do -/

/-- The job that the worker is on. -/
def WorkerPc.job? : WorkerPc → Option Job
  | .starting | .get => none
  | .check job | .enter job | .head job _ | .notify job _ _ | .ensure job _ _ | .send job _ _
  | .wait job _ _ _ | .completed job _ | .idle job _ | .notifyDone job | .leave job => some job

/-- The moves of the worker that change only where it is. -/
inductive Silent (s : DriverState) : WorkerPc → WorkerPc → Prop
  | check (job : Job) (h : s.isCurrent job = true) : Silent s (.check job) (.enter job)
  | discard (job : Job) (h : s.isCurrent job = false) : Silent s (.check job) .get
  | refuse (job : Job) (h : s.isCurrent job = false) : Silent s (.enter job) .get
  | index (job : Job) (i : ℤ) (rest : List SpeechEvent) (h : s.isCurrent job = true) :
      Silent s (.head job (.index i :: rest)) (.notify job i rest)
  | text (job : Job) (t : PyString) (rest : List SpeechEvent) (h : s.isCurrent job = true) :
      Silent s (.head job (.text t :: rest)) (.ensure job t rest)
  | finished (job : Job) (h : s.isCurrent job = true) : Silent s (.head job []) (.notifyDone job)
  | cut (job : Job) (rest : List SpeechEvent) (h : s.isCurrent job = false) :
      Silent s (.head job rest) (.leave job)
  | running (job : Job) (t : PyString) (rest : List SpeechEvent) (h : s.running = true) :
      Silent s (.ensure job t rest) (.send job t rest)
  | unsent (job : Job) (t : PyString) (rest : List SpeechEvent)
      (h : speakFrame settings job.generation t = none ∨ s.running = false) :
      Silent s (.send job t rest) (.leave job)
  | loop (job : Job) (rest : List SpeechEvent) (cancelled : Bool) :
      Silent s (.wait job rest cancelled .head)
        (.wait job rest (cancelled || !s.isCurrent job) .getMessage)
  | fail (job : Job) (rest : List SpeechEvent) (cancelled : Bool) :
      Silent s (.wait job rest cancelled .stalled) (.wait job rest cancelled .stop)
  | endure (job : Job) (rest : List SpeechEvent) (cancelled : Bool) :
      Silent s (.wait job rest cancelled .stalled) (.wait job rest cancelled .head)
  | play (job : Job) (rest : List SpeechEvent) (cancelled : Bool) (mail : Mail)
      (h : s.isCurrent job = true) :
      Silent s (.wait job rest cancelled (.audio mail)) (.wait job rest cancelled (.feed mail))
  | drop (job : Job) (rest : List SpeechEvent) (cancelled : Bool) (mail : Mail)
      (h : s.isCurrent job = false) :
      Silent s (.wait job rest cancelled (.audio mail)) (.wait job rest cancelled .head)
  | unscaled (job : Job) (rest : List SpeechEvent) (cancelled : Bool) (mail : Mail)
      (h : scaleVolume scaleSample mail.message.payload settings.volume = none) :
      Silent s (.wait job rest cancelled (.feed mail)) (.leave job)
  | idle (job : Job) (rest : List SpeechEvent) (h : s.isCurrent job = true) :
      Silent s (.completed job rest) (.idle job rest)
  | late (job : Job) (rest : List SpeechEvent) (h : s.isCurrent job = false) :
      Silent s (.completed job rest) (.leave job)

/-- Where the message loop goes on when the queue stays empty. -/
inductive Polled (cancelled : Bool) : WaitPc → Prop
  | poll : Polled cancelled .head
  | giveUp (h : cancelled = true) : Polled cancelled .stop
  | stalled : Polled cancelled .stalled

/-- The moves of the worker that show in the trace, other than feeding. -/
inductive Shown : WorkerPc → Job → TraceEvent → WorkerPc → Prop
  | index (job : Job) (i : ℤ) (rest : List SpeechEvent) :
      Shown (.notify job i rest) job (.index i) (.head job rest)
  | idle (job : Job) (rest : List SpeechEvent) :
      Shown (.idle job rest) job .idle (.head job rest)
  | doneSpeaking (job : Job) : Shown (.notifyDone job) job .doneSpeaking (.leave job)

/-- Where the message loop goes on after a message that does not end it. -/
inductive Passed (job : Job) (mail : Mail) : WaitPc → Prop
  | stopped (h : mail.message.messageType = none) : Passed job mail .stop
  | stale (h : mail.message.generation ≠ job.generation) : Passed job mail .head
  | audio (h : mail.message.generation = job.generation)
      (htype : mail.message.messageType = some SamsungMessage.audio.code) :
      Passed job mail (.audio mail)
  | unknown (h : mail.message.generation = job.generation)
      (htype : mail.message.messageType ≠ some SamsungMessage.audio.code)
      (htype' : mail.message.messageType ≠ some SamsungMessage.done.code) : Passed job mail .head

/-- Where the worker goes after a message that ends the loop. -/
inductive Ended (job : Job) (rest : List SpeechEvent) (mail : Mail) : WorkerPc → Prop
  | done (h : mail.message.generation = job.generation)
      (htype : mail.message.messageType = some SamsungMessage.done.code) :
      Ended job rest mail (.completed job rest)
  | failed (h : mail.message.generation = job.generation)
      (htype : mail.message.messageType = some SamsungMessage.cancelled.code ∨
        mail.message.messageType = some SamsungMessage.error.code) :
      Ended job rest mail (.leave job)

/-- What a step of the worker does to the state. -/
inductive WorkerMove (s : DriverState) : DriverState → Prop
  | silent (pc : WorkerPc) (h : Silent settings scaleSample s s.worker pc) :
      WorkerMove s { s with worker := pc }
  | take (job : Job) (jobs : List Job) (hs : s.worker = .get) (hjobs : s.jobs = job :: jobs) :
      WorkerMove s { s with jobs := jobs, worker := .check job }
  | enter (job : Job) (hs : s.worker = .enter job) (h : s.isCurrent job = true) :
      WorkerMove s { s with
        activeGeneration := some job.generation, worker := .head job job.events }
  | shown (job : Job) (e : TraceEvent) (pc : WorkerPc) (h : Shown s.worker job e pc) :
      WorkerMove s (s.emit job e pc)
  | send (job : Job) (t : PyString) (rest : List SpeechEvent) (frame : Frame)
      (hs : s.worker = .send job t rest)
      (hframe : speakFrame settings job.generation t = some frame)
      (hrunning : s.running = true) :
      WorkerMove s { s with
        outgoing := s.outgoing ++ [frame]
        requests := s.requests ++ [⟨job.call, rest.length, frame, [], [], none, !s.isCurrent job⟩]
        worker := .wait job rest false .head }
  | pass (job : Job) (rest : List SpeechEvent) (cancelled : Bool) (mail : Mail) (inbox : List Mail)
      (pc : WaitPc) (hs : s.worker = .wait job rest cancelled .getMessage)
      (hinbox : s.inbox = mail :: inbox) (h : Passed job mail pc) :
      WorkerMove s { s with inbox := inbox, worker := .wait job rest cancelled pc }
  | ended (job : Job) (rest : List SpeechEvent) (cancelled : Bool) (mail : Mail)
      (inbox : List Mail) (pc : WorkerPc) (hs : s.worker = .wait job rest cancelled .getMessage)
      (hinbox : s.inbox = mail :: inbox) (h : Ended job rest mail pc) :
      WorkerMove s { s.record (fun r => { r with returned := some mail }) with
        inbox := inbox, worker := pc }
  | feed (job : Job) (rest : List SpeechEvent) (cancelled : Bool) (mail : Mail) (data : Bytes)
      (hs : s.worker = .wait job rest cancelled (.feed mail))
      (hdata : scaleVolume scaleSample mail.message.payload settings.volume = some data) :
      WorkerMove s ((s.record fun r => { r with fed := r.fed ++ [mail] }).emit job (.feed data)
        (.wait job rest cancelled .head))
  | stop (job : Job) (rest : List SpeechEvent) (cancelled : Bool)
      (hs : s.worker = .wait job rest cancelled .stop) :
      WorkerMove s { s with
        running := false, outgoing := [], inbox := [], worker := .wait job rest cancelled .restart }
  | leave (job : Job) (hs : s.worker = .leave job) :
      WorkerMove s { s with
        activeGeneration :=
          if s.activeGeneration = some job.generation then none else s.activeGeneration
        worker := .get }

variable {settings scaleSample} {s t : DriverState}

lemma workerMove_dispatch {job : Job} {rest : List SpeechEvent} {cancelled : Bool} {mail : Mail}
    {inbox : List Mail} (hs : s.worker = .wait job rest cancelled .getMessage)
    (hinbox : s.inbox = mail :: inbox) :
    WorkerMove settings scaleSample s
      (dispatch { s with inbox := inbox } job rest cancelled mail) := by
  rw [dispatch]
  split
  · next htype => exact .pass job rest cancelled mail inbox .stop hs hinbox (.stopped htype)
  · next type htype =>
      split
      · next h => exact .pass job rest cancelled mail inbox .head hs hinbox (.stale h)
      next h =>
      rw [not_not] at h
      split
      · next haudio =>
          exact .pass job rest cancelled mail inbox _ hs hinbox (.audio h (by rw [htype, haudio]))
      next haudio =>
      split
      · next hdone =>
          exact .ended job rest cancelled mail inbox _ hs hinbox (.done h (by rw [htype, hdone]))
      next hdone =>
      split
      · next hcancelled =>
          exact .ended job rest cancelled mail inbox _ hs hinbox
            (.failed h (Or.inl (by rw [htype, hcancelled])))
      split
      · next herror =>
          exact .ended job rest cancelled mail inbox _ hs hinbox
            (.failed h (Or.inr (by rw [htype, herror])))
      · refine .pass job rest cancelled mail inbox .head hs hinbox (.unknown h ?_ ?_)
        · rw [htype]
          simpa using haudio
        · rw [htype]
          simpa using hdone

lemma workerMove_waitStep {job : Job} {rest : List SpeechEvent} {cancelled : Bool} {pc : WaitPc}
    (hs : s.worker = .wait job rest cancelled pc)
    (h : waitStep settings scaleSample s job rest cancelled pc = some t) :
    WorkerMove settings scaleSample s t := by
  cases pc with
  | head => cases h; exact .silent _ (hs ▸ .loop job rest cancelled)
  | getMessage =>
      rw [waitStep] at h
      split at h
      · cases h
      · next mail inbox hinbox => cases h; exact workerMove_dispatch hs hinbox
  | stalled =>
      cases h
      refine .silent _ (hs ▸ ?_)
      split
      · exact .fail job rest cancelled
      · exact .endure job rest cancelled
  | audio mail =>
      cases h
      refine .silent _ (hs ▸ ?_)
      split
      · next hcurrent => exact .play job rest cancelled mail hcurrent
      · next hcurrent => exact .drop job rest cancelled mail (by simpa using hcurrent)
  | feed mail =>
      rw [waitStep] at h
      split at h
      · next hdata => cases h; exact .silent _ (hs ▸ .unscaled job rest cancelled mail hdata)
      · next data hdata => cases h; exact .feed job rest cancelled mail data hs hdata
  | stop => cases h; exact .stop job rest cancelled hs
  | restart => cases h

lemma workerMove_workerStep (h : workerStep settings scaleSample s = some t) :
    WorkerMove settings scaleSample s t := by
  unfold workerStep at h
  split at h
  case h_1 => cases h
  case h_2 hs =>
    split at h
    · cases h
    · next job jobs hjobs => cases h; exact .take job jobs hs hjobs
  case h_3 job hs =>
    cases h
    refine .silent _ (hs ▸ ?_)
    split
    · next hcurrent => exact .check job hcurrent
    · next hcurrent => exact .discard job (by simpa using hcurrent)
  case h_4 job hs =>
    split at h
    · next hcurrent => cases h; exact .enter job hs hcurrent
    · next hcurrent => cases h; exact .silent _ (hs ▸ .refuse job (by simpa using hcurrent))
  case h_5 job rest hs =>
    cases h
    refine .silent _ (hs ▸ ?_)
    split
    · next hcurrent =>
        cases rest with
        | nil => exact .finished job hcurrent
        | cons e rest =>
            cases e with
            | index i => exact .index job i rest hcurrent
            | text text => exact .text job text rest hcurrent
    · next hcurrent => exact .cut job rest (by simpa using hcurrent)
  case h_6 job i rest hs => cases h; exact .shown job _ _ (hs ▸ .index job i rest)
  case h_7 job text rest hs =>
    split at h
    · next hrunning => cases h; exact .silent _ (hs ▸ .running job text rest hrunning)
    · cases h
  case h_8 job text rest hs =>
    split at h
    · next hframe => cases h; exact .silent _ (hs ▸ .unsent job text rest (Or.inl hframe))
    · next frame hframe =>
        split at h
        · next hrunning => cases h; exact .send job text rest frame hs hframe hrunning
        · next hrunning =>
            cases h
            exact .silent _ (hs ▸ .unsent job text rest (Or.inr (by simpa using hrunning)))
  case h_9 job rest cancelled pc hs => exact workerMove_waitStep hs h
  case h_10 job rest hs =>
    cases h
    refine .silent _ (hs ▸ ?_)
    split
    · next hcurrent => exact .idle job rest hcurrent
    · next hcurrent => exact .late job rest (by simpa using hcurrent)
  case h_11 job rest hs => cases h; exact .shown job _ _ (hs ▸ .idle job rest)
  case h_12 job hs => cases h; exact .shown job _ _ (hs ▸ .doneSpeaking job)
  case h_13 job hs => cases h; exact .leave job hs

lemma exists_polled {cancelledLong stalled : Bool}
    (h : emptyQueue s cancelledLong stalled = some t) :
    ∃ job rest cancelled pc, s.worker = .wait job rest cancelled .getMessage ∧ s.inbox = [] ∧
      t = { s with worker := .wait job rest cancelled pc } ∧ Polled cancelled pc ∧
        (pc = .stalled → stalled = true) := by
  unfold emptyQueue at h
  split at h
  case h_1 job rest cancelled hs =>
    split at h
    · cases h
    · next hinbox =>
        cases h
        refine ⟨job, rest, cancelled, _, hs, not_not.1 hinbox, rfl, ?_, ?_⟩
        · split
          · next hlong => exact .giveUp hlong.1
          · split
            · exact .stalled
            · exact .poll
        · split
          · exact nofun
          · split
            · next hstalled => exact fun _ => hstalled
            · exact nofun
  case h_2 => cases h

lemma isCurrent_iff {job : Job} : s.isCurrent job = true ↔ job.generation = s.currentGeneration :=
  beq_iff_eq

lemma isCurrent_eq_false_iff {job : Job} :
    s.isCurrent job = false ↔ job.generation ≠ s.currentGeneration := beq_eq_false_iff_ne

end Worker

end SamsungTVVoices.Driver
