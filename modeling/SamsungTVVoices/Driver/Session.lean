/-
Successive drivers on one host (`samsungTVVoices.py`, `_getSessionHost`, `SynthDriver.__init__`,
`terminate`, `_worker`, `_render`, `_synthesizeText`, `_restartHost`; `_SamsungHost.start`,
`_startOnce`, `stop`, `_reader`, `_putMessage`).

NVDA makes a driver after the `terminate` of the one before it has returned, which may be while
that one's worker still runs.  A step is one section under a lock, one operation on a queue or one
write to the helper.  The actions carry what comes from outside: the calls, what a helper sends,
whether a process starts, and which timers have run out.  A helper may send anything that has the
generation of a SPEAK it has been sent, or no generation.

A queue is made for every start of a helper, and a `get` goes on waiting at the queue where it has
begun.  What is heard of a job, and what a CANCEL makes the helper do, is left out.
-/
import SamsungTVVoices.Driver.Speech
import SamsungTVVoices.Host.Reader
import SamsungTVVoices.Lib.StepSystem

open StepSystem
open SamsungTVVoices.Host (Message)
open SamsungTVVoices.Driver (nextGeneration)

namespace SamsungTVVoices.Session

/-! ### The state -/

/-- A helper process with its reader thread, and the queue that was made for it. -/
structure Helper where
  /-- `process.poll()` is `None`. -/
  alive : Bool
  /-- `_stream` has been set. -/
  connected : Bool
  /-- The message that the reader is about to queue. -/
  hand : Option Message
  queue : List Message
  /-- The driver that has sent the last SPEAK of a generation. -/
  sender : UInt32 → Option ℕ

def Helper.new (alive : Bool) : Helper := ⟨alive, false, none, [], fun _ => none⟩

/-- The `_SamsungHost`. -/
structure SessionHost where
  generation : UInt32
  /-- The number of the helper of `_process`. -/
  process : Option ℕ
  /-- The helper of every queue that was made; the last queue is `_messages`. -/
  helpers : List Helper
  /-- The driver whose worker holds `_lifecycleLock`. -/
  lock : Option ℕ

/-- A job, with the number of its texts that are still to be synthesized. -/
structure Job where
  generation : UInt32
  texts : ℕ
deriving DecidableEq, Repr

/-- Where a call of `start` is; `again` if a second attempt follows a failure. -/
inductive StartPc where
  | test
  /-- Before `_lifecycleLock`. -/
  | lock (again : Bool)
  | connect (again : Bool) (p : ℕ)
  /-- Waiting for READY. -/
  | ready (again : Bool) (p : ℕ)
deriving DecidableEq, Repr

/-- Where a worker is. -/
inductive WorkerPc where
  | starting (pc : StartPc)
  /-- The head of the loop of `_worker`. -/
  | loop
  | get
  | check (job : Job)
  | enter (job : Job)
  /-- The head of the loop of `_render`. -/
  | head (job : Job)
  /-- In `_synthesizeText`, before its own `isRunning`. -/
  | synthesize (job : Job)
  | ensure (job : Job) (pc : StartPc)
  | send (job : Job)
  /-- The head of the message loop; whether `cancelledAt` is set. -/
  | wait (job : Job) (cancelled : Bool)
  /-- In `getMessage`, at the queue with this number. -/
  | poll (job : Job) (cancelled : Bool) (q : ℕ)
  /-- `_restartHost` -/
  | stop
  | restart (pc : StartPc)
  | ended
deriving DecidableEq, Repr

/-- Where the main thread is with a driver. -/
inductive MainPc where
  | ready
  /-- In `speak`, about to queue the job. -/
  | put (job : Job)
  /-- In `terminate`, about to call `cancel`. -/
  | cancel
  /-- In `cancel`, of its own or of `terminate`. -/
  | drain (terminating : Bool)
  /-- In `terminate`: `self._jobs.put(None)` -/
  | putNone
  | join
  | terminated
deriving DecidableEq, Repr

/-- A `SynthDriver`. -/
structure SynthDriver where
  currentGeneration : UInt32
  stopping : Bool
  jobs : List (Option Job)
  main : MainPc
  worker : WorkerPc
deriving DecidableEq, Repr

structure SessionState where
  host : SessionHost
  drivers : List SynthDriver

/-- The session before the first driver; its host may have handed out generations before. -/
def initialState (generation : UInt32) : SessionState :=
  ⟨⟨generation, none, [.new false], none⟩, []⟩

/-! ### The host -/

namespace SessionHost

/-- The number of `_messages`. -/
def messages (host : SessionHost) : ℕ := host.helpers.length - 1

/-- `isRunning` -/
def isRunning (host : SessionHost) : Bool :=
  match host.process with
  | none => false
  | some p => (host.helpers[p]?.map Helper.alive).getD false

/-- The queue with this number. -/
def queue (host : SessionHost) (q : ℕ) : List Message :=
  (host.helpers[q]?.map Helper.queue).getD []

/-- The driver that has sent the last SPEAK of the generation to the helper. -/
def sender (host : SessionHost) (p : ℕ) (generation : UInt32) : Option ℕ :=
  host.helpers[p]?.bind fun helper => helper.sender generation

def modify (host : SessionHost) (p : ℕ) (f : Helper → Helper) : SessionHost :=
  { host with helpers := host.helpers.modify p f }

/-- `_stopUnlocked`, and the lock is released. -/
def stopUnlocked (host : SessionHost) : SessionHost :=
  match host.process with
  | none => { host with lock := none }
  | some p => { host.modify p fun helper => { helper with alive := false } with
      process := none, lock := none }

/-- `_startOnce` from the lock to `subprocess.Popen`, which may fail. -/
def popen (host : SessionHost) (i : ℕ) (ok : Bool) : SessionHost :=
  let host := host.stopUnlocked
  { host with
    helpers := host.helpers ++ [.new ok]
    process := if ok then some host.helpers.length else none
    lock := if ok then some i else none }

/-- The first message of a queue is taken. -/
def take (host : SessionHost) (q : ℕ) : SessionHost :=
  host.modify q fun helper => { helper with queue := helper.queue.tail }

/-- `send` of a SPEAK by a driver. -/
def speak (host : SessionHost) (p : ℕ) (i : ℕ) (generation : UInt32) : SessionHost :=
  host.modify p fun helper =>
    { helper with sender := Function.update helper.sender generation (some i) }

end SessionHost

/-! ### A call of `start` -/

/-- How a step of `start` ends. -/
inductive Outcome where
  | goOn (pc : StartPc)
  | returned
  | raised

/-- After a failure of `_startOnce`. -/
def Outcome.failed (again : Bool) : Outcome := if again then .goOn (.lock false) else .raised

inductive SessionAction where
  /-- `SynthDriver.__init__` -/
  | create
  /-- The calls of the last driver. -/
  | speak (texts : ℕ)
  | cancel
  | terminate
  /-- The main thread goes on. -/
  | main
  /-- `join` runs out of time. -/
  | giveUp
  /-- The worker of a driver goes on. -/
  | worker (i : ℕ)
  /-- It has the lock in `_startOnce`; whether `Popen` works. -/
  | popen (i : ℕ) (ok : Bool)
  | connect (i : ℕ) (ok : Bool)
  /-- It takes a message; whether `_player.feed` raises. -/
  | take (i : ℕ) (raises : Bool)
  /-- The time for a message has run out; whether a second has passed since `cancelledAt`, and half
  a minute since the last message. -/
  | empty (i : ℕ) (cancelledLong stalled : Bool)
  /-- A SPEAK is packed and sent, or that raises. -/
  | send (i : ℕ) (ok : Bool)
  /-- A reader has a message, and its process is `_process`. -/
  | read (p : ℕ) (message : Message)
  | put (p : ℕ)
  /-- A helper process ends by itself. -/
  | die (p : ℕ)
deriving DecidableEq

/-- `start` -/
def startStep (host : SessionHost) (i : ℕ) : StartPc → SessionAction →
    Option (SessionHost × Outcome)
  | .test, .worker _ => some (host, if host.isRunning then .returned else .goOn (.lock true))
  | .lock again, .popen _ ok =>
      -- another worker holds `_lifecycleLock`
      if host.lock.isSome then none
      else if host.isRunning then some (host, .returned)
      else some (host.popen i ok,
        if ok then .goOn (.connect again host.helpers.length) else .failed again)
  | .connect again p, .connect _ ok =>
      if ok then
        some (host.modify p fun helper => { helper with connected := true }, .goOn (.ready again p))
      -- the connection was not made within five seconds, or the process has ended
      else some (host.stopUnlocked, .failed again)
  | .ready again p, .take _ _ =>
      match host.queue p with
      | [] => none
      | message :: _ =>
          -- whatever comes first must be READY
          if message.messageType = some SamsungMessage.ready.code then
            some ({ host.take p with lock := none }, .returned)
          else some ((host.take p).stopUnlocked, .failed again)
  | .ready again p, .empty _ _ _ =>
      if host.queue p = [] then some (host.stopUnlocked, .failed again) else none
  | _, _ => none

/-! ### The worker -/

namespace SynthDriver

/-- `_isCurrent` -/
def isCurrent (d : SynthDriver) (generation : UInt32) : Bool :=
  !d.stopping && generation == d.currentGeneration

def goTo (d : SynthDriver) (pc : WorkerPc) : SynthDriver := { d with worker := pc }

end SynthDriver

/-- What `_synthesizeText` does with a message. -/
def dispatch (job : Job) (cancelled raises current : Bool) (message : Message) : WorkerPc :=
  match message.messageType with
  -- `_restartHost`, and then an exception: the loop of `_worker` goes on
  | none => .stop
  | some type =>
      -- `continue`: the message is dropped
      if message.generation ≠ job.generation then .wait job cancelled
      else if type = SamsungMessage.audio.code then
        if current && raises then .loop else .wait job cancelled
      else if type = SamsungMessage.done.code then .head job
      else if type = SamsungMessage.cancelled.code then .loop
      else if type = SamsungMessage.error.code then .loop
      else .wait job cancelled

/-- Where a worker goes on after a step of `start`. -/
def resume (outcome : Outcome) (goOn : StartPc → WorkerPc) (returned : WorkerPc) : WorkerPc :=
  match outcome with
  | .goOn pc => goOn pc
  | .returned => returned
  | .raised => .loop

/-- The worker of driver `i`. -/
def workerStep (host : SessionHost) (i : ℕ) (d : SynthDriver) (a : SessionAction) :
    Option (SessionHost × SynthDriver) :=
  match d.worker with
  | .starting pc => (startStep host i pc a).map fun r => (r.1, d.goTo (resume r.2 .starting .loop))
  | .ensure job pc =>
      (startStep host i pc a).map fun r => (r.1, d.goTo (resume r.2 (.ensure job) (.send job)))
  | .restart pc => (startStep host i pc a).map fun r => (r.1, d.goTo (resume r.2 .restart .loop))
  | .loop =>
      match a with
      | .worker _ => some (host, d.goTo (if d.stopping then .ended else .get))
      | _ => none
  | .get =>
      match a, d.jobs with
      -- `None` is put by `terminate`
      | .worker _, none :: jobs => some (host, { d with jobs := jobs, worker := .ended })
      | .worker _, some job :: jobs => some (host, { d with jobs := jobs, worker := .check job })
      | _, _ => none
  | .check job =>
      match a with
      | .worker _ => some (host, d.goTo (if d.isCurrent job.generation then .enter job else .loop))
      | _ => none
  | .enter job =>
      match a with
      | .worker _ =>
          -- `_render` does not look at `_stopping`
          some (host, d.goTo (if job.generation = d.currentGeneration then .head job else .loop))
      | _ => none
  | .head job =>
      match a with
      | .worker _ =>
          some (host, d.goTo (
            if d.isCurrent job.generation = true ∧ job.texts ≠ 0 then
              .synthesize { job with texts := job.texts - 1 }
            else .loop))
      | _ => none
  | .synthesize job =>
      match a with
      | .worker _ => some (host, d.goTo (if host.isRunning then .send job else .ensure job .test))
      | _ => none
  | .send job =>
      match a with
      | .send _ ok =>
          match host.process with
          | some p =>
              -- `send` raises if the process has ended or there is no stream
              if ok = true ∧ host.isRunning = true ∧
                  (host.helpers[p]?.map Helper.connected) = some true then
                some (host.speak p i job.generation, d.goTo (.wait job false))
              else some (host, d.goTo .loop)
          | none => some (host, d.goTo .loop)
      | _ => none
  | .wait job cancelled =>
      match a with
      | .worker _ =>
          -- `getMessage` reads `_messages` here, and waits at that queue
          some (host, d.goTo (.poll job (cancelled || !d.isCurrent job.generation) host.messages))
      | _ => none
  | .poll job cancelled q =>
      match a with
      | .take _ raises =>
          match host.queue q with
          | [] => none
          | message :: _ =>
              some (host.take q,
                d.goTo (dispatch job cancelled raises (d.isCurrent job.generation) message))
      | .empty _ cancelledLong stalled =>
          if host.queue q = [] then
            some (host, d.goTo (
              if (cancelled && cancelledLong) || (stalled && d.isCurrent job.generation) then .stop
              else .wait job cancelled))
          else none
      | _ => none
  | .stop =>
      match a with
      | .worker _ =>
          -- `stop` waits for `_lifecycleLock`
          if host.lock.isSome then none else some (host.stopUnlocked, d.goTo (.restart .test))
      | _ => none
  | .ended => none

/-! ### The main thread -/

/-- The section of `cancel` under `_stateLock`. -/
def cancelSection (host : SessionHost) (d : SynthDriver) (terminating : Bool) :
    SessionHost × SynthDriver :=
  ({ host with generation := nextGeneration host.generation },
    { d with currentGeneration := nextGeneration host.generation, main := .drain terminating })

/-- The main thread in a call of a driver. -/
def mainStep (host : SessionHost) (d : SynthDriver) : SessionAction →
    Option (SessionHost × SynthDriver)
  | .speak texts =>
      if d.main = .ready then some (host, { d with main := .put ⟨d.currentGeneration, texts⟩ })
      else none
  | .cancel => if d.main = .ready then some (cancelSection host d false) else none
  | .terminate =>
      if d.main = .ready then some (host, { d with stopping := true, main := .cancel }) else none
  | .main =>
      match d.main with
      | .put job => some (host, { d with jobs := d.jobs ++ [some job], main := .ready })
      | .cancel => some (cancelSection host d true)
      | .drain terminating =>
          match d.jobs with
          | [] => some (host, { d with main := if terminating then .putNone else .ready })
          | _ :: jobs => some (host, { d with jobs := jobs })
      | .putNone => some (host, { d with jobs := d.jobs ++ [none], main := .join })
      | .join => if d.worker = .ended then some (host, { d with main := .terminated }) else none
      | .ready | .terminated => none
  | .giveUp => if d.main = .join then some (host, { d with main := .terminated }) else none
  | _ => none

/-! ### The steps -/

namespace SessionState

/-- Driver `i` has done something. -/
def update (s : SessionState) (i : ℕ) (r : SessionHost × SynthDriver) : SessionState :=
  ⟨r.1, s.drivers.set i r.2⟩

/-- The driver that has been made last. -/
def last (s : SessionState) : ℕ := s.drivers.length - 1

end SessionState

/-- `SynthDriver.__init__` -/
def create (s : SessionState) : SessionState where
  host := { s.host with generation := nextGeneration s.host.generation }
  drivers := s.drivers ++ [⟨nextGeneration s.host.generation, false, [], .ready, .starting .test⟩]

def maxsize : ℕ := 64

/-- The reader of helper `p`. -/
def readerStep (host : SessionHost) (p : ℕ) (helper : Helper) : SessionAction → Option SessionHost
  | .read _ message =>
      if host.process = some p ∧ helper.connected = true ∧ helper.hand = none ∧
          (message.generation = 0 ∨ helper.sender message.generation ≠ none) then
        some (host.modify p fun helper => { helper with hand := some message })
      else none
  | .put _ =>
      match helper.hand with
      | none => none
      | some message =>
          if helper.queue.length < maxsize then
            some (host.modify p fun helper =>
              { helper with hand := none, queue := helper.queue ++ [message] })
          else none
  | .die _ => some (host.modify p fun helper => { helper with alive := false })
  | _ => none

def sessionStep (s : SessionState) (a : SessionAction) : Option SessionState :=
  match a with
  | .create =>
      -- NVDA makes a driver when `terminate` of the last one has returned
      if ∀ d ∈ s.drivers.getLast?, d.main = .terminated then some (create s) else none
  | .speak _ | .cancel | .terminate | .main | .giveUp =>
      s.drivers[s.last]?.bind fun d => (mainStep s.host d a).map (s.update s.last)
  | .worker i | .popen i _ | .connect i _ | .take i _ | .empty i _ _ | .send i _ =>
      s.drivers[i]?.bind fun d => (workerStep s.host i d a).map (s.update i)
  | .read p _ | .put p | .die p =>
      s.host.helpers[p]?.bind fun helper =>
        (readerStep s.host p helper a).map fun host => { s with host := host }

end SamsungTVVoices.Session
