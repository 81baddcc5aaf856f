/-
The guest's two threads (`samsung_guest.cpp`, `main`, `cancelActive`, `synthesisWorker`).

A step is one atomic load or store, one section under `jobMutex`, one message, one part of the
wait on the condition variable, or one turn of the engine, together with the local computation
after it.  The load of `cancelling` at the head of the chunk loop and the call of the engine
that it guards are two steps, and the reader may come in between.  The actions carry what comes
from outside: the frames that arrive, the results of the engine's calls, and when it calls back.

Every request that the reader accepts gets a number, which the code does not have; only the
log uses it, to say which request a call or a message belongs to.
-/
import SamsungTVVoices.Guest.Channel

open FixedDigits

namespace SamsungTVVoices.Guest

/-! ### Chunks -/

/-- A byte inside a UTF-8 code point: `(c & 0xC0) == 0x80`. -/
def isContinuation (c : UInt8) : Bool := c &&& 0xC0 == 0x80

/-- A byte that a chunk may end after. -/
def isBreak (c : UInt8) : Bool := c == 32 || c == 10 || c == 9

/-- `targetBytes`. -/
def targetBytes : ℕ := 160

/-- The `while` loop of `nextChunkEnd`: back to the start of a code point. -/
def backToStart (text : Bytes) (start : ℕ) : ℕ → ℕ
  | 0 => 0
  | e + 1 =>
      if start < e + 1 ∧ isContinuation (text.getD (e + 1) 0) then backToStart text start e
      else e + 1

/-- The `for` loop of `nextChunkEnd`: the last break behind `minimumBreak`. -/
def lastBreak (text : Bytes) (minimumBreak : ℕ) : ℕ → Option ℕ
  | 0 => none
  | position + 1 =>
      if minimumBreak < position + 1 then
        if isBreak (text.getD position 0) then some (position + 1)
        else lastBreak text minimumBreak position
      else none

/-- `nextChunkEnd`. -/
def nextChunkEnd (text : Bytes) (start : ℕ) : ℕ :=
  if text.length - start ≤ targetBytes then text.length
  else
    let e := backToStart text start (start + targetBytes)
    (lastBreak text (start + targetBytes / 2) e).getD e

/-! ### The engine -/

/-- The calls on a `CSmtSynth`. -/
inductive EngineCall where
  | setLanguage (language mode : Int32)
  | setHybrid (enabled : Int32)
  | modelSelect (model : Int32)
  | init (rootPath libraryPath : String)
  | setSamplingRate (sampleRate : Int32)
  | setChannel (channels : Int32)
  | setMemory (size count : Int32)
  | setStreamCallback
  | voiceControl (pitch headSize rate : Int32)
  | setControlStart
  | setControlStop
  | startStreamingPlayUtf8 (text : Bytes)
deriving DecidableEq, Repr

/-- The calls of `initializeSynth`, each with whether its result is checked. -/
def initCalls (options : SamsungSpeakOptions) : List (EngineCall × Bool) :=
  [(.setLanguage options.language 0, true), (.setHybrid 0, true),
    (.modelSelect options.model, true),
    (.init "/opt/smt/runtime/" "/opt/smt/runtime/Lib/", true),
    (.setSamplingRate 48000, true), (.setChannel 1, true), (.setMemory 12000 8, false),
    (.setStreamCallback, true)]

/-- Make the calls up to the first checked one that does not return 1. -/
def makeCalls (result : EngineCall → Int32) : List (EngineCall × Bool) → List EngineCall × Bool
  | [] => ([], true)
  | (call, checked) :: rest =>
      if checked ∧ result call ≠ 1 then ([call], false)
      else
        let r := makeCalls result rest
        (call :: r.1, r.2)

/-- `initializeSynth`: the calls made on the new object, and whether it succeeded. -/
def initializeSynth (result : EngineCall → Int32) (options : SamsungSpeakOptions) :
    List EngineCall × Bool :=
  makeCalls result (initCalls options)

/-! ### The state -/

/-- `SpeechJob`, with the number of its request. -/
structure SpeechJob where
  request : ℕ
  generation : UInt32
  options : SamsungSpeakOptions
  text : Bytes
deriving DecidableEq, Repr

/-- Where the worker is in `streamCallback`. -/
inductive CallbackPc where
  | loadGeneration
  | loadCancelling (generation : UInt32)
  | send (generation : UInt32)
deriving DecidableEq, Repr

/-- Where the worker is with its job. -/
inductive Phase where
  /-- `cancelling.store(false)`. -/
  | reset
  /-- `activeGeneration.store(job.generation)`. -/
  | publish
  /-- The engine is initialised if it is not the one for the job. -/
  | prepare
  | sendInitError
  | control
  /-- The head of the chunk loop: the load of `cancelling`. -/
  | loop (offset : ℕ)
  /-- `cancelling` was not set: about to call the engine for the chunk at `offset`. -/
  | call (offset : ℕ)
  /-- In the engine's call for the chunk from `offset` to `next`. -/
  | playing (offset next : ℕ)
  /-- In the engine's call, in the callback. -/
  | callback (offset next : ℕ) (samples : Option (List UInt16)) (pc : CallbackPc)
  /-- After the loop: the load that decides on a reply. -/
  | stop (succeeded : Bool)
  | reply (succeeded : Bool)
  /-- `activeGeneration.store(0)`. -/
  | clear
deriving DecidableEq, Repr

/-- Where the worker is.  It holds `jobMutex` in `sleepy` and `woken`. -/
inductive WorkerPc where
  | head
  /-- About to lock the mutex and to evaluate the predicate of the wait. -/
  | predicate
  /-- The predicate was false; about to release the mutex and to sleep. -/
  | sleepy
  | asleep
  /-- The predicate was true. -/
  | woken
  | busy (job : SpeechJob) (phase : Phase)
  | exited
deriving DecidableEq, Repr

/-- Who calls `cancelActive`. -/
inductive CancelSite where
  | frame | quit | shutdown
deriving DecidableEq, Repr

/-- Where the reader, the main thread, is. -/
inductive ReaderPc where
  | head
  | read
  | rejectEmpty (generation : UInt32)
  | post (job : SpeechJob)
  | notifyOne
  /-- In `cancelActive`; the request is the one that the worker was on at the load. -/
  | cancelLoad (site : CancelSite) (generation : UInt32)
  | cancelStore (site : CancelSite) (generation : UInt32) (request : Option ℕ)
  | cancelSend (site : CancelSite) (generation : UInt32) (request : Option ℕ)
  | quitStore | quitLoad | quitNotify
  | shutStore | shutLoad | shutNotify
  | join
  | exited
deriving DecidableEq, Repr

/-- What is observed of the guest. -/
inductive GuestEvent where
  /-- The reader has read a request that it accepts. -/
  | speak (request : ℕ) (generation : UInt32)
  | cancelRead (generation : UInt32)
  | cancelHandled (generation : UInt32)
  /-- The worker calls `SMTStartStreamingPlayUtf8`. -/
  | play (request : ℕ) (chunk : Bytes)
  /-- A message, and the request that it answers. -/
  | sent (message : Frame) (request : Option ℕ)
deriving DecidableEq, Repr

structure GuestState where
  shuttingDown : Bool
  cancelling : Bool
  activeGeneration : UInt32
  /-- `pendingJob`, if `hasPendingJob`. -/
  pendingJob : Option SpeechJob
  reader : ReaderPc
  worker : WorkerPc
  /-- The engine object, if there is one, as the calls made on it. -/
  synth : Option (List EngineCall)
  currentLanguage : Int32
  currentModel : Int32
  /-- The number of requests accepted so far. -/
  requests : ℕ
  log : List GuestEvent

namespace GuestState

/-- Add to the log. -/
def emit (s : GuestState) (e : GuestEvent) : GuestState := { s with log := s.log ++ [e] }

/-- `sendMessage`. -/
def send (s : GuestState) (type : SamsungMessage) (generation : UInt32) (payload : Bytes)
    (request : Option ℕ) : GuestState :=
  s.emit (.sent ⟨type.code, generation, payload⟩ request)

/-- The worker goes on with its job. -/
def goOn (s : GuestState) (job : SpeechJob) (phase : Phase) : GuestState :=
  { s with worker := .busy job phase }

/-- `jobChanged.notify_one()` and `notify_all()`: only the worker waits. -/
def notify (s : GuestState) : GuestState :=
  if s.worker = .asleep then { s with worker := .predicate } else s

/-- The worker holds `jobMutex`. -/
def locked (s : GuestState) : Prop := s.worker = .sleepy ∨ s.worker = .woken

instance (s : GuestState) : Decidable s.locked := inferInstanceAs (Decidable (_ ∨ _))

/-- The request that the worker has published. -/
def activeRequest (s : GuestState) : Option ℕ :=
  match s.worker with
  | .busy job phase => if phase = .reset ∨ phase = .publish then none else some job.request
  | _ => none

end GuestState

/-- The state when the worker starts: `ready` has been sent. -/
def initialState : GuestState where
  shuttingDown := false
  cancelling := false
  activeGeneration := 0
  pendingJob := none
  reader := .head
  worker := .head
  synth := none
  currentLanguage := -1
  currentModel := -1
  requests := 0
  log := [.sent ⟨SamsungMessage.ready.code, 0, []⟩ none]

/-! ### The reader -/

/-- What `main` reads next: a header with a payload of its size, or the end of the channel. -/
inductive Incoming where
  | message (header : SamsungMessageHeader) (payload : Bytes)
  | closed
deriving DecidableEq, Repr

/-- The frame that a sender of this protocol puts on the channel. -/
def Incoming.ofFrame (f : Frame) : Incoming := .message f.header f.payload

/-- Where the reader goes when `cancelActive` returns. -/
def afterCancel (s : GuestState) (generation : UInt32) : CancelSite → GuestState
  | .frame => { s.emit (.cancelHandled generation) with reader := .head }
  | .quit => { s with reader := .quitNotify }
  | .shutdown => { s with reader := .shutNotify }

/-- The turn of the loop in `main` for what has been read. -/
def receive (s : GuestState) : Incoming → Option GuestState
  | .closed => some { s with reader := .shutStore }
  | .message header payload =>
      if header.magic ≠ samsungProtocolMagic ∨ samsungProtocolMaxPayload < header.size.toNat then
        some { s with reader := .shutStore }
      -- `readExact` waits for the whole payload
      else if payload.length ≠ header.size.toNat then none
      else if header.type = SamsungMessage.speak.code then
        -- the options and at least one byte of text
        if payload.length ≤ SamsungSpeakOptions.byteSize then
          some { s with reader := .rejectEmpty header.generation }
        else
          let job : SpeechJob :=
            { request := s.requests
              generation := header.generation
              options := .ofBytes payload
              text := payload.drop SamsungSpeakOptions.byteSize }
          some { s.emit (.speak s.requests header.generation) with
            reader := .post job
            requests := s.requests + 1 }
      else if header.type = SamsungMessage.cancel.code then
        some { s.emit (.cancelRead header.generation) with
          reader := .cancelLoad .frame header.generation }
      else if header.type = SamsungMessage.quit.code then some { s with reader := .quitStore }
      -- an unknown type is skipped
      else some { s with reader := .head }

/-- The other steps of the reader. -/
def readerStep (s : GuestState) : Option GuestState :=
  match s.reader with
  | .head => some { s with reader := if s.shuttingDown then .shutStore else .read }
  | .read => none
  | .rejectEmpty generation =>
      some { s.send .error generation (utf8 "The speech request was empty.") none with
        reader := .head }
  | .post job =>
      -- a job that still waits is replaced
      if s.locked then none else some { s with pendingJob := some job, reader := .notifyOne }
  | .notifyOne => some { s.notify with reader := .head }
  | .cancelLoad site generation =>
      -- `activeGeneration` is looked up without `jobMutex`
      if s.activeGeneration ≠ generation then some (afterCancel s generation site)
      else some { s with reader := .cancelStore site generation s.activeRequest }
  | .cancelStore site generation request =>
      some { s with cancelling := true, reader := .cancelSend site generation request }
  | .cancelSend site generation request =>
      some (afterCancel (s.send .cancelled generation [] request) generation site)
  | .quitStore => some { s with shuttingDown := true, reader := .quitLoad }
  | .quitLoad => some { s with reader := .cancelLoad .quit s.activeGeneration }
  | .quitNotify => some { s.notify with reader := .shutStore }
  | .shutStore => some { s with shuttingDown := true, reader := .shutLoad }
  | .shutLoad => some { s with reader := .cancelLoad .shutdown s.activeGeneration }
  | .shutNotify => some { s.notify with reader := .join }
  | .join => if s.worker = .exited then some { s with reader := .exited } else none
  | .exited => none

/-! ### The worker -/

/-- Whether the engine is the one for the job. -/
def engineFits (s : GuestState) (options : SamsungSpeakOptions) : Bool :=
  s.synth.isSome && s.currentLanguage == options.language && s.currentModel == options.model

/-- The engine after `releaseSynth` and an initialisation with these results. -/
def replaceEngine (s : GuestState) (options : SamsungSpeakOptions)
    (result : EngineCall → Int32) : GuestState :=
  let r := initializeSynth result options
  if r.2 then
    { s with synth := some r.1, currentLanguage := options.language, currentModel := options.model }
  else { s with synth := none, currentLanguage := -1, currentModel := -1 }

/-- A call on the engine object. -/
def callEngine (s : GuestState) (call : EngineCall) : GuestState :=
  { s with synth := s.synth.map (· ++ [call]) }

/-- The steps of the worker on its job that need nothing from outside. -/
def jobStep (s : GuestState) (job : SpeechJob) : Phase → Option GuestState
  | .reset => some ({ s with cancelling := false }.goOn job .publish)
  | .publish => some ({ s with activeGeneration := job.generation }.goOn job .prepare)
  | .prepare => if engineFits s job.options then some (s.goOn job .control) else none
  | .sendInitError =>
      some ((s.send .error job.generation (utf8 "The Samsung voice could not be initialized.")
        (some job.request)).goOn job .clear)
  | .control =>
      let s := callEngine s
        (.voiceControl job.options.pitch job.options.headSize job.options.rate)
      some ((callEngine s .setControlStart).goOn job (.loop 0))
  | .loop offset =>
      some (s.goOn job
        (if offset < job.text.length ∧ s.cancelling = false then .call offset else .stop true))
  | .call offset =>
      let next := nextChunkEnd job.text offset
      let chunk := (job.text.drop offset).take (next - offset)
      some (((callEngine s (.startStreamingPlayUtf8 chunk)).emit (.play job.request chunk)).goOn
        job (.playing offset next))
  | .playing _ _ => none
  | .callback offset next samples .loadGeneration =>
      some (s.goOn job (if s.activeGeneration = 0 then .playing offset next
        else .callback offset next samples (.loadCancelling s.activeGeneration)))
  | .callback offset next samples (.loadCancelling generation) =>
      some (s.goOn job (if s.cancelling ∨ samples.getD [] = [] then .playing offset next
        else .callback offset next samples (.send generation)))
  | .callback offset next samples (.send generation) =>
      some ((s.send .audio generation (sampleBytes (samples.getD [])) (some job.request)).goOn job
        (.playing offset next))
  | .stop succeeded =>
      let s := callEngine s .setControlStop
      some (s.goOn job (if s.cancelling then .clear else .reply succeeded))
  | .reply true => some ((s.send .done job.generation [] (some job.request)).goOn job .clear)
  | .reply false =>
      some ((s.send .error job.generation (utf8 "Samsung synthesis failed.")
        (some job.request)).goOn job .clear)
  | .clear => some { s with activeGeneration := 0, worker := .head }

/-- The steps of the worker that need nothing from outside. -/
def workerStep (s : GuestState) : Option GuestState :=
  match s.worker with
  | .head =>
      if s.shuttingDown then some { s with worker := .exited, synth := none }
      else some { s with worker := .predicate }
  | .predicate =>
      some { s with worker := if s.pendingJob.isSome ∨ s.shuttingDown then .woken else .sleepy }
  | .sleepy => some { s with worker := .asleep }
  | .asleep => none
  | .woken =>
      if s.shuttingDown then some { s with worker := .exited, synth := none }
      else s.pendingJob.map fun job => { s with pendingJob := none, worker := .busy job .reset }
  | .busy job phase => jobStep s job phase
  | .exited => none

/-- What the engine does, and what the condition variable may do. -/
inductive Outside where
  /-- The results of an initialisation. -/
  | initResults (result : EngineCall → Int32)
  /-- The engine calls back with these samples; `none` is a null pointer. -/
  | callback (samples : Option (List UInt16))
  /-- The engine's call returns. -/
  | return (result : Int32)
  /-- The wait ends without a notification. -/
  | wake

/-- The steps of the worker that the outside decides. -/
def outsideStep (s : GuestState) (o : Outside) : Option GuestState :=
  match s.worker, o with
  | .asleep, .wake => some { s with worker := .predicate }
  | .busy job .prepare, .initResults result =>
      if engineFits s job.options then none
      else
        let s := replaceEngine s job.options result
        some (s.goOn job (if s.synth.isSome then .control else .sendInitError))
  | .busy job (.playing offset next), .callback samples =>
      some (s.goOn job (.callback offset next samples .loadGeneration))
  | .busy job (.playing _ next), .return result =>
      some (s.goOn job (if result = 1 then .loop next else .stop false))
  | _, _ => none

/-! ### The guest -/

/-- One step of the guest, by the thread that takes it. -/
inductive GuestAction where
  | receive (incoming : Incoming)
  | reader
  | worker
  | outside (o : Outside)

def guestStep (s : GuestState) : GuestAction → Option GuestState
  | .receive incoming => if s.reader = .read then receive s incoming else none
  | .reader => readerStep s
  | .worker => workerStep s
  | .outside o => outsideStep s o

/-! ### What the reader can do with what arrives -/

/-- What `main` does to the state with what it has read. -/
inductive ReceiveMove (s : GuestState) : GuestState → Prop
  | pass (pc : ReaderPc) (h : pc = .shutStore ∨ pc = .head ∨ pc = .quitStore ∨
      ∃ generation, pc = .rejectEmpty generation) : ReceiveMove s { s with reader := pc }
  | speak (generation : UInt32) (options : SamsungSpeakOptions) (text : Bytes) :
      ReceiveMove s { s with
        reader := .post ⟨s.requests, generation, options, text⟩
        requests := s.requests + 1
        log := s.log ++ [.speak s.requests generation] }
  | cancel (generation : UInt32) :
      ReceiveMove s { s with
        reader := .cancelLoad .frame generation
        log := s.log ++ [.cancelRead generation] }

lemma receiveMove {s t : GuestState} {incoming : Incoming} (h : receive s incoming = some t) :
    ReceiveMove s t := by
  cases incoming with
  | closed => cases h; exact .pass .shutStore (by simp)
  | message header payload =>
      rw [receive] at h
      split at h
      · cases h; exact .pass .shutStore (by simp)
      split at h
      · exact absurd h (by simp)
      split at h
      · split at h
        · cases h; exact .pass (.rejectEmpty header.generation) (by simp)
        · cases h; exact .speak header.generation _ _
      split at h
      · cases h; exact .cancel header.generation
      split at h
      · cases h; exact .pass .quitStore (by simp)
      · cases h; exact .pass .head (by simp)

/-! ### What the other steps of the reader can do -/

/-- The reader has neither a job to post nor a cancel to carry out. -/
def ReaderPc.Plain : ReaderPc → Prop
  | .post _ => False
  | .cancelStore _ _ _ => False
  | .cancelSend _ _ _ => False
  | _ => True

/-- What a step of the reader other than the reading of a frame does to the state. -/
inductive ReaderMove (s : GuestState) : GuestState → Prop
  | pass (pc : ReaderPc) (shuttingDown : Bool) (worker : WorkerPc) (hpc : pc.Plain)
      (hworker : worker = s.worker ∨ s.worker = .asleep ∧ worker = .predicate) :
      ReaderMove s { s with reader := pc, shuttingDown := shuttingDown, worker := worker }
  | reject (f : Frame) :
      ReaderMove s { s with reader := .head, log := s.log ++ [.sent f none] }
  | post (job : SpeechJob) (hs : s.reader = .post job) :
      ReaderMove s { s with pendingJob := some job, reader := .notifyOne }
  | miss (generation : UInt32) (hs : s.reader = .cancelLoad .frame generation)
      (h : s.activeGeneration ≠ generation) :
      ReaderMove s { s with reader := .head, log := s.log ++ [.cancelHandled generation] }
  | hit (site : CancelSite) (generation : UInt32) (hs : s.reader = .cancelLoad site generation)
      (h : s.activeGeneration = generation) :
      ReaderMove s { s with reader := .cancelStore site generation s.activeRequest }
  | store (site : CancelSite) (generation : UInt32) (request : Option ℕ)
      (hs : s.reader = .cancelStore site generation request) :
      ReaderMove s { s with cancelling := true, reader := .cancelSend site generation request }
  | answer (generation : UInt32) (request : Option ℕ)
      (hs : s.reader = .cancelSend .frame generation request) :
      ReaderMove s { s with
        reader := .head
        log := s.log ++ [.sent ⟨SamsungMessage.cancelled.code, generation, []⟩ request] ++
          [.cancelHandled generation] }
  | leave (pc : ReaderPc) (hpc : pc.Plain) (f : Frame) (request : Option ℕ) :
      ReaderMove s { s with reader := pc, log := s.log ++ [.sent f request] }

lemma notify_eq (s : GuestState) : ∃ worker, s.notify = { s with worker := worker } ∧
    (worker = s.worker ∨ s.worker = .asleep ∧ worker = .predicate) := by
  rw [GuestState.notify]
  split
  · next hs => exact ⟨.predicate, rfl, Or.inr ⟨hs, rfl⟩⟩
  · exact ⟨s.worker, rfl, Or.inl rfl⟩

lemma readerMove {s t : GuestState} (h : readerStep s = some t) : ReaderMove s t := by
  obtain ⟨worker, hnotify, hworker⟩ := notify_eq s
  unfold readerStep at h
  split at h
  case h_1 =>
    cases h
    refine .pass _ s.shuttingDown s.worker ?_ (Or.inl rfl)
    split <;> trivial
  case h_2 => cases h
  case h_3 => cases h; exact .reject _
  case h_4 job hs =>
    split at h
    · exact absurd h (by simp)
    · cases h; exact .post job hs
  case h_5 =>
    rw [hnotify] at h
    cases h; exact .pass .head s.shuttingDown worker trivial hworker
  case h_6 site generation hs =>
    split at h
    · next hne =>
        cases h
        cases site with
        | frame => exact .miss generation hs hne
        | quit => exact .pass .quitNotify s.shuttingDown s.worker trivial (Or.inl rfl)
        | shutdown => exact .pass .shutNotify s.shuttingDown s.worker trivial (Or.inl rfl)
    · next heq => cases h; exact .hit site generation hs (not_not.1 heq)
  case h_7 site generation request hs => cases h; exact .store site generation request hs
  case h_8 site generation request hs =>
    cases h
    cases site with
    | frame => exact .answer generation request hs
    | quit => exact .leave .quitNotify trivial _ request
    | shutdown => exact .leave .shutNotify trivial _ request
  case h_9 => cases h; exact .pass .quitLoad true s.worker trivial (Or.inl rfl)
  case h_10 => cases h; exact .pass _ s.shuttingDown s.worker trivial (Or.inl rfl)
  case h_11 =>
    rw [hnotify] at h
    cases h; exact .pass .shutStore s.shuttingDown worker trivial hworker
  case h_12 => cases h; exact .pass .shutLoad true s.worker trivial (Or.inl rfl)
  case h_13 => cases h; exact .pass _ s.shuttingDown s.worker trivial (Or.inl rfl)
  case h_14 =>
    rw [hnotify] at h
    cases h; exact .pass .join s.shuttingDown worker trivial hworker
  case h_15 =>
    split at h
    · cases h; exact .pass .exited s.shuttingDown s.worker trivial (Or.inl rfl)
    · exact absurd h (by simp)
  case h_16 => cases h

/-! ### What a step of the worker can do -/

/-- The job that the worker is on. -/
def WorkerPc.job? : WorkerPc → Option SpeechJob
  | .busy job _ => some job
  | _ => none

/-- The moves of the worker within a job that change nothing that is shared; `o` is what the
outside decides in them, if anything. -/
inductive InnerMove (length : ℕ) (cancelling : Bool) (active : UInt32) (o : Option Outside) :
    Phase → Phase → Prop
  | fits : InnerMove length cancelling active o .prepare .control
  | initError (result : EngineCall → Int32) (options : SamsungSpeakOptions)
      (ho : o = some (.initResults result)) (h : (initializeSynth result options).2 = false) :
      InnerMove length cancelling active o .prepare .sendInitError
  | start : InnerMove length cancelling active o .control (.loop 0)
  | enter (offset : ℕ) (hlt : offset < length) (h : cancelling = false) :
      InnerMove length cancelling active o (.loop offset) (.call offset)
  | endLoop (offset : ℕ) (h : length ≤ offset ∨ cancelling = true) :
      InnerMove length cancelling active o (.loop offset) (.stop true)
  | call (offset next : ℕ) (samples : Option (List UInt16)) (ho : o = some (.callback samples)) :
      InnerMove length cancelling active o (.playing offset next)
        (.callback offset next samples .loadGeneration)
  | loaded (offset next : ℕ) (samples : Option (List UInt16)) (h : active ≠ 0) :
      InnerMove length cancelling active o (.callback offset next samples .loadGeneration)
        (.callback offset next samples (.loadCancelling active))
  | pass (offset next : ℕ) (samples : Option (List UInt16)) (generation : UInt32)
      (h : cancelling = false) :
      InnerMove length cancelling active o
        (.callback offset next samples (.loadCancelling generation))
        (.callback offset next samples (.send generation))
  | leave (offset next : ℕ) (samples : Option (List UInt16)) (pc : CallbackPc) :
      InnerMove length cancelling active o (.callback offset next samples pc) (.playing offset next)
  | played (offset next : ℕ) :
      InnerMove length cancelling active o (.playing offset next) (.loop next)
  | failed (offset next : ℕ) (result : Int32) (ho : o = some (.return result)) (h : result ≠ 1) :
      InnerMove length cancelling active o (.playing offset next) (.stop false)
  | cancelled (succeeded : Bool) (h : cancelling = true) :
      InnerMove length cancelling active o (.stop succeeded) .clear
  | completed (succeeded : Bool) (h : cancelling = false) :
      InnerMove length cancelling active o (.stop succeeded) (.reply succeeded)

/-- The messages of the worker, with the generation they carry. -/
inductive JobMessage (job : SpeechJob) : Phase → Phase → Frame → Prop
  | initError : JobMessage job .sendInitError .clear
      ⟨SamsungMessage.error.code, job.generation,
        utf8 "The Samsung voice could not be initialized."⟩
  | audio (offset next : ℕ) (samples : Option (List UInt16)) (generation : UInt32) :
      JobMessage job (.callback offset next samples (.send generation)) (.playing offset next)
        ⟨SamsungMessage.audio.code, generation, sampleBytes (samples.getD [])⟩
  | done : JobMessage job (.reply true) .clear ⟨SamsungMessage.done.code, job.generation, []⟩
  | error : JobMessage job (.reply false) .clear
      ⟨SamsungMessage.error.code, job.generation, utf8 "Samsung synthesis failed."⟩

/-- The moves of the worker between jobs; `waiting` is what is in `pendingJob`. -/
inductive IdleMove (waiting : Option SpeechJob) (shuttingDown : Bool) : WorkerPc → WorkerPc → Prop
  | exit (pc : WorkerPc) (hpc : pc = .head ∨ pc = .woken) (h : shuttingDown = true) :
      IdleMove waiting shuttingDown pc .exited
  | start : IdleMove waiting shuttingDown .head .predicate
  | pass (h : waiting.isSome ∨ shuttingDown = true) :
      IdleMove waiting shuttingDown .predicate .woken
  | fail (h : waiting = none) : IdleMove waiting shuttingDown .predicate .sleepy
  | sleep : IdleMove waiting shuttingDown .sleepy .asleep
  | wake : IdleMove waiting shuttingDown .asleep .predicate

lemma IdleMove.job_eq {waiting : Option SpeechJob} {shuttingDown : Bool} {pc pc' : WorkerPc}
    (h : IdleMove waiting shuttingDown pc pc') : pc.job? = none ∧ pc'.job? = none := by
  cases h with
  | exit pc hpc h => rcases hpc with rfl | rfl <;> exact ⟨rfl, rfl⟩
  | _ => exact ⟨rfl, rfl⟩

/-- What a step of the worker does to the state; `o` is what the outside decides in it. -/
inductive WorkerMove (s : GuestState) (o : Option Outside) : GuestState → Prop
  | idle (pc : WorkerPc) (synth : Option (List EngineCall))
      (h : IdleMove s.pendingJob s.shuttingDown s.worker pc) :
      WorkerMove s o { s with worker := pc, synth := synth }
  | take (job : SpeechJob) (hs : s.worker = .woken) (hpending : s.pendingJob = some job) :
      WorkerMove s o { s with pendingJob := none, worker := .busy job .reset }
  | reset (job : SpeechJob) (hs : s.worker = .busy job .reset) :
      WorkerMove s o { s with cancelling := false, worker := .busy job .publish }
  | publish (job : SpeechJob) (hs : s.worker = .busy job .publish) :
      WorkerMove s o { s with activeGeneration := job.generation, worker := .busy job .prepare }
  | inner (job : SpeechJob) (phase phase' : Phase) (synth : Option (List EngineCall))
      (language model : Int32) (hs : s.worker = .busy job phase)
      (hmove : InnerMove job.text.length s.cancelling s.activeGeneration o phase phase') :
      WorkerMove s o { s with
        worker := .busy job phase', synth := synth, currentLanguage := language
        currentModel := model }
  | play (job : SpeechJob) (offset : ℕ) (synth : Option (List EngineCall))
      (hs : s.worker = .busy job (.call offset)) :
      WorkerMove s o { s with
        worker := .busy job (.playing offset (nextChunkEnd job.text offset)), synth := synth
        log := s.log ++ [.play job.request
          ((job.text.drop offset).take (nextChunkEnd job.text offset - offset))] }
  | message (job : SpeechJob) (phase phase' : Phase) (f : Frame)
      (hs : s.worker = .busy job phase) (hmessage : JobMessage job phase phase' f) :
      WorkerMove s o { s with
        worker := .busy job phase', log := s.log ++ [.sent f (some job.request)] }
  | clear (job : SpeechJob) (hs : s.worker = .busy job .clear) :
      WorkerMove s o { s with activeGeneration := 0, worker := .head }

/-- A worker's move keeps the reader and the count of requests. -/
lemma WorkerMove.reader {s t : GuestState} {o : Option Outside} (h : WorkerMove s o t) :
    t.reader = s.reader ∧ t.requests = s.requests := by
  cases h <;> exact ⟨rfl, rfl⟩

lemma workerMove_jobStep {s t : GuestState} {job : SpeechJob} {phase : Phase}
    (hs : s.worker = .busy job phase) (h : jobStep s job phase = some t) : WorkerMove s none t := by
  cases phase with
  | reset => cases h; exact .reset job hs
  | publish => cases h; exact .publish job hs
  | prepare =>
      rw [jobStep] at h
      split at h
      · cases h; exact .inner job _ _ s.synth _ _ hs .fits
      · exact absurd h (by simp)
  | sendInitError => cases h; exact .message job _ _ _ hs .initError
  | control => cases h; exact .inner job _ _ _ _ _ hs .start
  | loop offset =>
      cases h
      refine .inner job _ _ s.synth _ _ hs ?_
      split
      · next hif => exact .enter offset hif.1 hif.2
      · next hif =>
          rw [not_and_or, Bool.not_eq_false, not_lt] at hif
          exact .endLoop offset hif
  | call offset => cases h; exact .play job offset _ hs
  | playing offset next => cases h
  | callback offset next samples pc =>
      cases pc with
      | loadGeneration =>
          cases h
          refine .inner job _ _ s.synth _ _ hs ?_
          split
          · exact .leave offset next samples _
          · next hif => exact .loaded offset next samples hif
      | loadCancelling generation =>
          cases h
          refine .inner job _ _ s.synth _ _ hs ?_
          split
          · exact .leave offset next samples _
          · next hif => exact .pass offset next samples generation (by simp_all)
      | send generation =>
          cases h
          exact .message job _ _ _ hs (.audio offset next samples generation)
  | stop succeeded =>
      cases h
      refine .inner job _ _ _ _ _ hs ?_
      split
      · next hif => exact .cancelled succeeded hif
      · next hif => exact .completed succeeded (by simpa [callEngine] using hif)
  | reply succeeded =>
      cases succeeded with
      | true => cases h; exact .message job _ _ _ hs .done
      | false => cases h; exact .message job _ _ _ hs .error
  | clear => cases h; exact .clear job hs

lemma workerMove_workerStep {s t : GuestState} (h : workerStep s = some t) :
    WorkerMove s none t := by
  unfold workerStep at h
  split at h
  case h_1 hs =>
    split at h
    · next hdown => cases h; exact .idle .exited none (hs ▸ .exit _ (Or.inl rfl) hdown)
    · cases h; exact .idle .predicate s.synth (hs ▸ .start)
  case h_2 hs =>
    cases h
    refine .idle _ s.synth (hs ▸ ?_)
    split
    · next hif => exact .pass hif
    · next hif => exact .fail (by simpa using (not_or.1 hif).1)
  case h_3 hs => cases h; exact .idle .asleep s.synth (hs ▸ .sleep)
  case h_4 => cases h
  case h_5 hs =>
    split at h
    · next hdown => cases h; exact .idle .exited none (hs ▸ .exit _ (Or.inr rfl) hdown)
    · obtain ⟨job, hjob, h⟩ := Option.map_eq_some_iff.1 h
      cases h
      exact .take job hs hjob
  case h_6 job phase hs => exact workerMove_jobStep hs h
  case h_7 => cases h

lemma workerMove_outsideStep {s t : GuestState} {o : Outside} (h : outsideStep s o = some t) :
    WorkerMove s (some o) t := by
  unfold outsideStep at h
  split at h
  case h_1 _ hs => cases h; exact .idle .predicate s.synth (hs ▸ .wake)
  case h_2 _ job result hs =>
    split at h
    · exact absurd h (by simp)
    · cases h
      rw [replaceEngine]
      split
      · exact .inner job _ _ _ _ _ hs .fits
      · next hfail =>
          exact .inner job _ _ _ _ _ hs (.initError result job.options rfl (by simpa using hfail))
  case h_3 _ job offset next samples hs =>
    cases h
    exact .inner job _ _ s.synth _ _ hs (.call offset next samples rfl)
  case h_4 _ job offset next result hs =>
    cases h
    refine .inner job _ _ s.synth _ _ hs ?_
    split
    · exact .played offset next
    · next hfail => exact .failed offset next result rfl hfail
  case h_5 => cases h

end SamsungTVVoices.Guest
