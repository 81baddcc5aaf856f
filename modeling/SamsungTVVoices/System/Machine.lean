/-
The whole system: the driver's two threads, the thread that reads the guest's messages, and the
guest's two threads, joined by the two directions of the channel.

What the composition assumes is built into its actions.  A frame that is written arrives whole and
in order; the helper is started once and does not fail; no timer of `_synthesizeText` runs out;
the calls on the engine return 1, and the engine calls back only during a call.  The guest is taken
up when it has sent READY, which `start` has read.
-/
import SamsungTVVoices.Driver.Line
import SamsungTVVoices.Guest.Serve

open SamsungTVVoices.Driver SamsungTVVoices.Guest
open SamsungTVVoices.Host (Message)

namespace SamsungTVVoices.System

/-! ### The state -/

/-- Where the reader thread of the host is. -/
inductive HostReaderPc where
  | read
  | put (mail : Mail)
  /-- After an item that ends the queue. -/
  | ended
deriving DecidableEq, Repr

structure SystemState where
  /-- The driver, with what it has written and the guest has not read. -/
  driver : DriverState
  guest : GuestState
  hostReader : HostReaderPc
  /-- How many of the guest's messages the reader thread has read. -/
  taken : ℕ

/-- What the guest has sent and the reader thread has not read. -/
def SystemState.incoming (s : SystemState) : List (Frame × Option ℕ) :=
  (sentFrames s.guest.log).drop s.taken

/-- The state after `__init__`; READY has been read. -/
def initialState (generation : UInt32) : SystemState where
  driver := Driver.initialState generation
  guest := Guest.initialState
  hostReader := .read
  taken := 1

/-- What the reader thread makes of a frame. -/
def mailOf (p : Frame × Option ℕ) : Mail := ⟨.ofFrame p.1, p.2⟩

/-! ### The steps -/

/-- One step of the system, by the party that takes it. -/
inductive SystemAction where
  | speak (speechSequence : List SpeechItem)
  | cancel
  /-- The driver's main thread, in a call. -/
  | main
  /-- The driver's worker. -/
  | worker
  /-- The helper has started. -/
  | start
  /-- The driver's worker has found its queue empty. -/
  | poll
  /-- The guest's reader reads a frame. -/
  | receive
  | guestReader
  | guestWorker
  | engine (e : Engine)
  /-- The reader thread of the host reads a frame. -/
  | take
  /-- The reader thread of the host puts a message into the queue. -/
  | put
deriving DecidableEq, Repr

section Step

variable (settings : Settings) (scaleSample : ℤ → UInt16 → UInt16)

/-- A step of the driver. -/
def drive (s : SystemState) (a : DriverAction) : Option SystemState :=
  (driverStep settings scaleSample s.driver a).map fun d => { s with driver := d }

/-- A step of the guest that reads nothing. -/
def serve (s : SystemState) (a : GuestAction) : Option SystemState :=
  (guestStep s.guest a).map fun g => { s with guest := g }

/-- The guest's reader reads the next frame. -/
def receive (s : SystemState) : Option SystemState :=
  match s.driver.outgoing with
  | [] => none
  | f :: rest => (guestStep s.guest (.receive (.ofFrame f))).map fun g =>
      { s with driver := { s.driver with outgoing := rest }, guest := g }

/-- `_reader` reads the next frame. -/
def take (s : SystemState) : Option SystemState :=
  match s.hostReader, s.incoming with
  | .read, p :: _ => some { s with
      taken := s.taken + 1
      hostReader :=
        .put (if p.1.payload.length ≤ Host.maxPayload then mailOf p else ⟨.invalid, none⟩) }
  | _, _ => none

/-- `_putMessage`. -/
def put (s : SystemState) : Option SystemState :=
  match s.hostReader with
  | .put mail => (drive settings scaleSample s (.arrive mail)).map fun t =>
      { t with hostReader := if mail.message.messageType = none then .ended else .read }
  | _ => none

def systemStep (s : SystemState) : SystemAction → Option SystemState
  | .speak speechSequence => drive settings scaleSample s (.speak speechSequence)
  | .cancel => drive settings scaleSample s .cancel
  | .main => drive settings scaleSample s .main
  | .worker => drive settings scaleSample s .worker
  | .start => drive settings scaleSample s (.hostStart true)
  | .poll => drive settings scaleSample s (.empty false false)
  | .receive => receive s
  | .guestReader => serve s .reader
  | .guestWorker => serve s .worker
  | .engine e => serve s (.outside e.outside)
  | .take => take s
  | .put => put settings scaleSample s

end Step

/-! ### The property -/

/-- The action takes a request further: it is neither one of the main thread nor a poll, nor one
that the engine and the condition variable need not take. -/
def SystemAction.Forward : SystemAction → Prop
  | .worker | .receive | .guestReader | .guestWorker | .engine .init | .engine .return | .take
  | .put => True
  | _ => False

/-- `_synthesizeText` has returned for the request, and on which message. -/
def answerOf (s : SystemState) (k : ℕ) : Option Mail :=
  s.driver.requests[k]?.bind (·.returned)

/-- The requests that no `cancel` supersedes before they complete are answered once. -/
structure DeliveredOnce (settings : Settings) (scaleSample : ℤ → UInt16 → UInt16)
    (s : SystemState) : Prop where
  /-- The reader overwrites no job that waits, unless its request is superseded. -/
  kept : ∀ job waiting, s.guest.reader = .post job → s.guest.pendingJob = some waiting →
    ∃ r, s.driver.requests[waiting.request]? = some r ∧ r.superseded = true
  /-- What has been fed are the first of the AUDIO messages that the guest has sent. -/
  fed : ∀ k r, s.driver.requests[k]? = some r → r.superseded = false →
    r.fed <+: (audioFor k s.guest.log).map mailOf
  /-- Before the request completes, the guest sends no message that ends it but one DONE. -/
  terminals : ∀ k r, s.driver.requests[k]? = some r → r.superseded = false → r.returned = none →
    terminalsFor k s.guest.log <+: [⟨SamsungMessage.done.code, r.frame.generation, []⟩]
  /-- When it completes, that DONE has been sent. -/
  completes : ∀ k r a t, s.driver.requests[k]? = some r → r.superseded = false →
    r.returned = none → systemStep settings scaleSample s a = some t → answerOf t k ≠ none →
      terminalsFor k t.guest.log = [⟨SamsungMessage.done.code, r.frame.generation, []⟩]
  /-- A request that has completed did so on its DONE, all of its audio was fed, and all of its
  text was played. -/
  returned : ∀ k r mail, s.driver.requests[k]? = some r → r.superseded = false →
    r.returned = some mail → mail = ⟨doneMessage r.frame.generation, some k⟩ ∧
      r.fed = (audioFor k s.guest.log).map mailOf ∧
      (chunksFor k s.guest.log).flatten = speakText r.frame
  /-- As long as a request is not answered, some party can go on. -/
  progress : ∀ (k : ℕ) r, s.driver.requests[k]? = some r → r.superseded = false →
    r.returned = none → ∃ a t, a.Forward ∧ systemStep settings scaleSample s a = some t

end SamsungTVVoices.System
