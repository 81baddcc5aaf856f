/-
What the driver makes of a call of `speak` (`samsungTVVoices.py`, `SynthDriver.speak`,
`_synthesizeText`, `_scaleVolume`, `_SamsungHost.nextGeneration`, `send`).

A Python string is a list of code points, which may be lone surrogates: `encode("utf-8")` has
no bytes for those.
-/
import SamsungTVVoices.Protocol
import Mathlib.Data.List.DropRight

open FixedDigits

namespace SamsungTVVoices.Driver

/-! ### Strings -/

/-- A code point, as a Python string holds it. -/
abbrev CodePoint := Fin 0x110000

instance neZero_codePoints : NeZero 0x110000 := ⟨by decide⟩

abbrev PyString := List CodePoint

/-- The code points for which `str.isspace` holds, which `str.strip` removes. -/
def isSpace (c : CodePoint) : Bool :=
  (0x9 ≤ c.val && c.val ≤ 0xD) || (0x1C ≤ c.val && c.val ≤ 0x20) || c.val == 0x85 ||
    c.val == 0xA0 || c.val == 0x1680 || (0x2000 ≤ c.val && c.val ≤ 0x200A) || c.val == 0x2028 ||
    c.val == 0x2029 || c.val == 0x202F || c.val == 0x205F || c.val == 0x3000

/-- `str.strip`. -/
def strip (s : PyString) : PyString := (s.rdropWhile isSpace).dropWhile isSpace

/-- The UTF-8 bytes of a code point; a surrogate has none. -/
def encodePoint (c : CodePoint) : Option Bytes :=
  if c.val.isValidChar then some (String.utf8EncodeChar (Char.ofNat c.val)) else none

/-- `str.encode("utf-8")`; `none` is a `UnicodeEncodeError`. -/
def encode (s : PyString) : Option Bytes := (s.mapM encodePoint).map List.flatten

/-! ### `speak` -/

/-- An item of a speech sequence. -/
inductive SpeechItem where
  | str (s : PyString)
  | indexCommand (index : ℤ)
  /-- Any other command: `speak` passes over it. -/
  | other
deriving DecidableEq, Repr

/-- An event of a job. -/
inductive SpeechEvent where
  | text (text : PyString)
  | index (index : ℤ)
deriving DecidableEq, Repr

/-- `flushText`, on `events` and `textParts`. -/
def flushText (events : List SpeechEvent) (textParts : List PyString) : List SpeechEvent :=
  let text := strip textParts.flatten
  if text = [] then events else events ++ [.text text]

/-- The loop of `speak` over the sequence, and the last `flushText`. -/
def collectEvents (events : List SpeechEvent) (textParts : List PyString) :
    List SpeechItem → List SpeechEvent
  | [] => flushText events textParts
  | .str s :: rest => collectEvents events (textParts ++ [s]) rest
  | .indexCommand i :: rest => collectEvents (flushText events textParts ++ [.index i]) [] rest
  | .other :: rest => collectEvents events textParts rest

/-- The events that `speak` queues. -/
def speechEvents (speechSequence : List SpeechItem) : List SpeechEvent :=
  collectEvents [] [] speechSequence

/-! ### What a sequence says -/

/-- The strings up to the next index command. -/
def firstRun : List SpeechItem → PyString
  | .str s :: rest => s ++ firstRun rest
  | .other :: rest => firstRun rest
  | _ => []

/-- The index commands, each with the strings between it and the next. -/
def indexedRuns : List SpeechItem → List (ℤ × PyString)
  | [] => []
  | .indexCommand i :: rest => (i, firstRun rest) :: indexedRuns rest
  | _ :: rest => indexedRuns rest

/-- The text of a run, unless it is blank. -/
def textOf (s : PyString) : List SpeechEvent := if strip s = [] then [] else [.text (strip s)]

lemma flushText_eq (events : List SpeechEvent) (textParts : List PyString) :
    flushText events textParts = events ++ textOf textParts.flatten := by
  by_cases h : strip textParts.flatten = [] <;> simp [flushText, textOf, h]

lemma collectEvents_eq (items : List SpeechItem) (events : List SpeechEvent)
    (textParts : List PyString) :
    collectEvents events textParts items = events ++ textOf (textParts.flatten ++ firstRun items) ++
      (indexedRuns items).flatMap fun r => .index r.1 :: textOf r.2 := by
  induction items generalizing events textParts with
  | nil => simp [collectEvents, flushText_eq, firstRun, indexedRuns]
  | cons item rest ih =>
      cases item with
      | str s => simp [collectEvents, ih, firstRun, indexedRuns]
      | indexCommand i => simp [collectEvents, ih, flushText_eq, firstRun, indexedRuns]
      | other => simp [collectEvents, ih, firstRun, indexedRuns]

/-- **Events.** `speak` queues the text before the first index command, and then every index
with the text after it. -/
theorem speechEvents_eq (items : List SpeechItem) :
    speechEvents items = textOf (firstRun items) ++
      (indexedRuns items).flatMap fun r => .index r.1 :: textOf r.2 := by
  simp [speechEvents, collectEvents_eq]

lemma ne_nil_of_mem_textOf {s t : PyString} (h : .text t ∈ textOf s) : t ≠ [] := by
  by_cases hs : strip s = []
  · simp [textOf, hs] at h
  · obtain rfl : t = strip s := by simpa [textOf, hs] using h
    exact hs

/-- No text that `speak` queues is empty. -/
lemma ne_nil_of_mem_speechEvents {items : List SpeechItem} {t : PyString}
    (h : .text t ∈ speechEvents items) : t ≠ [] := by
  simp only [speechEvents_eq, List.mem_append, List.mem_flatMap, List.mem_cons, reduceCtorEq,
    false_or] at h
  rcases h with h | ⟨r, -, h⟩
  · exact ne_nil_of_mem_textOf h
  · exact ne_nil_of_mem_textOf h

/-! ### The request -/

/-- The settings that a request uses: the voice's `language` and `model`, and the sliders. -/
structure Settings where
  language : Int32
  model : Int32
  rate : ℤ
  pitch : ℤ
  headSize : ℤ
  volume : ℤ
deriving DecidableEq, Repr

/-- `max(0, min(100, value))`. -/
def percent (value : ℤ) : ℤ := max 0 (min 100 value)

/-- `round(n / d)`: halves go to the even neighbour. -/
def roundDiv (n d : ℤ) : ℤ :=
  let q := n / d
  let r := n % d
  if 2 * r < d ∨ 2 * r = d ∧ q % 2 = 0 then q else q + 1

def mapRate (value : ℤ) : ℤ := roundDiv (percent value - 50) 10

/-- The factor 0.6 is inexact, but no product comes near a half. -/
def mapPitch (value : ℤ) : ℤ := roundDiv ((percent value - 50) * 6) 10

def mapHeadSize (value : ℤ) : ℤ := roundDiv (percent value - 50) 5

/-- The option block of a request. -/
def Settings.options (settings : Settings) : SamsungSpeakOptions where
  language := settings.language
  model := settings.model
  rate := Int32.ofInt (mapRate settings.rate)
  pitch := Int32.ofInt (mapPitch settings.pitch)
  headSize := Int32.ofInt (mapHeadSize settings.headSize)

/-- The payload of a request; `none` is an exception. -/
def speakPayload (settings : Settings) (text : PyString) : Option Bytes :=
  (encode text).map (settings.options.toBytes ++ ·)

/-- `_HEADER.pack` in `send`: the size has to fit its field. -/
def packFrame (type : SamsungMessage) (generation : UInt32) (payload : Bytes) : Option Frame :=
  if payload.length < 2 ^ 32 then some ⟨type.code, generation, payload⟩ else none

/-- The frame of a SPEAK; `none` is an exception. -/
def speakFrame (settings : Settings) (generation : UInt32) (text : PyString) : Option Frame :=
  (speakPayload settings text).bind (packFrame .speak generation)

/-- The text can be encoded, and its request can be packed. -/
def Sendable (text : PyString) : Prop :=
  ∃ bytes ∈ encode text, SamsungSpeakOptions.byteSize + bytes.length < 2 ^ 32

instance (text : PyString) : Decidable (Sendable text) :=
  inferInstanceAs (Decidable (∃ bytes ∈ encode text, _))

/-- The text of the event, if it has one, can be sent. -/
def SpeechEvent.Sendable : SpeechEvent → Prop
  | .text t => Driver.Sendable t
  | .index _ => True

instance : (e : SpeechEvent) → Decidable e.Sendable
  | .text t => inferInstanceAs (Decidable (Driver.Sendable t))
  | .index _ => .isTrue trivial

lemma speakFrame_of_sendable {text : PyString} (h : Sendable text) (settings : Settings)
    (generation : UInt32) : ∃ bytes, encode text = some bytes ∧
      speakFrame settings generation text =
        some ⟨SamsungMessage.speak.code, generation, settings.options.toBytes ++ bytes⟩ := by
  obtain ⟨bytes, hbytes, hlength⟩ := h
  have hpayload : (settings.options.toBytes ++ bytes).length < 2 ^ 32 := by
    rw [List.length_append, SamsungSpeakOptions.length_toBytes]
    exact hlength
  refine ⟨bytes, hbytes, ?_⟩
  rw [speakFrame, speakPayload, hbytes, Option.map_some, Option.bind_some, packFrame,
    if_pos hpayload]

/-- The text of a frame that was packed can be sent. -/
lemma sendable_of_speakFrame {settings : Settings} {generation : UInt32} {text : PyString}
    {frame : Frame} (h : speakFrame settings generation text = some frame) : Sendable text := by
  obtain ⟨payload, hpayload, hframe⟩ := Option.bind_eq_some_iff.1 h
  obtain ⟨bytes, hbytes, rfl⟩ := Option.map_eq_some_iff.1 hpayload
  rw [packFrame] at hframe
  split at hframe
  · next hlength =>
      rw [List.length_append, SamsungSpeakOptions.length_toBytes] at hlength
      exact ⟨bytes, hbytes, hlength⟩
  · cases hframe

/-- `nextGeneration`. -/
def nextGeneration (generation : UInt32) : UInt32 :=
  if generation + 1 = 0 then 1 else generation + 1

lemma nextGeneration_ne (generation : UInt32) : nextGeneration generation ≠ generation := by
  rw [nextGeneration]
  split
  · next h =>
      rintro rfl
      exact absurd h (by decide)
  · intro h
    have hnat := congrArg UInt32.toNat h
    rw [UInt32.toNat_add] at hnat
    have hlt := generation.toNat_lt
    simp only [UInt32.toNat_one] at hnat
    omega

lemma nextGeneration_ne_zero (generation : UInt32) : nextGeneration generation ≠ 0 := by
  rw [nextGeneration]
  split
  · decide
  · assumption

/-! ### Volume -/

/-- `array("h").frombytes`; `none` is a `ValueError`. -/
def samplesOf : Bytes → Option (List UInt16)
  | [] => some []
  | [_] => none
  | a :: b :: rest => (samplesOf rest).map (UInt16.ofNat (ofLeBytes [a, b]) :: ·)

/-- `_scaleVolume`; `scaleSample` is `round(sample * (value / 100.0))` in floating point. -/
def scaleVolume (scaleSample : ℤ → UInt16 → UInt16) (data : Bytes) (value : ℤ) : Option Bytes :=
  if percent value = 100 then some data
  else if percent value = 0 then some (List.replicate data.length 0)
  else (samplesOf data).map fun samples => sampleBytes (samples.map (scaleSample (percent value)))

lemma samplesOf_sampleBytes (samples : List UInt16) :
    samplesOf (sampleBytes samples) = some samples := by
  induction samples with
  | nil => rfl
  | cons x rest ih =>
      have hx : ∃ a b, leBytes 2 x.toNat = [a, b] := ⟨_, _, rfl⟩
      obtain ⟨a, b, hab⟩ := hx
      have hlt : x.toNat < 256 ^ 2 := x.toNat_lt
      have hvalue : UInt16.ofNat (ofLeBytes [a, b]) = x := by
        rw [← hab, ofLeBytes_leBytes, Nat.mod_eq_of_lt hlt]
        simp
      have hbytes : sampleBytes (x :: rest) = a :: b :: sampleBytes rest := by
        simp [sampleBytes, hab]
      rw [hbytes, samplesOf, ih, hvalue]
      rfl

/-- Audio that holds whole samples can be scaled. -/
lemma scaleVolume_sampleBytes (scaleSample : ℤ → UInt16 → UInt16) (samples : List UInt16)
    (value : ℤ) : ∃ data, scaleVolume scaleSample (sampleBytes samples) value = some data := by
  rw [scaleVolume, samplesOf_sampleBytes]
  split
  · exact ⟨_, rfl⟩
  split
  · exact ⟨_, rfl⟩
  · exact ⟨_, rfl⟩

end SamsungTVVoices.Driver
