/-
The framed protocol between the driver and the guest (`samsung_protocol.h`).

Every message is a 16-byte header of four little-endian words followed by its payload.  The
payload of a SPEAK request starts with the packed option block.  Both ends keep their own
copy of these layouts: the guest as packed structs, the driver as the `struct` formats
`<IIII` and `<iiiii`.
-/
import SamsungTVVoices.Lib.Digits

open FixedDigits

namespace SamsungTVVoices

abbrev Bytes := List UInt8

/-- `SMTV`, read as a little-endian word. -/
def samsungProtocolMagic : UInt32 := 0x56544D53

/-- The largest payload that the guest accepts. -/
def samsungProtocolMaxPayload : ℕ := 1 <<< 20

/-- The message types of both directions. -/
inductive SamsungMessage where
  | speak | cancel | quit | ready | audio | done | error | cancelled
deriving DecidableEq, Repr

/-- The number of a message type on the wire. -/
def SamsungMessage.code : SamsungMessage → UInt32
  | speak => 1
  | cancel => 2
  | quit => 3
  | ready => 101
  | audio => 102
  | done => 103
  | error => 104
  | cancelled => 105

lemma SamsungMessage.code_injective : Function.Injective SamsungMessage.code := by
  intro a b h
  cases a <;> cases b <;> first | rfl | exact absurd h (by decide)

/-! ### Text -/

/-- The UTF-8 encoding of a text. -/
def utf8 (s : String) : Bytes := s.toUTF8.data.toList

@[simp] lemma utf8_append (s t : String) : utf8 (s ++ t) = utf8 s ++ utf8 t := by
  simp [utf8, String.toByteArray_append]

lemma utf8_injective : Function.Injective utf8 := by
  intro s t h
  refine String.toByteArray_inj.1 (ByteArray.ext (Array.ext' ?_))
  exact h

lemma utf8_eq_flatMap (s : String) : utf8 s = s.toList.flatMap String.utf8EncodeChar := by
  rw [utf8, String.toUTF8_eq_toByteArray, ← String.utf8Encode_toList, List.utf8Encode]
  simp

/-- No character takes more than four bytes. -/
lemma length_utf8_le (s : String) : (utf8 s).length ≤ 4 * s.toList.length := by
  rw [utf8_eq_flatMap]
  induction s.toList with
  | nil => exact le_rfl
  | cons c cs ih =>
      rw [List.flatMap_cons, List.length_append, List.length_cons, String.length_utf8EncodeChar]
      have hc := c.utf8Size_le_four
      omega

/-! ### Words -/

/-- A word as the four bytes that stand for it on the wire. -/
def wordBytes (x : UInt32) : Bytes := leBytes 4 x.toNat

/-- The word that four bytes stand for. -/
def ofWordBytes (bs : Bytes) : UInt32 := UInt32.ofNat (ofLeBytes bs)

@[simp] lemma length_wordBytes (x : UInt32) : (wordBytes x).length = 4 := by simp [wordBytes]

@[simp] lemma ofWordBytes_wordBytes (x : UInt32) : ofWordBytes (wordBytes x) = x := by
  have hlt : x.toNat < 256 ^ 4 := x.toNat_lt
  rw [ofWordBytes, wordBytes, ofLeBytes_leBytes, Nat.mod_eq_of_lt hlt]
  simp

/-! ### The message header -/

/-- The header of a message. -/
structure SamsungMessageHeader where
  magic : UInt32
  type : UInt32
  generation : UInt32
  size : UInt32
deriving DecidableEq, Repr

namespace SamsungMessageHeader

/-- The size of the header in bytes. -/
def byteSize : ℕ := 16

def toBytes (h : SamsungMessageHeader) : Bytes :=
  wordBytes h.magic ++ wordBytes h.type ++ wordBytes h.generation ++ wordBytes h.size

def ofBytes (bs : Bytes) : SamsungMessageHeader where
  magic := ofWordBytes (bs.take 4)
  type := ofWordBytes ((bs.drop 4).take 4)
  generation := ofWordBytes ((bs.drop 8).take 4)
  size := ofWordBytes ((bs.drop 12).take 4)

@[simp] lemma length_toBytes (h : SamsungMessageHeader) : h.toBytes.length = byteSize := by
  simp [toBytes, byteSize]

theorem ofBytes_toBytes (h : SamsungMessageHeader) : ofBytes h.toBytes = h := by
  simp [ofBytes, toBytes, List.drop_append, List.take_of_length_le, List.drop_eq_nil_of_le]

end SamsungMessageHeader

/-! ### The option block of a SPEAK request -/

/-- The engine settings that a SPEAK request carries. -/
structure SamsungSpeakOptions where
  language : Int32
  model : Int32
  rate : Int32
  pitch : Int32
  headSize : Int32
deriving DecidableEq, Repr

namespace SamsungSpeakOptions

/-- The size of the option block in bytes. -/
def byteSize : ℕ := 20

def toBytes (o : SamsungSpeakOptions) : Bytes :=
  wordBytes o.language.toUInt32 ++ wordBytes o.model.toUInt32 ++ wordBytes o.rate.toUInt32 ++
    wordBytes o.pitch.toUInt32 ++ wordBytes o.headSize.toUInt32

def ofBytes (bs : Bytes) : SamsungSpeakOptions where
  language := (ofWordBytes (bs.take 4)).toInt32
  model := (ofWordBytes ((bs.drop 4).take 4)).toInt32
  rate := (ofWordBytes ((bs.drop 8).take 4)).toInt32
  pitch := (ofWordBytes ((bs.drop 12).take 4)).toInt32
  headSize := (ofWordBytes ((bs.drop 16).take 4)).toInt32

@[simp] lemma length_toBytes (o : SamsungSpeakOptions) : o.toBytes.length = byteSize := by
  simp [toBytes, byteSize]

/-- The guest reads the option block that the driver packed, whatever text follows it. -/
theorem ofBytes_toBytes_append (o : SamsungSpeakOptions) (text : Bytes) :
    ofBytes (o.toBytes ++ text) = o := by
  simp [ofBytes, toBytes, List.drop_append, List.drop_eq_nil_of_le]

end SamsungSpeakOptions

/-! ### Samples -/

/-- The payload of an AUDIO message. -/
def sampleBytes (samples : List UInt16) : Bytes := samples.flatMap fun x => leBytes 2 x.toNat

/-! ### Frames -/

/-- A message as it travels on the channel. -/
structure Frame where
  type : UInt32
  generation : UInt32
  payload : Bytes
deriving DecidableEq, Repr

namespace Frame

/-- The header of a frame. -/
def header (f : Frame) : SamsungMessageHeader where
  magic := samsungProtocolMagic
  type := f.type
  generation := f.generation
  size := UInt32.ofNat f.payload.length

/-- A frame on the wire. -/
def toBytes (f : Frame) : Bytes := f.header.toBytes ++ f.payload

end Frame

end SamsungTVVoices
